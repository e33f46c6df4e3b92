import Mathlib.Data.Prod.Lex
import Mathlib.Data.String.Basic
import Murder.Harness.Ingestion

/-! The durable evidence of a session: payloads as typed JSON, the rows of frames and evidence, and
the context a parser is given after a restart.
-/

namespace Murder.Harness

open Contracts

mutual
/-- What an adapter puts into a payload: JSON values, tuples and members of enums. -/
inductive PayloadValue
  | null
  | bool (value : Bool)
  | int (value : Int)
  | float (value : Rat)
  | str (value : String)
  | list (items : PayloadItems)
  | dict (fields : PayloadFields)
  | tuple (items : PayloadItems)
  | enumMember (type name : String)
deriving DecidableEq

inductive PayloadItems
  | nil
  | cons (head : PayloadValue) (tail : PayloadItems)
deriving DecidableEq

/-- The entries of a dict; it compares without regard to their order, so they stand in the order of
their keys, as `sort_keys` writes them.
-/
inductive PayloadFields
  | nil
  | cons (key : String) (value : PayloadValue) (tail : PayloadFields)
deriving DecidableEq
end

def tupleJson (items : JsonItems) : JsonValue :=
  .obj (.ofList [("$type", .str "tuple"), ("items", .arr items)])

mutual
/-- `_json_value` -/
def PayloadValue.json : PayloadValue → JsonValue
  | .null => .null
  | .bool value => .bool value
  | .int value => .int value
  | .float value => .float value
  | .str value => .str value
  | .list items => .arr items.json
  | .dict fields => .obj fields.json
  | .tuple items => tupleJson items.json
  | .enumMember type name => .obj (.ofList [("$type", .str type), ("name", .str name)])

def PayloadItems.json : PayloadItems → JsonItems
  | .nil => .nil
  | .cons head tail => .cons head.json tail.json

def PayloadFields.json : PayloadFields → JsonFields
  | .nil => .nil
  | .cons key value tail => .cons key value.json tail.json
end

mutual
/-- `_json_load`, which knows no markers. -/
def PayloadValue.load : JsonValue → PayloadValue
  | .null => .null
  | .bool value => .bool value
  | .int value => .int value
  | .float value => .float value
  | .str value => .str value
  | .arr items => .list (PayloadItems.load items)
  | .obj fields => .dict (PayloadFields.load fields)

def PayloadItems.load : JsonItems → PayloadItems
  | .nil => .nil
  | .cons head tail => .cons (PayloadValue.load head) (PayloadItems.load tail)

def PayloadFields.load : JsonFields → PayloadFields
  | .nil => .nil
  | .cons key value tail => .cons key (PayloadValue.load value) (PayloadFields.load tail)
end

/-- `_payload_dict` -/
def payloadDict : JsonValue → PayloadFields
  | .obj fields => PayloadFields.load fields
  | other => .cons "value" (PayloadValue.load other) .nil

def optionalInt : Option Int → JsonValue
  | none => .null
  | some value => .int value

/-- `_plain_int` -/
def plainInt : Option JsonValue → Option Int
  | some (.int value) => some value
  | _ => none

def ScreenRegionRef.json (region : ScreenRegionRef) : JsonValue :=
  .obj (.ofList [
    ("$type", .str "murder.llm.harness_control.model.evidence.ScreenRegionRef"),
    ("fields", .obj (.ofList [
      ("end_column", optionalInt region.endColumn),
      ("end_line", optionalInt region.endLine),
      ("label", .str region.label),
      ("start_column", optionalInt region.startColumn),
      ("start_line", optionalInt region.startLine)]))])

/-- `_regions_json` -/
def regionsJson (regions : List ScreenRegionRef) : JsonValue :=
  tupleJson (.ofList (regions.map ScreenRegionRef.json))

def stringsJson (texts : List String) : JsonValue :=
  tupleJson (.ofList (texts.map .str))

def EvidenceDiagnostics.json (diagnostics : EvidenceDiagnostics) : JsonValue :=
  .obj (.ofList [
    ("contradictory_fields", stringsJson diagnostics.contradictoryFields),
    ("messages", stringsJson diagnostics.messages),
    ("parser_name", .str diagnostics.parserName),
    ("unrecognized_regions", regionsJson diagnostics.unrecognizedRegions)])

def JsonValue.isDict : JsonValue → Bool
  | .obj _ => true
  | _ => false

def markedItems (value : JsonValue) : List JsonValue :=
  let items := if JsonValue.isDict value then (value.get? "items").getD (.arr .nil) else value
  match items with
  | .arr listed => listed.toList
  | _ => []

section Reading

variable [PyRepr]

/-- A row of regions; what is no object is passed over. -/
def regionFromJson (row : JsonValue) : Option ScreenRegionRef :=
  let data := match row.get? "fields" with
    | some (.obj fields) => .obj fields
    | _ => row
  if JsonValue.isDict data then
    some {
      label := ((data.get? "label").getD (.str "unknown")).pyStr
      startLine := plainInt (data.get? "start_line")
      endLine := plainInt (data.get? "end_line")
      startColumn := plainInt (data.get? "start_column")
      endColumn := plainInt (data.get? "end_column") }
  else none

/-- `_regions_from_json` -/
def regionsFromJson (value : JsonValue) : List ScreenRegionRef :=
  (markedItems value).filterMap regionFromJson

/-- `_tuple_strings` -/
def tupleStrings (value : JsonValue) : List String := (markedItems value).map JsonValue.pyStr

def diagnosticsFromJson (value : JsonValue) : EvidenceDiagnostics :=
  let fields := match value.get? "fields" with
    | some inner => inner
    | none => value
  let read := fun key => (fields.get? key).getD (tupleJson .nil)
  { parserName := ((fields.get? "parser_name").getD (.str "unknown")).pyStr
    messages := tupleStrings (read "messages")
    unrecognizedRegions := regionsFromJson (read "unrecognized_regions")
    contradictoryFields := tupleStrings (read "contradictory_fields") }

end Reading

abbrev StoredEnvelope := EvidenceEnvelope PayloadFields

/-- A row of `harness_control_frames`. -/
structure FrameRow where
  sessionId : Option String
  frame : TerminalFrame

/-- A row of `harness_control_evidence`; a JSON column stands for its text. -/
structure EvidenceRow where
  evidenceId : String
  frameId : String
  harnessId : String
  parserVersion : String
  evidenceType : String
  capturedAt : Timestamp
  payloadJson : JsonValue
  sourceRegionsJson : JsonValue
  diagnosticsJson : JsonValue

def EvidenceRow.ofEnvelope (envelope : StoredEnvelope) : EvidenceRow where
  evidenceId := envelope.evidenceId
  frameId := envelope.frameId
  harnessId := envelope.harnessId
  parserVersion := envelope.parserVersion
  evidenceType := envelope.evidenceType
  capturedAt := envelope.capturedAt
  payloadJson := .obj envelope.payload.json
  sourceRegionsJson := regionsJson envelope.sourceRegions
  diagnosticsJson := envelope.diagnostics.json

/-- `_evidence_from_row` -/
def EvidenceRow.envelope [PyRepr] (row : EvidenceRow) : StoredEnvelope where
  evidenceId := row.evidenceId
  frameId := row.frameId
  harnessId := row.harnessId
  parserVersion := row.parserVersion
  capturedAt := row.capturedAt
  evidenceType := row.evidenceType
  payload := payloadDict row.payloadJson
  sourceRegions := regionsFromJson row.sourceRegionsJson
  diagnostics := diagnosticsFromJson row.diagnosticsJson

structure ControlStore where
  frames : List FrameRow
  evidence : List EvidenceRow

namespace ControlStore

variable (store : ControlStore)

def findFrame (frameId : String) : Option FrameRow :=
  store.frames.find? (fun row => row.frame.frameId = frameId)

def findEvidence (evidenceId : String) : Option EvidenceRow :=
  store.evidence.find? (fun row => row.evidenceId = evidenceId)

/-- `persist_frame`, unless it raises. -/
def persistFrame (sessionId : Option String) (frame : TerminalFrame) : Option ControlStore :=
  match store.findFrame frame.frameId with
  | some existing =>
    if existing.frame.harnessId ≠ frame.harnessId
        ∨ existing.frame.capturedAt ≠ frame.capturedAt
        ∨ existing.frame.rawText ≠ frame.rawText then
      none
    else some store
  | none => some { store with frames := store.frames ++ [⟨sessionId, frame⟩] }

/-- `persist_evidence`, unless it raises. -/
def persistEvidence (envelope : StoredEnvelope) : Option ControlStore :=
  match store.findFrame envelope.frameId with
  | none => none
  | some frame =>
    if frame.frame.harnessId ≠ envelope.harnessId then none
    else
      let row := EvidenceRow.ofEnvelope envelope
      match store.findEvidence envelope.evidenceId with
      | some existing =>
        if existing.frameId ≠ row.frameId ∨ existing.parserVersion ≠ row.parserVersion
            ∨ existing.evidenceType ≠ row.evidenceType
            ∨ existing.payloadJson ≠ row.payloadJson then
          none
        else some store
      | none => some { store with evidence := store.evidence ++ [row] }

/-- `record_evidence` -/
def recordEvidence (evidence : List StoredEnvelope) : Option ControlStore :=
  evidence.foldlM persistEvidence store

def sessionFrames (harnessId : String) (sessionId : Option String) : List TerminalFrame :=
  (store.frames.filter (fun row =>
    row.frame.harnessId = harnessId ∧ row.sessionId = sessionId)).map (·.frame)

def joined (frames : List TerminalFrame) : List (TerminalFrame × EvidenceRow) :=
  frames.flatMap (fun frame =>
    (store.evidence.filter (fun row => row.frameId = frame.frameId)).map (frame, ·))

end ControlStore

def frameKey (frame : TerminalFrame) : ℕ ×ₗ ℕ := toLex (frame.paneEpoch, frame.captureSequence)

def rowKey (row : TerminalFrame × EvidenceRow) : (ℕ ×ₗ ℕ) ×ₗ String :=
  toLex (frameKey row.1, row.2.evidenceId)

/-- `list_session_evidence`, unless it raises. -/
def ControlStore.listSessionEvidence [PyRepr] (store : ControlStore) (harnessId : String)
    (sessionId : Option String) (frameLimit : Nat)
    : Option (List StoredEnvelope) :=
  if frameLimit < 1 then none
  else
    let recent := ((store.sessionFrames harnessId sessionId).mergeSort (fun left right =>
      frameKey right ≤ frameKey left)).take frameLimit
    let rows := (store.joined recent).mergeSort (fun left right => rowKey left ≤ rowKey right)
    some (rows.map (·.2.envelope))

end Murder.Harness

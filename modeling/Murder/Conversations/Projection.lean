import Murder.Conversations.Blocks

/-! The writers of a conversation: user turns recorded at the send boundary, service notices,
and parsed documents reconciled against the stored blocks.
-/

namespace Murder.Conversations

open Murder.Contracts Library.Transactions

inductive ChangeAction
  | blockAppended
  | blockUpdated
deriving DecidableEq

/-- A store mutation that is pushed to subscribed clients. -/
structure ConversationBlockChange where
  action : ChangeAction
  block : ConversationBlock
  previousPayload : Option JsonValue := none
  previousSealed : Option Bool := none
deriving DecidableEq

def updatedChange (existing block : ConversationBlock) : ConversationBlockChange where
  action := .blockUpdated
  block := block
  previousPayload := some existing.payload
  previousSealed := some existing.sealed_

/-- Reconcile one stored block with its parsed segment: the live block is updated in place, a
sealed assistant final may grow, and every other sealed block is immutable.
-/
def mergeStored (ts : String) (existing : ConversationBlock) (seg : JsonValue)
    : ConversationSql (List ConversationBlockChange) := do
  if !existing.sealed_ && !seg.pyEq existing.payload then
    let _ ← updateLiveBlock seg ts
    let state ← get
    pure ((readBlockById state existing.id).map (updatedChange existing)).toList
  else
    let grows ← fromExcept (sealedBlockCanGrow existing seg)
    if grows then
      let updated ← updateBlockById existing.id seg ts
      pure (updated.map (updatedChange existing)).toList
    else
      pure []

def mergeStoredBlocks (ts : String) : List (ConversationBlock × JsonValue)
    → ConversationSql (List ConversationBlockChange)
  | [] => pure []
  | (existing, seg) :: rest => do
      let changes ← mergeStored ts existing seg
      let more ← mergeStoredBlocks ts rest
      pure (changes ++ more)

def sealedPredecessor (livePred : Option ConversationBlock) (state : Conversation)
    : List ConversationBlockChange :=
  match livePred with
  | none => []
  | some live =>
    match readBlockById state live.id with
    | some sealedPred => if sealedPred.sealed_ then [updatedChange live sealedPred] else []
    | none => []

def appendSegments (ts : String) : Option ConversationBlock → List JsonValue
    → ConversationSql (List ConversationBlockChange)
  | _, [] => pure []
  | livePred, seg :: rest => do
      let block ← appendBlock seg ts
      let state ← get
      let more ← appendSegments ts none rest
      pure (sealedPredecessor livePred state
        ++ { action := .blockAppended, block := block } :: more)

variable (state : Conversation) (receivedAt : Option String) (agentId : String)

/-- `received_at or _now()`. -/
def stamp (now : String) : String :=
  match receivedAt with
  | some text => if text = "" then now else text
  | none => now

def mergeNonUserSegmentsWithChanges (segments : List JsonValue) (receivedAt : Option String)
    (now : String) : ConversationSql (List ConversationBlockChange) := do
  let ts := stamp receivedAt now
  if segments = [] then
    pure []
  else
    let state ← get
    let nonUser := (readConversationBlocks state).filter (fun block => block.kind != .user)
    if segments.length < nonUser.length then
      pure []
    else
      let changes ← mergeStoredBlocks ts (nonUser.zip segments)
      let livePred := nonUser.getLast?.filter (fun block => !block.sealed_)
      let appended ← appendSegments ts livePred (segments.drop nonUser.length)
      pure (changes ++ appended)

/-- `_invalidate_conversations`: append the next generation. -/
def invalidateConversations : Conversation :=
  { state with invalidations := state.invalidations + 1 }

/-- Insert or refresh the metadata row; a missing value keeps the stored one. -/
def upsertConversation (harness liveState : Option String) (state : Conversation) : Conversation :=
  let row : ConversationRow :=
    match state.row with
    | none => {
        agentId := agentId
        harness := harness
        liveState := liveState
        status := "in_progress"
      }
    | some row => {
        row with
          harness := harness <|> row.harness
          liveState := liveState <|> row.liveState
          status := "in_progress"
      }
  { state with row := some row }

/-- Record a user turn at the send boundary; a blank text records nothing. -/
def appendUserMessage (text : String) (clientMessageId receivedAt : Option String) (now : String)
    : ConversationSql (Option ConversationBlock) := do
  let body := strip text
  if body = "" then
    pure none
  else
    let ts := stamp receivedAt now
    modify (upsertConversation agentId none none)
    let clientId := (clientMessageId.map strip).filter (fun id => id != "")
    let payload : JsonObject := .cons "type" (.str "user") (.cons "text" (.str body)
      (match clientId with
        | some id => .cons "client_message_id" (.str id) .nil
        | none => .nil))
    let block ← appendBlock (.obj payload) ts
    modify (fun state => { state with
      messages := state.messages ++ [{ role := "user", body := body, capturedAt := ts }] })
    modify invalidateConversations
    pure (some block)

/-- Record a service notice; a blank message records nothing. -/
def appendNotice (message severity : String) (receivedAt : Option String) (now : String)
    : ConversationSql (Option ConversationBlock) := do
  let body := strip message
  if body = "" then
    pure none
  else
    modify (upsertConversation agentId none none)
    let payload : JsonObject := .cons "type" (.str "notice")
      (.cons "severity" (.str severity) (.cons "message" (.str body) .nil))
    let block ← appendBlock (.obj payload) (stamp receivedAt now)
    modify invalidateConversations
    pure (some block)

/-- The merged document read back from the store. -/
structure TranscriptDoc where
  harness : Option String
  state : Option String
  segments : List JsonValue
deriving DecidableEq

def readConversationDoc : TranscriptDoc where
  harness := state.row.bind ConversationRow.harness
  state := state.row.bind ConversationRow.liveState
  segments := (readConversationBlocks state).map ConversationBlock.payload

def docToFlatTurns (doc : TranscriptDoc) : List (String × String) :=
  doc.segments.filterMap (fun seg =>
    match seg.get? "type", textOf seg with
    | some (.str "user"), some text => if strip text = "" then none else some ("user", text)
    | some (.str "assistant"), some text =>
      if strip text = "" then none else some ("assistant", text)
    | _, _ => none)

def replaceAgentMessages (turns : List (String × String)) (capturedAt : String)
    (state : Conversation) : Conversation :=
  { state with messages := turns.map (fun (role, body) =>
    { role := role, body := body, capturedAt := capturedAt }) }

/-- The items a `for` loop visits. -/
def iterItems : JsonValue → Except Failure (List JsonValue)
  | .arr items => .ok items.toList
  | .str text => .ok (text.toList.map (fun c => .str (String.singleton c)))
  | .obj fields => .ok (fields.keys.map .str)
  | value => .error (.typeError ("'" ++ value.typeName ++ "' object is not iterable"))

/-- `isinstance(s, dict) and s.get("type") == "user"`. -/
def isUserSegment (seg : JsonValue) : Bool := seg.get? "type" == some (.str "user")

/-- What the driver stores for a float in a text column. -/
class RealText where
  text : Rat → String

def bindText [RealText] : Option JsonValue → Except Failure (Option String)
  | none => .ok none
  | some .null => .ok none
  | some (.str text) => .ok (some text)
  | some (.bool value) => .ok (some (if value then "1" else "0"))
  | some (.int value) => .ok (some (toString value))
  | some (.float value) => .ok (some (RealText.text value))
  | some value => .error (.bindingError ("unsupported type: " ++ value.typeName))

/-- `value is not None and value != column`. -/
def columnDiffers (value : Option JsonValue) (column : Option String) : Bool :=
  match value with
  | none => false
  | some .null => false
  | some (.str text) => column != some text
  | some _ => true

/-- A change that carries the block's restored position. -/
def repositioned (reordered : List (Nat × Nat)) (change : ConversationBlockChange)
    : ConversationBlockChange :=
  match reordered.lookup change.block.id with
  | some ordinal => { change with block := { change.block with ordinal := ordinal } }
  | none => change

def metadataChanged (previous : Option ConversationRow) (doc : JsonObject) : Bool :=
  match previous with
  | none => true
  | some row =>
    columnDiffers (doc.get? "harness") row.harness
      || columnDiffers (doc.get? "state") row.liveState || row.status != "in_progress"

/-- Reconcile a freshly parsed document; its own user segments are stripped. -/
def projectParsedDocWithChanges [PyRepr] [RealText] (doc : JsonObject)
    (receivedAt : Option String) (now : String)
    : ConversationSql (TranscriptDoc × List ConversationBlockChange) := do
  let segments ← fromExcept (iterItems ((doc.get? "segments").getD (.arr .nil)))
  let nonUser := segments.filter (fun seg => !isUserSegment seg)
  let before ← get
  let harness ← fromExcept (bindText (doc.get? "harness"))
  let liveState ← fromExcept (bindText (doc.get? "state"))
  modify (upsertConversation agentId harness liveState)
  let changes ← mergeNonUserSegmentsWithChanges nonUser receivedAt now
  let reordered ← restoreParsedTurnOrder segments
  let changes := changes.map (repositioned reordered)
  let after ← get
  let merged := readConversationDoc after
  modify (replaceAgentMessages (docToFlatTurns merged) (stamp receivedAt now))
  if changes ≠ [] ∨ metadataChanged before.row doc ∨ reordered ≠ [] then
    modify invalidateConversations
    pure (merged, changes)
  else
    pure (merged, changes)

/-- The calls that write a conversation's blocks, with their clock reading. -/
inductive ConversationOp
  | appendUserMessage (agentId text : String) (clientMessageId receivedAt : Option String)
    (now : String)
  | appendNotice (agentId message severity : String) (receivedAt : Option String)
    (now : String)
  | projectParsedDoc (agentId : String) (doc : JsonObject) (receivedAt : Option String)
    (now : String)

/-- Run a call; whether it returns or raises, its committed statements stay. -/
def ConversationOp.exec [PyRepr] [RealText] : ConversationOp → ConversationSql Unit
  | .appendUserMessage agentId text clientMessageId receivedAt now => do
      let _ ← Conversations.appendUserMessage agentId text clientMessageId receivedAt now
  | .appendNotice agentId message severity receivedAt now => do
      let _ ← Conversations.appendNotice agentId message severity receivedAt now
  | .projectParsedDoc agentId doc receivedAt now => do
      let _ ← projectParsedDocWithChanges agentId doc receivedAt now

/-- One call on the conversation. -/
inductive ConversationStep [PyRepr] [RealText]
    : Conversation → ConversationOp → Conversation → Prop
  | call (state op) : ConversationStep state op (final (op.exec state))

def EmptyConversation : Prop :=
  state.blocks.rows = []

end Murder.Conversations

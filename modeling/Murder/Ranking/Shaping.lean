import Mathlib.Data.List.Infix
import Murder.Evidence.Rendering

/-! Ranked candidates shaped into exact line ranges.
Units stay whole when they fit, lexical hits get windows, and files are never taken whole by
default.
-/

namespace Murder.Ranking

open Evidence

inductive CandidateKind
  | file
  | semanticUnit
  | exactRange
  | relationshipNeighbor
  | test
  | diffPath
  | other
deriving DecidableEq

/-- The metadata that shaping reads; a line is `none` unless it is an integer. -/
structure CandidateMetadata where
  matchLine : Option Int := none
  matchStartLine : Option Int := none
  hitLine : Option Int := none
  relStartLine : Option Int := none
  relEndLine : Option Int := none
  relationKind : String := ""
  owningComponentPath : String := ""

structure Candidate where
  path : String
  unitVersionId : Option Int
  startLine : Option Int
  endLine : Option Int
  kind : CandidateKind
  reasons : List String
  provider : String
  metadata : CandidateMetadata

structure ScoredCandidate (Score : Type) where
  candidate : Candidate
  score : Score
  reasons : List String
  category : EvidenceCategory

/-- A semantic unit of the snapshot. -/
structure SemanticUnit where
  unitVersionId : Int
  startLine : Int
  endLine : Int
  parentUnitId : Option Int
  exported : Bool

/-- The budgets; `strongScore` is the threshold of strong relevance. -/
structure ProfileWeights (Score : Type) where
  maxRangeProposals : Int
  maxCandidatesPerFile : Int
  unitTokenCap : Int
  strongScore : Score

/-- `_ShapedRange`, and `RangeProposal` with the same fields. -/
structure ShapedRange (Score : Type) where
  path : String
  lineRange : LineRange
  unitVersionId : Option Int
  category : EvidenceCategory
  score : Score
  reasons : List String
  estimatedTokens : Int

/-- The worktree, the index of the snapshot and the token counter of a shaper. -/
class ShapingSource where
  files : String → Option String
  /-- `list_semantic_units_by_path` -/
  units : String → List SemanticUnit
  isTestPath : String → Bool
  countTokens : String → Int

def lexicalContextBefore : Int := 5

def lexicalContextAfter : Int := 10

def lexicalWindowMergeGap : Nat := 8

def lexicalWindowMergeMaxLines : Nat := 40

def callSiteContextBefore : Int := 3

def callSiteContextAfter : Int := 5

def smallFileLineThreshold : Nat := 40

section Shaper

variable [ShapingSource]

def findUnitContainingLine (path : String) (line : Int) : Option SemanticUnit :=
  if line < 1 then
    none
  else
    let containing := (ShapingSource.units path).filter (fun unit =>
      decide (unit.startLine ≤ line ∧ line ≤ unit.endLine))
    (containing.insertionSort (fun left right =>
      toLex (left.endLine - left.startLine, toLex (left.startLine, left.unitVersionId))
        ≤ toLex (right.endLine - right.startLine,
          toLex (right.startLine, right.unitVersionId)))).head?

def topLevelUnitsForPath (path : String) : List SemanticUnit :=
  ((ShapingSource.units path).filter (·.parentUnitId.isNone)).insertionSort (fun left right =>
    toLex (left.startLine, left.unitVersionId) ≤ toLex (right.startLine, right.unitVersionId))

/-- `units[:count]` -/
def firstUnits (units : List SemanticUnit) (count : Int) : List SemanticUnit :=
  units.take (if 0 ≤ count then count else units.length + count).toNat

/-- `LineRange(start, stop)` -/
def makeRange (start stop : Int) : Option LineRange :=
  if valid : 0 < start ∧ start ≤ stop then
    some ⟨start.toNat, stop.toNat, by omega, by omega⟩
  else
    none

def lineCount (path : String) : Option Nat := (ShapingSource.files path).map countSourceLines

def clampTo (path : String) (range : LineRange) : Option LineRange := do
  let count ← lineCount path
  (clampRange range count).toOption

def estimate (path : String) (range : LineRange) : Option Int := do
  let text ← ShapingSource.files path
  match extractSourceSlice text range with
  | .ok slice => return ShapingSource.countTokens slice
  | .error _ =>
    let clamped ← clampTo path range
    let slice ← (extractSourceSlice text clamped).toOption
    return ShapingSource.countTokens slice

variable {Score : Type}

/-- A range of the candidate's file under its reasons, without repeated ones. -/
def shapedAt (item : ScoredCandidate Score) (range : LineRange) (unitVersionId : Option Int)
    (tags : List String)
    : Option (ShapedRange Score) := do
  let tokens ← estimate item.candidate.path range
  return {
    path := item.candidate.path
    lineRange := range
    unitVersionId := unitVersionId
    category := item.category
    score := item.score
    reasons := (item.reasons ++ tags).eraseDups
    estimatedTokens := tokens }

def matchLine (candidate : Candidate) : Option Int :=
  let data := candidate.metadata
  match [data.matchLine, data.matchStartLine, data.hitLine, data.relStartLine].filterMap
    (fun line => line.filter (fun line => decide (0 < line))) with
  | line :: _ => some line
  | [] =>
    if candidate.kind = .exactRange then
      candidate.startLine.filter (fun line => decide (line ≠ 0))
    else
      none

def windowAround (item : ScoredCandidate Score) (line before after : Int) (shapeTag : String)
    (unitVersionId : Option Int) (extraReasons : List String)
    : Option (ShapedRange Score) := do
  let wide ← makeRange (max 1 (line - before)) (line + after)
  let range ← clampTo item.candidate.path wide
  shapedAt item range unitVersionId (extraReasons ++ [shapeTag])

def emitUnitOrFocus (weights : ProfileWeights Score) (item : ScoredCandidate Score)
    (start stop : Int) (shapeTag : String) (extraReasons : List String)
    : Option (List (ShapedRange Score)) := do
  let whole ← makeRange start stop
  let range ← clampTo item.candidate.path whole
  let tokens ← estimate item.candidate.path range
  let unitVersionId := item.candidate.unitVersionId
  if weights.unitTokenCap < tokens then
    match matchLine item.candidate with
    | some line =>
      let focused ← windowAround item line lexicalContextBefore lexicalContextAfter
        "shape:oversized_unit_focus" unitVersionId (extraReasons ++ ["oversized_unit"])
      return [focused]
    | none =>
      let kept ← shapedAt item range unitVersionId
        (extraReasons ++ [shapeTag, "oversized_unit", "shape:oversized_kept"])
      return [kept]
  else
    let unit ← shapedAt item range unitVersionId (extraReasons ++ [shapeTag])
    return [unit]

def ScoredCandidate.atUnit (item : ScoredCandidate Score) (unit : SemanticUnit)
    (kind : CandidateKind) (category : EvidenceCategory)
    : ScoredCandidate Score :=
  { item with
    candidate := { item.candidate with
      unitVersionId := some unit.unitVersionId
      startLine := some unit.startLine
      endLine := some unit.endLine
      kind := kind }
    category := category }

def shapeExactHint (item : ScoredCandidate Score) (start stop : Int)
    : Option (List (ShapedRange Score)) := do
  let whole ← makeRange start stop
  let range ← clampTo item.candidate.path whole
  let hint ← shapedAt item range item.candidate.unitVersionId ["shape:exact_hint"]
  return [hint]

def shapeTest (weights : ProfileWeights Score) (item : ScoredCandidate Score)
    : Option (List (ShapedRange Score)) :=
  match item.candidate.startLine, item.candidate.endLine with
  | some start, some stop => emitUnitOrFocus weights item start stop "shape:focused_test" []
  | _, _ => some []

def shapeUnits (weights : ProfileWeights Score) (shapeTag : String)
    (items : List (ScoredCandidate Score × SemanticUnit))
    : Option (List (ShapedRange Score)) := do
  let shaped ← items.mapM (fun (item, unit) =>
    emitUnitOrFocus weights item unit.startLine unit.endLine shapeTag [])
  return shaped.flatten

def shapeFile (weights : ProfileWeights Score) [LE Score] [DecidableLE Score]
    (item : ScoredCandidate Score)
    : Option (List (ShapedRange Score)) := do
  let path := item.candidate.path
  let count ← lineCount path
  let tops := topLevelUnitsForPath path
  let exported := tops.filter (·.exported)
  let preferred := if exported = [] then tops else exported
  let shaped ← shapeUnits weights "shape:file_top_unit"
    ((firstUnits preferred weights.maxCandidatesPerFile).map (fun unit =>
      (item.atUnit unit .semanticUnit (if unit.exported then .contract else item.category), unit)))
  if shaped ≠ [] then
    return shaped
  else
    let strong := weights.strongScore ≤ item.score
      ∨ ∃ reason ∈ item.reasons, reason.startsWith "signal:exact_hint"
    if count ≤ smallFileLineThreshold ∧ strong then
      let range ← makeRange 1 count
      let whole ← shapedAt item range none ["shape:small_file"]
      return [whole]
    else
      let stop := min (count : Int) (lexicalContextBefore + lexicalContextAfter + 1)
      if stop < 1 then
        return []
      else
        let range ← makeRange 1 stop
        let head ← shapedAt item range none ["shape:file_head_window"]
        return [head]

def shapeSemantic (weights : ProfileWeights Score) (item : ScoredCandidate Score)
    : Option (List (ShapedRange Score)) :=
  let c := item.candidate
  match c.startLine, c.endLine, matchLine c, c.unitVersionId with
  | some start, some stop, some line, some unitVersionId => do
      let whole ← makeRange start stop
      let unitTokens ← estimate c.path whole
      if unitTokens ≤ weights.unitTokenCap then
        emitUnitOrFocus weights item start stop "shape:lexical_in_unit" []
      else
        let focused ← windowAround item line lexicalContextBefore lexicalContextAfter
          "shape:oversized_unit_focus" (some unitVersionId) []
        return [focused]
  | some start, some stop, _, _ => emitUnitOrFocus weights item start stop "shape:semantic_unit" []
  | _, _, _, some unitVersionId =>
    match (ShapingSource.units c.path).find? (·.unitVersionId == unitVersionId) with
    | some unit =>
      emitUnitOrFocus weights (item.atUnit unit c.kind item.category) unit.startLine
        unit.endLine "shape:semantic_unit" []
    | none => some []
  | _, _, _, none => some []

def shapeLexicalOrRange (weights : ProfileWeights Score) (item : ScoredCandidate Score)
    (matchLine : Int)
    : Option (List (ShapedRange Score)) :=
  match findUnitContainingLine item.candidate.path matchLine with
  | some unit => do
      let unitRange ← makeRange unit.startLine unit.endLine
      let unitTokens ← estimate item.candidate.path unitRange
      if unitTokens ≤ weights.unitTokenCap then
        emitUnitOrFocus weights (item.atUnit unit .semanticUnit item.category) unit.startLine
          unit.endLine "shape:lexical_in_unit" []
      else
        let focused ← windowAround item matchLine lexicalContextBefore lexicalContextAfter
          "shape:oversized_unit_focus" (some unit.unitVersionId) []
        return [focused]
  | none => do
      let window ← windowAround item matchLine lexicalContextBefore lexicalContextAfter
        "shape:lexical_window" none []
      return [window]

/-- The relationship's lines with some context, or a window around their anchor. -/
def shapeCallSiteWindow (item : ScoredCandidate Score) : Option (List (ShapedRange Score)) :=
  let c := item.candidate
  match c.metadata.relStartLine, c.metadata.relEndLine, c.startLine with
  | some relStart, some relEnd, _ => do
      let wide ← makeRange (max 1 (relStart - callSiteContextBefore))
        (relEnd + callSiteContextAfter)
      let range ← clampTo c.path wide
      let window ← shapedAt item range c.unitVersionId ["shape:call_site_window"]
      return [window]
  | some anchor, none, _ | none, _, some anchor => do
      let window ← windowAround item anchor callSiteContextBefore callSiteContextAfter
        "shape:call_site_window" c.unitVersionId []
      return [window]
  | none, _, none => some []

def shapeCallSite (weights : ProfileWeights Score) (item : ScoredCandidate Score)
    : Option (List (ShapedRange Score)) :=
  match item.candidate.startLine, item.candidate.endLine with
  | some start, some stop => do
      let whole ← makeRange start stop
      let tokens ← estimate item.candidate.path whole
      if tokens ≤ weights.unitTokenCap then
        emitUnitOrFocus weights item start stop "shape:call_site_unit" []
      else
        shapeCallSiteWindow item
  | _, _ => shapeCallSiteWindow item

/-- A template or style of a component. -/
def shapeResource (weights : ProfileWeights Score) (item : ScoredCandidate Score)
    (extraReasons : List String)
    : Option (List (ShapedRange Score)) :=
  let c := item.candidate
  match c.startLine, c.endLine with
  | some start, some stop =>
    emitUnitOrFocus weights item start stop "shape:framework_resource" extraReasons
  | _, _ => do
      let count ← lineCount c.path
      if count ≤ smallFileLineThreshold then
        let range ← makeRange 1 count
        let whole ← shapedAt item range c.unitVersionId
          (extraReasons ++ ["shape:framework_resource"])
        return [whole]
      else
        match topLevelUnitsForPath c.path with
        | unit :: _ =>
          emitUnitOrFocus weights (item.atUnit unit .semanticUnit item.category)
            unit.startLine unit.endLine "shape:framework_resource" extraReasons
        | [] =>
          let stop := min (count : Int) (lexicalContextBefore + lexicalContextAfter + 1)
          let range ← makeRange 1 (max 1 stop)
          let head ← shapedAt item range none (extraReasons ++ ["shape:framework_resource"])
          return [head]

def shapeRelationship (weights : ProfileWeights Score) [LE Score] [DecidableLE Score]
    (item : ScoredCandidate Score)
    : Option (List (ShapedRange Score)) :=
  let c := item.candidate
  let relKind := c.metadata.relationKind
  let owning := c.metadata.owningComponentPath
  let extraReasons := if owning = "" then [] else ["owning_component:" ++ owning]
  if relKind = "template_of" ∨ relKind = "style_of" ∨ relKind.startsWith "resource:" then
    shapeResource weights item extraReasons
  else if relKind = "calls" ∨ "calls".toList <:+: (String.join c.reasons).toList then
    shapeCallSite weights item
  else
    match c.startLine, c.endLine with
    | some start, some stop =>
      emitUnitOrFocus weights item start stop "shape:relationship_neighbor" extraReasons
    | _, _ => shapeFile weights item

/-- The focused functions of a test file; an inner `none` leaves the candidate to its kind. -/
def shapeTestFile (weights : ProfileWeights Score) (item : ScoredCandidate Score)
    : Option (Option (List (ShapedRange Score))) :=
  let c := item.candidate
  let functions := do
    let shaped ← shapeUnits weights "shape:focused_test"
      ((firstUnits (topLevelUnitsForPath c.path) weights.maxCandidatesPerFile).map (fun unit =>
        (item.atUnit unit .test .test, unit)))
    return if shaped = [] then none else some shaped
  match c.unitVersionId, c.startLine with
  | some _, some _ => (shapeTest weights item).map some
  | none, some line =>
    match findUnitContainingLine c.path line with
    | some unit => (shapeTest weights (item.atUnit unit .test .test)).map some
    | none => functions
  | _, none => functions

/-- What no `except` of the shaper catches. -/
inductive ShapingError
  | missingLines (path : String)
  | unread (path : String)
deriving DecidableEq

section Kinds

variable [LE Score] [DecidableLE Score]

def shapeKind (weights : ProfileWeights Score) (item : ScoredCandidate Score)
    : Except ShapingError (Option (List (ShapedRange Score))) :=
  let c := item.candidate
  if c.kind = .exactRange
      ∨ c.provider = "exact_hints" ∧ c.startLine.isSome ∧ c.endLine.isSome
        ∧ c.kind ≠ .semanticUnit ∧ c.kind ≠ .test then
    match c.startLine, c.endLine with
    | some start, some stop => .ok (shapeExactHint item start stop)
    | _, _ => .error (.missingLines c.path)
  else
    .ok (match c.kind, c.startLine, c.endLine with
      | .test, _, _ => shapeTest weights item
      | .file, _, _ | .diffPath, none, _ => shapeFile weights item
      | .relationshipNeighbor, _, _ => shapeRelationship weights item
      | .semanticUnit, _, _ | .diffPath, some _, _ => shapeSemantic weights item
      | _, some start, some _ => shapeLexicalOrRange weights item start
      | _, _, _ => shapeFile weights item)

def shapeOne (weights : ProfileWeights Score) (item : ScoredCandidate Score)
    : Except ShapingError (List (ShapedRange Score)) :=
  let inTest :=
    if ShapingSource.isTestPath item.candidate.path then shapeTestFile weights item else some none
  match inTest with
  | none => .ok []
  | some (some shaped) => .ok shaped
  | some none => (shapeKind weights item).map (·.getD [])

end Kinds

end Shaper

section Windows

variable [ShapingSource] {Score : Type} [LinearOrder Score]

def ShapedRange.join (previous window : ShapedRange Score) (range : LineRange)
    : ShapedRange Score :=
  { previous with
    lineRange := range
    unitVersionId := none
    score := max previous.score window.score
    reasons := (previous.reasons ++ window.reasons ++ ["shape:merged_windows"]).eraseDups }

/-- Windows in the order of their starts, each merged into the one before where it is near
enough or overlaps.
-/
def mergeOrdered (previous : ShapedRange Score) : List (ShapedRange Score)
    → List (ShapedRange Score)
  | [] => [previous]
  | window :: rest =>
    let last := previous.lineRange
    let next := window.lineRange
    if near : last.stop < next.start ∧ next.start - last.stop ≤ lexicalWindowMergeGap
        ∧ next.stop - last.start + 1 ≤ lexicalWindowMergeMaxLines then
      mergeOrdered (previous.join window ⟨last.start, next.stop, last.positive,
        (last.ordered.trans near.1.le).trans next.ordered⟩) rest
    else if next.start ≤ last.stop + 1 then
      mergeOrdered (previous.join window ((normalizeRanges [last, next]).headD last)) rest
    else
      previous :: mergeOrdered { window with unitVersionId := none } rest

/-- The order of `(start_line, -score)`. -/
def ShapedRange.Before (left right : ShapedRange Score) : Prop :=
  left.lineRange.start < right.lineRange.start
  ∨ left.lineRange.start = right.lineRange.start ∧ right.score ≤ left.score

instance : DecidableRel (@ShapedRange.Before Score _) :=
  fun _ _ => inferInstanceAs (Decidable (_ ∨ _))

def mergeLexicalWindows (windows : List (ShapedRange Score))
    : Except ShapingError (List (ShapedRange Score)) :=
  match windows.insertionSort ShapedRange.Before with
  | [] => .ok []
  | first :: rest =>
    (mergeOrdered { first with unitVersionId := none } rest).mapM (fun merged =>
      match estimate merged.path merged.lineRange with
      | some tokens => .ok { merged with estimatedTokens := tokens }
      | none => .error (.unread merged.path))

structure ShapeState (Score : Type) where
  accepted : List (ShapedRange Score) := []
  perFile : String → Int := fun _ => 0
  totalTokens : Int := 0
  truncated : Bool := false
  pendingLexical : List (ShapedRange Score) := []

namespace ShapeState

def truncate (state : ShapeState Score) : ShapeState Score := { state with truncated := true }

def accept (state : ShapeState Score) (shaped : ShapedRange Score) : ShapeState Score :=
  { state with
    accepted := state.accepted ++ [shaped]
    perFile := Function.update state.perFile shaped.path (state.perFile shaped.path + 1)
    totalTokens := state.totalTokens + shaped.estimatedTokens }

end ShapeState

variable (weights : ProfileWeights Score) (tokenCeiling : Int)

def acceptShaped : List (ShapedRange Score) → ShapeState Score → ShapeState Score
  | [], state => state
  | shaped :: rest, state =>
    if "shape:lexical_window" ∈ shaped.reasons then
      acceptShaped rest { state with pendingLexical := state.pendingLexical ++ [shaped] }
    else if tokenCeiling < state.totalTokens + shaped.estimatedTokens then
      acceptShaped rest state.truncate
    else if weights.maxCandidatesPerFile ≤ state.perFile shaped.path then
      acceptShaped rest state.truncate
    else if weights.maxRangeProposals ≤ state.accepted.length then
      state.truncate
    else
      acceptShaped rest (state.accept shaped)

def shapeCandidates : List (ScoredCandidate Score) → ShapeState Score
    → Except ShapingError (ShapeState Score)
  | [], state => .ok state
  | item :: rest, state =>
    if weights.maxRangeProposals ≤ state.accepted.length then
      .ok state.truncate
    else if weights.maxCandidatesPerFile ≤ state.perFile item.candidate.path then
      shapeCandidates rest state.truncate
    else do
      let shaped ← shapeOne weights item
      shapeCandidates rest (acceptShaped weights tokenCeiling shaped state)

def acceptWindows : List (ShapedRange Score) → ShapeState Score → ShapeState Score
  | [], state => state
  | shaped :: rest, state =>
    if weights.maxRangeProposals ≤ state.accepted.length then
      state.truncate
    else if weights.maxCandidatesPerFile ≤ state.perFile shaped.path then
      acceptWindows rest state.truncate
    else if tokenCeiling < state.totalTokens + shaped.estimatedTokens then
      acceptWindows rest state.truncate
    else
      acceptWindows rest (state.accept shaped)

/-- The pending windows file by file. -/
def emitLexical (state : ShapeState Score) : Except ShapingError (ShapeState Score) :=
  (sortedPaths (state.pendingLexical.map (·.path))).foldlM (fun state' path => do
    let merged ← mergeLexicalWindows (state.pendingLexical.filter (·.path = path))
    return acceptWindows weights tokenCeiling merged state') state

/-- `RangeShaper.shape`: the proposals, their tokens, and whether something was left out. -/
def shape (scored : List (ScoredCandidate Score))
    : Except ShapingError (List (ShapedRange Score) × Int × Bool) := do
  let shaped ← shapeCandidates weights tokenCeiling scored {}
  let state ← emitLexical weights tokenCeiling shaped
  return (state.accepted, state.totalTokens, state.truncated)

end Windows

end Murder.Ranking

import Murder.Ranking.Shaping

/-! Grades of a model validated against the proposal they grade.
The category of a grade picks the shape of its range; ceilings, the order and what becomes of
exact hints are the code's own.
-/

namespace Murder.Grading

open Evidence Ranking

inductive RecipientProfile
  | compact
  | implementation
  | planning
deriving DecidableEq

/-- The weights that grading reads. -/
structure GradingWeights (Score : Type) extends ProfileWeights Score where
  maxEstimatedTokens : Int

structure RankingPolicy (Score : Type) where
  compact : GradingWeights Score
  implementation : GradingWeights Score
  planning : GradingWeights Score

def RankingPolicy.forProfile {Score : Type} (policy : RankingPolicy Score)
    : RecipientProfile → GradingWeights Score
  | .compact => policy.compact
  | .planning => policy.planning
  | .implementation => policy.implementation

/-- The fields of a request that grading reads. -/
structure ContextRequest where
  recipientProfile : RecipientProfile
  maxTokens : Option Int := none

def tokenCeiling {Score : Type} (weights : GradingWeights Score) (request : ContextRequest) : Int :=
  match request.maxTokens with
  | some maxTokens => min weights.maxEstimatedTokens maxTokens
  | none => weights.maxEstimatedTokens

inductive ReasonCode
  | likelyEditTarget
  | requiredContract
  | directCaller
  | directCallee
  | focusedTest
  | nonlocalConsequence
  | frameworkResource
  | configurationOwner
  | taskIrrelevant
  | duplicateInformation
  | tooWeak
  | oversizedLowValue
deriving DecidableEq

structure Grade where
  proposalIndex : Int
  included : Bool
  category : EvidenceCategory
  reasonCode : ReasonCode
deriving DecidableEq

/-- `EvidenceCategory.value` -/
def categoryValue : EvidenceCategory → String
  | .editTarget => "edit_target"
  | .contract => "contract"
  | .supportingContext => "supporting_context"
  | .test => "test"
  | .verification => "verification"
  | .currentDiff => "current_diff"
  | .other => "other"

def exactHintReasonMarkers : List String :=
  ["shape:exact_hint", "signal:exact_hint", "exact_path", "exact_symbol", "exact_range"]

def isExactHintProposal {Score : Type} (proposal : ShapedRange Score) : Bool :=
  proposal.reasons.any (fun reason =>
    exactHintReasonMarkers.any (fun marker => marker.toList.isPrefixOf reason.toList)
      || exactHintReasonMarkers.contains reason
      || decide ("exact_hint".toList <:+: reason.toList))

/-- What reshaping reads; token counts are not negative, and the table of unit versions checks
its lines.
-/
class GradingSource extends ShapingSource where
  /-- `get_semantic_unit_version` -/
  unitVersion : Int → Option SemanticUnit
  counted : ∀ text, 0 ≤ countTokens text
  stored : ∀ unitVersionId unit, unitVersion unitVersionId = some unit
    → 0 < unit.startLine ∧ unit.startLine ≤ unit.endLine
  storedAt : ∀ path, ∀ unit ∈ units path, 0 < unit.startLine ∧ unit.startLine ≤ unit.endLine

section Validation

variable [GradingSource] {Score : Type}

def containingUnit (proposal : ShapedRange Score) : Option SemanticUnit :=
  match proposal.unitVersionId.bind GradingSource.unitVersion with
  | some unit => some unit
  | none => findUnitContainingLine proposal.path proposal.lineRange.start

/-- `_containing_unit_for_proposal`; the checked lines of a stored unit make a range. -/
def containingUnitForProposal (proposal : ShapedRange Score)
    : Option (LineRange × Option Int) := do
  let unit ← containingUnit proposal
  let range ← makeRange unit.startLine unit.endLine
  return (range, some unit.unitVersionId)

/-- A range within its file with the tokens of its slice; `none` is an exception that is caught. -/
def measure (path : String) (range : LineRange) : Option (LineRange × Int) := do
  let text ← ShapingSource.files path
  let clamped ← (clampRange range (countSourceLines text)).toOption
  let slice ← (extractSourceSlice text clamped).toOption
  return (clamped, ShapingSource.countTokens slice)

def retagProposal (proposal : ShapedRange Score) (category : EvidenceCategory) (tag : String)
    : ShapedRange Score :=
  { proposal with
    category := category
    reasons := (proposal.reasons ++ [tag]).eraseDups }

def emitCategoryUnit (unitTokenCap : Int) (proposal : ShapedRange Score)
    (unitRange : LineRange × Option Int) (category : EvidenceCategory) (tag : String)
    : Option (ShapedRange Score) := do
  let (range, tokens) ← measure proposal.path unitRange.1
  let whole : ShapedRange Score :=
    { proposal with
      lineRange := range
      unitVersionId := unitRange.2
      category := category
      reasons := (proposal.reasons ++ [tag]).eraseDups
      estimatedTokens := tokens }
  if unitTokenCap < tokens then
    match measure proposal.path proposal.lineRange with
    | some (focus, tokens) =>
      return { whole with
        lineRange := focus
        reasons := (whole.reasons ++ ["shape:grade_oversized_focus"]).eraseDups
        estimatedTokens := tokens }
    | none => return whole
  else
    return whole

def reshapeProposalByCategory (unitTokenCap : Int) (proposal : ShapedRange Score)
    (category : EvidenceCategory)
    : Option (ShapedRange Score) := do
  let _ ← ShapingSource.files proposal.path
  if category = .test ∨ ShapingSource.isTestPath proposal.path then
    match containingUnitForProposal proposal with
    | none => return retagProposal proposal .test "shape:grade_test_keep"
    | some unitRange =>
      emitCategoryUnit unitTokenCap proposal unitRange .test "shape:grade_focused_test"
  else if category = .editTarget ∨ category = .contract then
    match containingUnitForProposal proposal with
    | none => return retagProposal proposal category "shape:grade_keep_proposed"
    | some unitRange =>
      emitCategoryUnit unitTokenCap proposal unitRange category "shape:grade_containing_unit"
  else
    return retagProposal proposal category "shape:grade_proposed_range"

/-- The reshaped range, checked and counted again against its source. -/
def gradedShape (unitTokenCap : Int) (proposal : ShapedRange Score) (category : EvidenceCategory)
    : Option (ShapedRange Score) := do
  let shaped ← reshapeProposalByCategory unitTokenCap proposal category
  let (range, tokens) ← measure shaped.path shaped.lineRange
  return { shaped with lineRange := range, estimatedTokens := tokens }

/-- A selected range with its score and grade, and the index it was proposed at. -/
structure SelectedRange (Score : Type) where
  index : Nat
  score : Score
  shaped : ShapedRange Score
  graded : Option Grade

def gradesByIndex (count : Nat) (grades : List Grade) : Nat → Option Grade :=
  grades.foldl (fun byIndex rawGrade =>
    if rawGrade.proposalIndex < 0 ∨ (count : Int) ≤ rawGrade.proposalIndex then
      byIndex
    else
      Function.update byIndex rawGrade.proposalIndex.toNat (some rawGrade)) (fun _ => none)

def gradedCategory (byIndex : Nat → Option Grade) (index : Nat) (proposal : ShapedRange Score)
    : EvidenceCategory :=
  match byIndex index with
  | some graded => graded.category
  | none => proposal.category

def isIncluded (byIndex : Nat → Option Grade) (index : Nat) (proposal : ShapedRange Score)
    : Bool :=
  isExactHintProposal proposal || (byIndex index).any (·.included)

variable (weights : GradingWeights Score)

/-- A range of the proposal as it is selected; `perFile` is the counter of the files. -/
def selectRange (byIndex : Nat → Option Grade) (perFile : String → Int) (index : Nat)
    (proposal : ShapedRange Score)
    : Option (SelectedRange Score) := do
  if isIncluded byIndex index proposal then
    let shaped ← gradedShape weights.unitTokenCap proposal (gradedCategory byIndex index proposal)
    if weights.maxCandidatesPerFile ≤ perFile shaped.path then
      none
    else
      return ⟨index, proposal.score, shaped, byIndex index⟩
  else
    none

def selectRanges (byIndex : Nat → Option Grade) (perFile : String → Int)
    (ranges : List (ShapedRange Score))
    : List (SelectedRange Score) :=
  ranges.zipIdx.filterMap (fun (proposal, index) =>
    selectRange weights byIndex perFile index proposal)

/-- The key of the order: the highest score first, then category, path and lines. -/
def SelectedRange.key (item : SelectedRange Score)
    : Scoreᵒᵈ ×ₗ (String ×ₗ (String ×ₗ (Nat ×ₗ (Nat ×ₗ Int)))) :=
  toLex (OrderDual.toDual item.score, toLex (categoryValue item.shaped.category,
    toLex (item.shaped.path, toLex (item.shaped.lineRange.start,
      toLex (item.shaped.lineRange.stop, item.shaped.unitVersionId.getD (-1))))))

/-- What the loop over the ceilings carries. -/
structure CeilingState (Score : Type) where
  kept : List (SelectedRange Score) := []
  perFile : String → Int := fun _ => 0
  total : Int := 0

def keepWithin (ceiling : Int) (state : CeilingState Score) (item : SelectedRange Score)
    : CeilingState Score :=
  if weights.maxRangeProposals ≤ state.kept.length then
    state
  else if ceiling < state.total + item.shaped.estimatedTokens then
    state
  else
    { kept := state.kept ++ [item]
      perFile := Function.update state.perFile item.shaped.path
        (state.perFile item.shaped.path + 1)
      total := state.total + item.shaped.estimatedTokens }

def applyCeilings (ceiling : Int) (selected : List (SelectedRange Score)) : CeilingState Score :=
  selected.foldl (keepWithin weights ceiling) {}

variable [LinearOrder Score]

def sortSelected (selected : List (SelectedRange Score)) : List (SelectedRange Score) :=
  selected.insertionSort (fun left right => left.key ≤ right.key)

/-- The ranges that were selected, in the order in which the ceilings see them. -/
def orderedSelection (ranges : List (ShapedRange Score)) (grades : List Grade)
    : List (SelectedRange Score) :=
  sortSelected (selectRanges weights (gradesByIndex ranges.length grades) (fun _ => 0) ranges)

def postValidateGrades (policy : RankingPolicy Score) (request : ContextRequest)
    (ranges : List (ShapedRange Score)) (grades : List Grade)
    : List (ShapedRange Score) × List Grade × Int :=
  let weights := policy.forProfile request.recipientProfile
  let selected :=
    selectRanges weights (gradesByIndex ranges.length grades) (fun _ => 0) ranges
  let applied := (selected.filterMap (·.graded)).insertionSort (fun left right =>
    left.proposalIndex ≤ right.proposalIndex)
  let state := applyCeilings weights (tokenCeiling weights request) (sortSelected selected)
  (state.kept.map (·.shaped), applied, state.total)

end Validation

end Murder.Grading

import Murder.Grading.Validation
import Murder.Library.Greedy
import Murder.Ranking.Budgets

/-! When validated grades keep the profile's ceilings.
The counter of the files is raised where ranges are kept and only read where they are selected,
so nothing bounds the ranges of one file.
-/

namespace Murder.Grading

open Evidence Ranking Library

def LastGrade (grades : List Grade) (index : Nat) (grade : Grade) : Prop :=
  ∃ before after, grades = before ++ grade :: after ∧ grade.proposalIndex = index
    ∧ ∀ later ∈ after, later.proposalIndex ≠ index

variable {grades : List Grade}

theorem lastGrade_concat {last grade : Grade} {index : Nat}
    : LastGrade (grades ++ [last]) index grade
      ↔ if last.proposalIndex = index then grade = last else LastGrade grades index grade := by
  by_cases own : last.proposalIndex = index
  · rw [if_pos own]
    constructor
    · intro ends
      obtain ⟨before, after, same, -, others⟩ := ends
      rcases List.eq_nil_or_concat after with none_ | some_
      · subst none_
        exact (List.cons.inj (List.append_inj_right' same rfl)).1.symm
      · obtain ⟨rest, final, some_⟩ := some_
        rw [List.concat_eq_append] at some_
        subst some_
        rw [← List.cons_append, ← List.append_assoc] at same
        have equal := (List.cons.inj (List.append_inj_right' same rfl)).1
        subst equal
        exact absurd own (others _ (List.mem_append_right _ (List.mem_singleton.mpr rfl)))
    · intro equal
      subst equal
      exact ⟨grades, [], rfl, own, fun _ member => absurd member List.not_mem_nil⟩
  · rw [if_neg own]
    constructor
    · intro ends
      obtain ⟨before, after, same, placed, others⟩ := ends
      rcases List.eq_nil_or_concat after with none_ | some_
      · subst none_
        have equal := (List.cons.inj (List.append_inj_right' same rfl)).1
        exact absurd placed (equal ▸ own)
      · obtain ⟨rest, final, some_⟩ := some_
        rw [List.concat_eq_append] at some_
        subst some_
        rw [← List.cons_append, ← List.append_assoc] at same
        exact ⟨before, rest, List.append_inj_left' same rfl, placed,
          fun later member => others later (List.mem_append_left _ member)⟩
    · intro ends
      obtain ⟨before, after, same, placed, others⟩ := ends
      refine ⟨before, after ++ [last], ?_, placed, fun later member => ?_⟩
      · rw [same, List.append_assoc, List.cons_append]
      · rcases List.mem_append.mp member with early | final
        · exact others later early
        · rw [List.mem_singleton.mp final]
          exact own

theorem gradesByIndex_eq_some {count index : Nat} {grade : Grade}
    : gradesByIndex count grades index = some grade
      ↔ index < count ∧ LastGrade grades index grade := by
  induction grades using List.reverseRecOn with
  | nil =>
    refine iff_of_false (fun found => nomatch found) (fun placed => ?_)
    obtain ⟨-, before, after, same, -⟩ := placed
    exact List.append_ne_nil_of_right_ne_nil before (List.cons_ne_nil _ _) same.symm
  | append_singleton grades last ih =>
    rw [lastGrade_concat]
    have step : gradesByIndex count (grades ++ [last])
        = if last.proposalIndex < 0 ∨ (count : Int) ≤ last.proposalIndex then
            gradesByIndex count grades
          else
            Function.update (gradesByIndex count grades) last.proposalIndex.toNat (some last) :=
      List.foldl_append
    rw [step]
    by_cases skipped : last.proposalIndex < 0 ∨ (count : Int) ≤ last.proposalIndex
    · rw [if_pos skipped, ih]
      by_cases own : last.proposalIndex = index
      · refine iff_of_false (fun found => ?_) (fun found => ?_) <;> omega
      · rw [if_neg own]
    · rw [if_neg skipped]
      by_cases own : last.proposalIndex = index
      · have place : last.proposalIndex.toNat = index := by omega
        rw [if_pos own, place, Function.update_self]
        refine ⟨fun found => ⟨by omega, (Option.some.inj found).symm⟩, fun found => ?_⟩
        rw [found.2]
      · have other : index ≠ last.proposalIndex.toNat := by omega
        rw [if_neg own, Function.update_of_ne other, ih]

section Validated

variable [GradingSource] {Score : Type} {weights : GradingWeights Score} {ceiling : Int}

/-- A shaped range of the proposal that is an exact hint or whose last grade includes it. -/
def Chosen (weights : GradingWeights Score) (ranges : List (ShapedRange Score))
    (grades : List Grade) (shaped : ShapedRange Score)
    : Prop :=
  ∃ (index : Nat) (proposal : ShapedRange Score), ranges[index]? = some proposal
    ∧ (isExactHintProposal proposal
      ∨ ∃ grade, LastGrade grades index grade ∧ grade.included)
    ∧ ∃ category, gradedShape weights.unitTokenCap proposal category = some shaped

theorem selectRange_eq_some {byIndex : Nat → Option Grade} {perFile : String → Int} {index : Nat}
    {proposal : ShapedRange Score} {item : SelectedRange Score}
    : selectRange weights byIndex perFile index proposal = some item
      ↔ isIncluded byIndex index proposal
        ∧ ∃ shaped, gradedShape weights.unitTokenCap proposal
            (gradedCategory byIndex index proposal) = some shaped
          ∧ ¬ weights.maxCandidatesPerFile ≤ perFile shaped.path
          ∧ item = ⟨index, proposal.score, shaped, byIndex index⟩ := by
  unfold selectRange
  by_cases picked : isIncluded byIndex index proposal
  · rw [if_pos picked, Option.bind_eq_bind, Option.bind_eq_some_iff]
    refine ⟨fun made => ⟨picked, ?_⟩, fun made => ?_⟩
    · obtain ⟨shaped, shapes, made⟩ := made
      by_cases full : weights.maxCandidatesPerFile ≤ perFile shaped.path
      · rw [if_pos full] at made
        cases made
      · rw [if_neg full] at made
        exact ⟨shaped, shapes, full, (Option.some.inj made).symm⟩
    · obtain ⟨-, shaped, shapes, room, same⟩ := made
      refine ⟨shaped, shapes, ?_⟩
      rw [if_neg room, same]
      rfl
  · rw [if_neg picked]
    exact iff_of_false (fun made => nomatch made) (fun made => picked made.1)

theorem chosen_of_selected {ranges : List (ShapedRange Score)}
    {perFile : String → Int} {item : SelectedRange Score}
    (selected
      : item ∈ selectRanges weights (gradesByIndex ranges.length grades) perFile ranges)
    : Chosen weights ranges grades item.shaped := by
  obtain ⟨⟨proposal, index⟩, listed, made⟩ := List.mem_filterMap.mp selected
  obtain ⟨picked, shaped, shapes, -, rfl⟩ := selectRange_eq_some.mp made
  refine ⟨index, proposal, (List.mem_zipIdx_iff_getElem?).mp listed, ?_, _, shapes⟩
  rcases (Bool.or_eq_true _ _).mp picked with hint | graded
  · exact .inl hint
  · obtain ⟨grade, found, included⟩ := (Option.any_eq_true _ _).mp graded
    exact .inr ⟨grade, (gradesByIndex_eq_some.mp found).2, included⟩

theorem measure_counted {path : String} {range : LineRange}
    {measured : LineRange × Int} (measures : measure path range = some measured)
    : 0 ≤ measured.2 := by
  obtain ⟨text, -, measures⟩ := Option.bind_eq_some_iff.mp measures
  obtain ⟨clamped, -, measures⟩ := Option.bind_eq_some_iff.mp measures
  obtain ⟨slice, -, measures⟩ := Option.bind_eq_some_iff.mp measures
  cases measures
  exact GradingSource.counted slice

theorem gradedShape_counted {unitTokenCap : Int} {proposal shaped : ShapedRange Score}
    {category : EvidenceCategory}
    (shapes : gradedShape unitTokenCap proposal category = some shaped)
    : 0 ≤ shaped.estimatedTokens := by
  obtain ⟨reshaped, -, shapes⟩ := Option.bind_eq_some_iff.mp shapes
  obtain ⟨measured, measures, shapes⟩ := Option.bind_eq_some_iff.mp shapes
  cases shapes
  exact measure_counted measures

def tokensOf (items : List (SelectedRange Score)) : Int :=
  (items.map (·.shaped.estimatedTokens)).sum

def withinCeilings (weights : GradingWeights Score) (ceiling : Int)
    (items : List (SelectedRange Score))
    : Bool :=
  decide ((items.length : Int) ≤ weights.maxRangeProposals ∧ tokensOf items ≤ ceiling)

omit [GradingSource] in
theorem tokensOf_concat {items : List (SelectedRange Score)} {item : SelectedRange Score}
    : tokensOf (items ++ [item]) = tokensOf items + item.shaped.estimatedTokens := by
  simp only [tokensOf, List.map_append, List.map_cons, List.map_nil, List.sum_append,
    List.sum_cons, List.sum_nil, add_zero]

/-- The state behind some selected ranges: what is kept, counted by file and in tokens. -/
structure Kept (weights : GradingWeights Score) (ceiling : Int)
    (selected : List (SelectedRange Score)) (state : CeilingState Score) : Prop where
  kept : state.kept = Greedy.select (withinCeilings weights ceiling) selected
  total : state.total = tokensOf state.kept
  perFile : ∀ path, state.perFile path = (state.kept.countP (·.shaped.path = path) : Int)

omit [GradingSource] in
theorem keepWithin_kept {selected : List (SelectedRange Score)} {state : CeilingState Score}
    {item : SelectedRange Score} (kept : Kept weights ceiling selected state)
    : Kept weights ceiling (selected ++ [item]) (keepWithin weights ceiling state item) := by
  have fits : withinCeilings weights ceiling (state.kept ++ [item])
      ↔ ¬ weights.maxRangeProposals ≤ state.kept.length
        ∧ ¬ ceiling < state.total + item.shaped.estimatedTokens := by
    rw [withinCeilings, decide_eq_true_eq, tokensOf_concat, ← kept.total, List.length_append,
      List.length_singleton]
    omega
  unfold keepWithin
  by_cases many : weights.maxRangeProposals ≤ state.kept.length
  · rw [if_pos many]
    refine ⟨?_, kept.total, kept.perFile⟩
    rw [Greedy.select_concat, Greedy.step_of_not_allowed, kept.kept]
    rw [← kept.kept]
    exact fun room => (fits.mp room).1 many
  · rw [if_neg many]
    by_cases long : ceiling < state.total + item.shaped.estimatedTokens
    · rw [if_pos long]
      refine ⟨?_, kept.total, kept.perFile⟩
      rw [Greedy.select_concat, Greedy.step_of_not_allowed, kept.kept]
      rw [← kept.kept]
      exact fun room => (fits.mp room).2 long
    · rw [if_neg long]
      refine ⟨?_, ?_, fun path => ?_⟩
      · rw [Greedy.select_concat, Greedy.step_of_allowed, kept.kept]
        rw [← kept.kept]
        exact fits.mpr ⟨many, long⟩
      · rw [tokensOf_concat, kept.total]
      · dsimp only
        rw [List.countP_append, List.countP_singleton]
        by_cases own : item.shaped.path = path
        · rw [if_pos (decide_eq_true own), ← own, Function.update_self, kept.perFile]
          rfl
        · rw [if_neg (by simpa using own), Function.update_of_ne (Ne.symm own), kept.perFile]
          rfl

omit [GradingSource] in
/-- Induction over the selected ranges, each kept as the greedy choice keeps it. -/
theorem applyCeilings_kept (weights : GradingWeights Score) (ceiling : Int)
    (selected : List (SelectedRange Score))
    : Kept weights ceiling selected (applyCeilings weights ceiling selected) := by
  induction selected using List.reverseRecOn with
  | nil => exact ⟨rfl, rfl, fun _ => rfl⟩
  | append_singleton before item ih =>
    have step : applyCeilings weights ceiling (before ++ [item])
        = keepWithin weights ceiling (applyCeilings weights ceiling before) item :=
      List.foldl_append
    rw [step]
    exact keepWithin_kept ih

/-- What validated grades promise of the ranges and tokens they return. -/
structure MeetsCeilings (weights : GradingWeights Score) (ceiling : Int)
    (ranges : List (ShapedRange Score)) (grades : List Grade)
    (result : List (ShapedRange Score) × List Grade × Int)
    : Prop where
  count : (result.1.length : Int) ≤ weights.maxRangeProposals
  files : ∀ path, (proposalsOf path result.1 : Int) ≤ weights.maxCandidatesPerFile
  total : result.2.2 = (result.1.map (·.estimatedTokens)).sum
  tokens : result.2.2 ≤ ceiling
  chosen : ∀ shaped ∈ result.1, Chosen weights ranges grades shaped

/-- The ceilings are not negative, and no range that fits the ceilings on count and tokens meets
a file whose counter has reached its limit.
-/
structure Uncrowded (weights : GradingWeights Score) (ceiling : Int)
    (selected : List (SelectedRange Score))
    : Prop where
  count : 0 ≤ weights.maxRangeProposals
  tokens : 0 ≤ ceiling
  files : 0 ≤ weights.maxCandidatesPerFile
  room : ∀ before item after, selected = before ++ item :: after
    → (applyCeilings weights ceiling before).kept.length < weights.maxRangeProposals
    → (applyCeilings weights ceiling before).total + item.shaped.estimatedTokens ≤ ceiling
    → (applyCeilings weights ceiling before).perFile item.shaped.path
      < weights.maxCandidatesPerFile

omit [GradingSource] in
/-- A range fits behind others if and only if the loop has room for it. -/
theorem withinCeilings_select {before : List (SelectedRange Score)} {item : SelectedRange Score}
    : withinCeilings weights ceiling
        (Greedy.select (withinCeilings weights ceiling) before ++ [item])
      ↔ (applyCeilings weights ceiling before).kept.length < weights.maxRangeProposals
        ∧ (applyCeilings weights ceiling before).total + item.shaped.estimatedTokens
          ≤ ceiling := by
  have kept := applyCeilings_kept weights ceiling before
  rw [← kept.kept, kept.total, withinCeilings, decide_eq_true_eq, tokensOf_concat,
    List.length_append, List.length_singleton]
  omega

omit [GradingSource] in
theorem tokensOf_nonneg {items : List (SelectedRange Score)}
    (counted : ∀ item ∈ items, 0 ≤ item.shaped.estimatedTokens)
    : 0 ≤ tokensOf items := by
  apply List.sum_nonneg
  intro tokens member
  obtain ⟨item, listed, rfl⟩ := List.mem_map.mp member
  exact counted item listed

omit [GradingSource] in
/-- What is kept of ranges with counted tokens is within all three ceilings exactly where they are
uncrowded.
-/
theorem applyCeilings_within_iff {selected : List (SelectedRange Score)}
    (counted : ∀ item ∈ selected, 0 ≤ item.shaped.estimatedTokens)
    : (((applyCeilings weights ceiling selected).kept.length : Int) ≤ weights.maxRangeProposals
        ∧ (∀ path, ((applyCeilings weights ceiling selected).kept.countP
            (·.shaped.path = path) : Int) ≤ weights.maxCandidatesPerFile)
        ∧ (applyCeilings weights ceiling selected).total ≤ ceiling)
      ↔ Uncrowded weights ceiling selected := by
  have kept := applyCeilings_kept weights ceiling selected
  have perFile := fun before => (applyCeilings_kept weights ceiling before).perFile
  have lists := fun before => (applyCeilings_kept weights ceiling before).kept
  have files
      : 0 ≤ weights.maxCandidatesPerFile →
        ((∀ path, ((applyCeilings weights ceiling selected).kept.countP
            (·.shaped.path = path) : Int) ≤ weights.maxCandidatesPerFile)
          ↔ ∀ before item after, selected = before ++ item :: after
            → withinCeilings weights ceiling
              (Greedy.select (withinCeilings weights ceiling) before ++ [item])
            → ((Greedy.select (withinCeilings weights ceiling) before).countP
                (·.shaped.path = item.shaped.path) : Int) < weights.maxCandidatesPerFile) := by
    intro nonneg
    rw [kept.kept]
    exact Greedy.countP_select_le_iff nonneg
  constructor
  · intro within
    obtain ⟨count, bounded, tokens⟩ := within
    have least : 0 ≤ (applyCeilings weights ceiling selected).total := by
      rw [kept.total]
      refine tokensOf_nonneg (fun item member => counted item ?_)
      rw [kept.kept] at member
      exact Greedy.select_sublist.subset member
    have some_ : 0 ≤ weights.maxCandidatesPerFile := by
      have empty := bounded ""
      omega
    refine ⟨by omega, by omega, some_, fun before item after same many long => ?_⟩
    rw [perFile, lists]
    exact (files some_).mp bounded before item after same (withinCeilings_select.mpr ⟨many, long⟩)
  · intro uncrowded
    have nothing : withinCeilings weights ceiling [] := by
      rw [withinCeilings, decide_eq_true_eq]
      exact ⟨uncrowded.count, uncrowded.tokens⟩
    have within : withinCeilings weights ceiling (applyCeilings weights ceiling selected).kept := by
      rw [kept.kept]
      exact Greedy.select_allowed nothing
    rw [withinCeilings, decide_eq_true_eq] at within
    refine ⟨within.1, (files uncrowded.files).mpr (fun before item after same room => ?_), ?_⟩
    · obtain ⟨many, long⟩ := withinCeilings_select.mp room
      rw [← lists, ← perFile]
      exact uncrowded.room before item after same many long
    · rw [kept.total]
      exact within.2

variable [LinearOrder Score]

theorem mem_orderedSelection {ranges : List (ShapedRange Score)}
    {item : SelectedRange Score} (member : item ∈ orderedSelection weights ranges grades)
    : Chosen weights ranges grades item.shaped ∧ 0 ≤ item.shaped.estimatedTokens := by
  have chosen := chosen_of_selected ((List.mem_insertionSort _).mp member)
  refine ⟨chosen, ?_⟩
  obtain ⟨index, proposal, listed, picked, category, shapes⟩ := chosen
  exact gradedShape_counted shapes

/-- Validated grades meet the ceilings exactly where no range crowds a file: the ceilings on count
and tokens are checked at every range, the one on files at none.
-/
theorem postValidateGrades_meetsCeilings_iff (policy : RankingPolicy Score)
    (request : ContextRequest) (ranges : List (ShapedRange Score)) (grades : List Grade)
    : MeetsCeilings (policy.forProfile request.recipientProfile)
        (tokenCeiling (policy.forProfile request.recipientProfile) request) ranges grades
        (postValidateGrades policy request ranges grades)
      ↔ Uncrowded (policy.forProfile request.recipientProfile)
        (tokenCeiling (policy.forProfile request.recipientProfile) request)
        (orderedSelection (policy.forProfile request.recipientProfile) ranges grades) := by
  have kept := applyCeilings_kept (policy.forProfile request.recipientProfile)
    (tokenCeiling (policy.forProfile request.recipientProfile) request)
    (orderedSelection (policy.forProfile request.recipientProfile) ranges grades)
  rw [← applyCeilings_within_iff (fun item member => (mem_orderedSelection member).2)]
  constructor
  · intro meets
    refine ⟨?_, fun path => ?_, meets.tokens⟩
    · have count := meets.count
      rw [postValidateGrades, List.length_map] at count
      exact count
    · have files := meets.files path
      rw [postValidateGrades, proposalsOf, List.countP_map] at files
      exact files
  · intro within
    obtain ⟨count, files, tokens⟩ := within
    refine ⟨?_, fun path => ?_, ?_, tokens, fun shaped member => ?_⟩
    · rw [postValidateGrades, List.length_map]
      exact count
    · rw [postValidateGrades, proposalsOf, List.countP_map]
      exact files path
    · rw [postValidateGrades, List.map_map]
      exact kept.total
    · obtain ⟨item, listed, rfl⟩ := List.mem_map.mp member
      refine (mem_orderedSelection ?_).1
      exact Greedy.select_sublist.subset (kept.kept ▸ listed)

end Validated

namespace CompactProfile

/-- A worktree with one file of three lines; a token is four characters. -/
abbrev source : GradingSource where
  files := fun path => if path = "a.py" then some "a = 1\nb = 2\nc = 3\n" else none
  units := fun _ => []
  isTestPath := fun _ => false
  countTokens := fun text => (text.length / 4 : Nat)
  unitVersion := fun _ => none
  counted := fun _ => Int.natCast_nonneg _
  stored := fun _ _ found => nomatch found
  storedAt := fun _ _ member => nomatch member

def weights : GradingWeights Int where
  maxRangeProposals := 8
  maxCandidatesPerFile := 2
  unitTokenCap := 400
  strongScore := 40
  maxEstimatedTokens := 1200

def policy : RankingPolicy Int := ⟨weights, weights, weights⟩

def line (range : LineRange) (score : Int) : ShapedRange Int where
  path := "a.py"
  lineRange := range
  unitVersionId := none
  category := .supportingContext
  score := score
  reasons := []
  estimatedTokens := 1

theorem second_ordered : 2 ≤ 2 := Nat.le_refl 2

theorem third_positive : 0 < 3 := Nat.succ_pos 2

theorem third_ordered : 3 ≤ 3 := Nat.le_refl 3

/-- Three ranges of one file, in the order of their scores. -/
def ranges : List (ShapedRange Int) :=
  [line .first 3, line ⟨2, 2, Nat.two_pos, second_ordered⟩ 2,
    line ⟨3, 3, third_positive, third_ordered⟩ 1]

def grade (index : Int) : Grade := ⟨index, true, .supportingContext, .directCallee⟩

/-- All three ranges of the file are kept, though the profile allows two. -/
theorem not_meetsCeilings
    : ¬ @MeetsCeilings source Int weights 1200 ranges [grade 0, grade 1, grade 2]
      (@postValidateGrades source Int _ policy ⟨.compact, none⟩ ranges
        [grade 0, grade 1, grade 2]) := by
  intro meets
  have files := @MeetsCeilings.files source Int _ _ _ _ _ meets "a.py"
  have counted
      : proposalsOf "a.py" (@postValidateGrades source Int _ policy ⟨.compact, none⟩ ranges
          [grade 0, grade 1, grade 2]).1 = 3 := by
    decide +kernel
  rw [counted] at files
  exact absurd files (by decide)

end CompactProfile

end Murder.Grading

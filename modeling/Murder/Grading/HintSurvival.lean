import Murder.Grading.Ceilings

/-! When exact hints survive grading whatever the model includes.
Hints are selected in any case, but then compete for the ceilings in the order of scores.
-/

namespace Murder.Grading

open Evidence Ranking Library

variable {included : Nat → Bool}

section Hints

variable [GradingSource] {Score : Type}

def SelectedRange.ungraded (item : SelectedRange Score) : SelectedRange Score :=
  { item with graded := none }

def shapedRanges (weights : GradingWeights Score) (category : Nat → EvidenceCategory)
    (ranges : List (ShapedRange Score))
    : List (SelectedRange Score) :=
  ranges.zipIdx.filterMap (fun (proposal, index) => do
    let shaped ← gradedShape weights.unitTokenCap proposal (category index)
    if weights.maxCandidatesPerFile ≤ 0 then
      none
    else
      return ⟨index, proposal.score, shaped, none⟩)

def Assigns (category : Nat → EvidenceCategory) (ranges : List (ShapedRange Score))
    (grades : List Grade)
    : Prop :=
  ∀ index proposal, ranges[index]? = some proposal
    → gradedCategory (gradesByIndex ranges.length grades) index proposal = category index

def isHint (ranges : List (ShapedRange Score)) (item : SelectedRange Score) : Bool :=
  ranges[item.index]?.any isExactHintProposal

def isChosen (ranges : List (ShapedRange Score)) (grades : List Grade)
    (item : SelectedRange Score)
    : Bool :=
  ranges[item.index]?.any (isIncluded (gradesByIndex ranges.length grades) item.index)

variable {weights : GradingWeights Score} {ceiling : Int} {category : Nat → EvidenceCategory}
  {ranges : List (ShapedRange Score)} {grades : List Grade}

omit [GradingSource] in
theorem isChosen_of_isHint {item : SelectedRange Score} (hint : isHint ranges item)
    : isChosen ranges grades item := by
  obtain ⟨proposal, found, marked⟩ := (Option.any_eq_true _ _).mp hint
  refine (Option.any_eq_true _ _).mpr ⟨proposal, found, ?_⟩
  exact (Bool.or_eq_true _ _).mpr (.inl marked)

theorem ungraded_selectRanges (assigns : Assigns category ranges grades)
    : (selectRanges weights (gradesByIndex ranges.length grades) (fun _ => 0) ranges).map
        SelectedRange.ungraded
      = (shapedRanges weights category ranges).filter (isChosen ranges grades) := by
  rw [selectRanges, shapedRanges, List.map_filterMap, List.filter_filterMap]
  apply List.filterMap_congr
  intro entry listed
  obtain ⟨proposal, index⟩ := entry
  have found : ranges[index]? = some proposal := List.mem_zipIdx_iff_getElem?.mp listed
  have same := assigns index proposal found
  dsimp only
  rw [selectRange, same]
  have picks : ∀ shaped : ShapedRange Score,
      isChosen ranges grades ⟨index, proposal.score, shaped, none⟩
        = isIncluded (gradesByIndex ranges.length grades) index proposal := by
    intro shaped
    rw [isChosen]
    dsimp only
    rw [found]
    rfl
  cases gradedShape weights.unitTokenCap proposal (category index) with
  | none =>
    by_cases picked : isIncluded (gradesByIndex ranges.length grades) index proposal
    · rw [if_pos picked]
      rfl
    · rw [if_neg picked]
      rfl
  | some shaped =>
    by_cases picked : isIncluded (gradesByIndex ranges.length grades) index proposal
    · rw [if_pos picked]
      dsimp only [Option.bind_eq_bind, Option.bind_some]
      by_cases full : weights.maxCandidatesPerFile ≤ 0
      · rw [if_pos full, if_pos full]
        rfl
      · rw [if_neg full, if_neg full]
        exact (Option.filter_some_pos ((picks shaped).trans picked)).symm
    · rw [if_neg picked]
      dsimp only [Option.bind_eq_bind, Option.bind_some]
      by_cases full : weights.maxCandidatesPerFile ≤ 0
      · rw [if_pos full]
        rfl
      · rw [if_neg full]
        exact (Option.filter_some_neg ((picks shaped).trans (Bool.eq_false_iff.mpr picked))).symm

variable [LinearOrder Score]

omit [GradingSource] in
theorem ungraded_sortSelected (selected : List (SelectedRange Score))
    : (sortSelected selected).map SelectedRange.ungraded
      = sortSelected (selected.map SelectedRange.ungraded) :=
  List.map_insertionSort _ _ _ _ (fun _ _ _ _ => Iff.rfl)

omit [GradingSource] [LinearOrder Score] in
theorem withinCeilings_ungraded (items : List (SelectedRange Score))
    : withinCeilings weights ceiling (items.map SelectedRange.ungraded)
      = withinCeilings weights ceiling items := by
  rw [withinCeilings, withinCeilings, tokensOf, tokensOf, List.map_map, List.length_map]
  rfl

/-- The ranges of the proposal in the order in which the ceilings see them. -/
def orderedRanges (weights : GradingWeights Score) (category : Nat → EvidenceCategory)
    (ranges : List (ShapedRange Score))
    : List (SelectedRange Score) :=
  sortSelected (shapedRanges weights category ranges)

/-- What is kept is the greedy choice among the ordered ranges that the grades include. -/
theorem ungraded_kept (assigns : Assigns category ranges grades)
    : (applyCeilings weights ceiling (orderedSelection weights ranges grades)).kept.map
        SelectedRange.ungraded
      = Greedy.select (withinCeilings weights ceiling)
        ((orderedRanges weights category ranges).filter (isChosen ranges grades)) := by
  rw [(applyCeilings_kept weights ceiling _).kept, Greedy.map_select withinCeilings_ungraded,
    orderedSelection, ungraded_sortSelected, ungraded_selectRanges assigns, orderedRanges,
    sortSelected, sortSelected, Greedy.filter_insertionSort]

omit [GradingSource] [LinearOrder Score] in
theorem map_filterMap_sublist {β γ κ : Type} {f : β → Option γ} {key : γ → κ} {own : β → κ}
    (keyed : ∀ entry item, f entry = some item → key item = own entry) (entries : List β)
    : ((entries.filterMap f).map key).Sublist (entries.map own) := by
  induction entries with
  | nil => exact .slnil
  | cons entry rest ih =>
    cases made : f entry with
    | none =>
      rw [List.filterMap_cons_none made]
      exact ih.cons _
    | some item =>
      rw [List.filterMap_cons_some made, List.map_cons, List.map_cons, keyed entry item made]
      exact ih.cons_cons _

omit [LinearOrder Score] in
theorem mem_shapedRanges {item : SelectedRange Score}
    (member : item ∈ shapedRanges weights category ranges)
    : ∃ proposal, ranges[item.index]? = some proposal
      ∧ gradedShape weights.unitTokenCap proposal (category item.index) = some item.shaped := by
  obtain ⟨⟨proposal, index⟩, listed, made⟩ := List.mem_filterMap.mp member
  obtain ⟨shaped, shapes, made⟩ := Option.bind_eq_some_iff.mp made
  by_cases full : weights.maxCandidatesPerFile ≤ 0
  · rw [if_pos full] at made
    cases made
  · rw [if_neg full] at made
    cases made
    exact ⟨proposal, List.mem_zipIdx_iff_getElem?.mp listed, shapes⟩

theorem nodup_index : ((orderedRanges weights category ranges).map (·.index)).Nodup := by
  have indices : ((shapedRanges weights category ranges).map (·.index)).Sublist
      (ranges.zipIdx.map Prod.snd) := by
    apply map_filterMap_sublist
    intro entry item made
    obtain ⟨proposal, index⟩ := entry
    obtain ⟨shaped, shapes, made⟩ := Option.bind_eq_some_iff.mp made
    by_cases full : weights.maxCandidatesPerFile ≤ 0
    · rw [if_pos full] at made
      cases made
    · rw [if_neg full] at made
      cases made
      rfl
  have distinct : (ranges.zipIdx.map Prod.snd).Nodup := by
    rw [List.zipIdx_map_snd]
    exact List.nodup_range'
  exact ((List.perm_insertionSort _ _).map _).nodup_iff.mpr (distinct.sublist indices)

/-- The ceilings only get tighter: tokens are counted from nothing up. -/
theorem closed_withinCeilings
    : Greedy.Closed (withinCeilings weights ceiling) (orderedRanges weights category ranges) := by
  intro part whole smaller within room
  rw [withinCeilings, decide_eq_true_eq] at room ⊢
  have fewer := smaller.length_le
  have less : tokensOf part ≤ tokensOf whole := by
    apply (smaller.map _).sum_le_sum
    intro tokens member
    obtain ⟨item, listed, rfl⟩ := List.mem_map.mp member
    obtain ⟨proposal, -, shapes⟩ :=
      mem_shapedRanges ((List.mem_insertionSort _).mp (within.subset listed))
    exact gradedShape_counted shapes
  omega

def Survives (weights : GradingWeights Score) (ceiling : Int) (ranges : List (ShapedRange Score))
    (grades : List Grade) (index : Nat)
    : Prop :=
  ∃ item ∈ (applyCeilings weights ceiling (orderedSelection weights ranges grades)).kept,
    item.index = index

theorem survives_iff (assigns : Assigns category ranges grades) {index : Nat}
    : Survives weights ceiling ranges grades index
      ↔ ∃ item ∈ Greedy.select (withinCeilings weights ceiling)
          ((orderedRanges weights category ranges).filter (isChosen ranges grades)),
        item.index = index := by
  rw [← ungraded_kept assigns]
  constructor
  · intro survives
    obtain ⟨item, kept, placed⟩ := survives
    exact ⟨item.ungraded, List.mem_map_of_mem kept, placed⟩
  · intro survives
    obtain ⟨bare, kept, placed⟩ := survives
    obtain ⟨item, listed, rfl⟩ := List.mem_map.mp kept
    exact ⟨item, listed, placed⟩

def gradeAll (category : Nat → EvidenceCategory) (included : Nat → Bool) (count : Nat)
    : List Grade :=
  (List.range count).map (fun index : Nat => ⟨index, included index, category index, .tooWeak⟩)

omit [GradingSource] [LinearOrder Score] in
theorem lastGrade_gradeAll {count index : Nat} (within : index < count)
    : LastGrade (gradeAll category included count) index
        ⟨index, included index, category index, .tooWeak⟩ := by
  induction count with
  | zero => exact absurd within (Nat.not_lt_zero index)
  | succ count ih =>
    rw [gradeAll, List.range_succ, List.map_append, List.map_cons, List.map_nil,
      lastGrade_concat]
    by_cases last : (count : Int) = index
    · rw [if_pos last]
      have same : count = index := by omega
      rw [same]
    · rw [if_neg last]
      exact ih (by omega)

omit [GradingSource] [LinearOrder Score] in
theorem gradesByIndex_gradeAll {count index : Nat} (within : index < count)
    : gradesByIndex count (gradeAll category included count) index
      = some ⟨index, included index, category index, .tooWeak⟩ :=
  gradesByIndex_eq_some.mpr ⟨within, lastGrade_gradeAll within⟩

omit [GradingSource] [LinearOrder Score] in
theorem assigns_gradeAll
    : Assigns category ranges (gradeAll category included ranges.length) := by
  intro index proposal found
  have within : index < ranges.length := (List.getElem?_eq_some_iff.mp found).1
  rw [gradedCategory, gradesByIndex_gradeAll within]

/-- Whatever the model includes before a hint, as long as it is kept along with the hints that are
kept without it, leaves room for the hint where those hints do.
-/
def HintRoom (weights : GradingWeights Score) (ceiling : Int) (category : Nat → EvidenceCategory)
    (ranges : List (ShapedRange Score))
    : Prop :=
  Greedy.Roomy (withinCeilings weights ceiling) (isHint ranges)
    (orderedRanges weights category ranges)

theorem survives_iff_mem (assigns : Assigns category ranges grades) {item : SelectedRange Score}
    (listed : item ∈ orderedRanges weights category ranges)
    : Survives weights ceiling ranges grades item.index
      ↔ item ∈ Greedy.select (withinCeilings weights ceiling)
          ((orderedRanges weights category ranges).filter (isChosen ranges grades)) := by
  rw [survives_iff assigns]
  constructor
  · intro survives
    obtain ⟨other, kept, placed⟩ := survives
    have among := List.mem_of_mem_filter (Greedy.select_sublist.subset kept)
    rwa [← List.inj_on_of_nodup_map nodup_index among listed placed]
  · exact fun kept => ⟨item, kept, rfl⟩

/-- Every choice of ranges beside the hints is what some grades include. -/
theorem exists_grades {chosen : SelectedRange Score → Bool}
    (all : ∀ item, isHint ranges item → chosen item)
    : ∃ grades, Assigns category ranges grades
      ∧ (orderedRanges weights category ranges).filter (isChosen ranges grades)
        = (orderedRanges weights category ranges).filter chosen := by
  let included : Nat → Bool := fun index =>
    (orderedRanges weights category ranges).any (fun item => item.index == index && chosen item)
  refine ⟨gradeAll category included ranges.length, assigns_gradeAll, ?_⟩
  apply List.filter_congr
  intro item listed
  obtain ⟨proposal, found, -⟩ := mem_shapedRanges ((List.mem_insertionSort _).mp listed)
  have within : item.index < ranges.length := (List.getElem?_eq_some_iff.mp found).1
  have picks : included item.index = chosen item := by
    rw [Bool.eq_iff_iff]
    constructor
    · intro some_
      obtain ⟨other, among, holds⟩ := List.any_eq_true.mp some_
      obtain ⟨placed, picked⟩ := (Bool.and_eq_true _ _).mp holds
      rwa [← List.inj_on_of_nodup_map nodup_index among listed (beq_iff_eq.mp placed)]
    · intro picked
      exact List.any_eq_true.mpr ⟨item, listed, by rw [beq_self_eq_true, picked]; rfl⟩
  have chooses : isChosen ranges (gradeAll category included ranges.length) item
      = (isExactHintProposal proposal || included item.index) := by
    rw [isChosen, found, Option.any_some, isIncluded, gradesByIndex_gradeAll within,
      Option.any_some]
  have hints : isHint ranges item = isExactHintProposal proposal := by
    rw [isHint, found, Option.any_some]
  rw [chooses, picks, ← hints]
  cases marked : isHint ranges item with
  | true => rw [Bool.true_or, all item marked]
  | false => rw [Bool.false_or]

/-- Under fixed categories the hints that survive do not depend on the grades exactly where there
is room for hints: what the model includes before a hint competes with it for the ceilings.
-/
theorem survives_independent_iff (weights : GradingWeights Score) (ceiling : Int)
    (category : Nat → EvidenceCategory) (ranges : List (ShapedRange Score))
    : (∀ one other, Assigns category ranges one → Assigns category ranges other
        → ∀ index proposal, ranges[index]? = some proposal → isExactHintProposal proposal
          → (Survives weights ceiling ranges one index
            ↔ Survives weights ceiling ranges other index))
      ↔ HintRoom weights ceiling category ranges := by
  have distinct : (orderedRanges weights category ranges).Nodup := nodup_index.of_map
  rw [HintRoom, ← Greedy.mem_select_iff_roomy closed_withinCeilings distinct]
  constructor
  · intro independent one other all_one all_other item hint
    by_cases listed : item ∈ orderedRanges weights category ranges
    · obtain ⟨grades, assigns, same⟩ := exists_grades all_one
      obtain ⟨grades', assigns', same'⟩ := exists_grades all_other
      obtain ⟨proposal, found, marked⟩ := (Option.any_eq_true _ _).mp hint
      have agrees := independent grades grades' assigns assigns' item.index proposal found marked
      rwa [survives_iff_mem assigns listed, survives_iff_mem assigns' listed, same, same'] at agrees
    · have unlisted : ∀ chosen : SelectedRange Score → Bool,
          item ∉ Greedy.select (withinCeilings weights ceiling)
            ((orderedRanges weights category ranges).filter chosen) := fun chosen member =>
        listed (List.mem_of_mem_filter (Greedy.select_sublist.subset member))
      exact iff_of_false (unlisted one) (unlisted other)
  · intro alike one other assigns assigns' index proposal found marked
    by_cases shaped : ∃ item ∈ orderedRanges weights category ranges, item.index = index
    · obtain ⟨item, listed, rfl⟩ := shaped
      rw [survives_iff_mem assigns listed, survives_iff_mem assigns' listed]
      apply alike _ _ (fun _ => isChosen_of_isHint) (fun _ => isChosen_of_isHint)
      exact (Option.any_eq_true _ _).mpr ⟨proposal, found, marked⟩
    · have lost : ∀ grades, Assigns category ranges grades
          → ¬ Survives weights ceiling ranges grades index := by
        intro grades assigns survives
        obtain ⟨item, kept, placed⟩ := (survives_iff assigns).mp survives
        exact shaped ⟨item, List.mem_of_mem_filter (Greedy.select_sublist.subset kept), placed⟩
      exact iff_of_false (lost one assigns) (lost other assigns')

end Hints

namespace CompactProfile

def hinted : List (ShapedRange Int) :=
  [line .first 3, { line ⟨2, 2, Nat.two_pos, second_ordered⟩ 2 with reasons := ["exact_range"] }]

/-- The model includes the first range or not; the hint it leaves out. -/
def grades (included : Bool) : List Grade :=
  [⟨0, included, .supportingContext, .directCallee⟩,
    ⟨1, false, .supportingContext, .taskIrrelevant⟩]

theorem assigns_grades (included : Bool)
    : Assigns (fun _ => .supportingContext) hinted (grades included) := by
  intro index proposal found
  match index with
  | 0 => cases included <;> rfl
  | 1 => cases included <;> rfl
  | index + 2 => exact nomatch found

/-- Under a ceiling of one token the hint is kept unless the model includes the range before it. -/
theorem not_survives_independent
    : ¬ ∀ one other, Assigns (fun _ => .supportingContext) hinted one
      → Assigns (fun _ => .supportingContext) hinted other
      → ∀ index proposal, hinted[index]? = some proposal → isExactHintProposal proposal
        → (@Survives source Int _ weights (tokenCeiling weights ⟨.compact, some 1⟩) hinted one index
          ↔ @Survives source Int _ weights (tokenCeiling weights ⟨.compact, some 1⟩) hinted other
            index) := by
  intro independent
  have alike := independent (grades false) (grades true) (assigns_grades false)
    (assigns_grades true) 1 _ rfl (by decide)
  have kept
      : @Survives source Int _ weights (tokenCeiling weights ⟨.compact, some 1⟩) hinted
        (grades false) 1 := by
    unfold Survives
    decide +kernel
  have lost
      : ¬ @Survives source Int _ weights (tokenCeiling weights ⟨.compact, some 1⟩) hinted
        (grades true) 1 := by
    unfold Survives
    decide +kernel
  exact lost (alike.mp kept)

end CompactProfile

end Murder.Grading

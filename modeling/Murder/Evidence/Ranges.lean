import Mathlib.Data.List.Sort

/-! Inclusive line ranges: normalizing, subtracting and clamping them. -/

namespace Murder.Evidence

/-- One-based lines from `start` to `stop`, both included. -/
structure LineRange where
  start : Nat
  stop : Nat
  positive : 0 < start
  ordered : start ≤ stop
deriving DecidableEq

namespace LineRange

def first : LineRange := ⟨1, 1, by decide, by decide⟩

def Contains (range : LineRange) (line : Nat) : Prop := range.start ≤ line ∧ line ≤ range.stop

instance (range : LineRange) (line : Nat) : Decidable (range.Contains line) :=
  inferInstanceAs (Decidable (_ ∧ _))

def extend (range : LineRange) (stop : Nat) (later : range.stop < stop) : LineRange where
  start := range.start
  stop := stop
  positive := range.positive
  ordered := range.ordered.trans later.le

/-- The order of `(start_line, end_line)`. -/
def Before (left right : LineRange) : Prop :=
  left.start < right.start ∨ left.start = right.start ∧ left.stop ≤ right.stop

instance : DecidableRel Before := fun _ _ => inferInstanceAs (Decidable (_ ∨ _))

instance : Std.Total Before where
  total left right := by
    unfold Before
    omega

instance : IsTrans LineRange Before where
  trans left middle right hl hr := by
    unfold Before at hl hr ⊢
    omega

theorem Before.start_le {left right : LineRange} (h : left.Before right)
    : left.start ≤ right.start := by
  rcases h with less | same
  · exact less.le
  · exact same.1.le

end LineRange

def Covered (ranges : List LineRange) (line : Nat) : Prop :=
  ∃ range ∈ ranges, range.Contains line

def mergeRanges (previous : LineRange) : List LineRange → List LineRange
  | [] => [previous]
  | current :: rest =>
    if current.start ≤ previous.stop + 1 then
      if later : previous.stop < current.stop then
        mergeRanges (previous.extend current.stop later) rest
      else
        mergeRanges previous rest
    else
      previous :: mergeRanges current rest

/-- Sort, merge overlaps, and merge directly adjacent ranges. -/
def normalizeRanges (ranges : List LineRange) : List LineRange :=
  match ranges.insertionSort LineRange.Before with
  | [] => []
  | first :: rest => mergeRanges first rest

def subtractOne (requested known : LineRange) : List LineRange :=
  if known.stop < requested.start ∨ requested.stop < known.start then
    [requested]
  else
    (if left : requested.start < known.start then
      [⟨requested.start, known.start - 1, requested.positive, by omega⟩]
    else
      [])
    ++ (if right : known.stop < requested.stop then
      [⟨known.stop + 1, requested.stop, Nat.succ_pos _, right⟩]
    else
      [])

def subtractRanges (requested known : List LineRange) : List LineRange :=
  match normalizeRanges known with
  | [] => normalizeRanges requested
  | intervals =>
    normalizeRanges ((normalizeRanges requested).flatMap (fun range =>
      intervals.foldl (fun pieces known => pieces.flatMap (subtractOne · known)) [range]))

/-- `RangeValidationError`. -/
inductive RangeError
  | emptyFile (range : LineRange)
  | startsBeyondEnd (range : LineRange) (lineCount : Nat)

/-- A range cut to the lines of a file; one that starts behind them is rejected. -/
def clampRange (range : LineRange) (lineCount : Nat) : Except RangeError LineRange :=
  if lineCount = 0 then
    .error (.emptyFile range)
  else if starts : lineCount < range.start then
    .error (.startsBeyondEnd range lineCount)
  else
    .ok ⟨range.start, min range.stop lineCount, range.positive,
      le_min range.ordered (Nat.not_lt.mp starts)⟩

section Coverage

variable {ranges requested known : List LineRange} {line : Nat}

@[simp] theorem not_covered_nil : ¬ Covered [] line := by
  simp [Covered]

@[simp] theorem covered_cons {range : LineRange}
    : Covered (range :: ranges) line ↔ range.Contains line ∨ Covered ranges line := by
  simp [Covered]

theorem covered_append {more : List LineRange}
    : Covered (ranges ++ more) line ↔ Covered ranges line ∨ Covered more line := by
  simp [Covered, or_and_right, exists_or]

theorem covered_flatMap {f : LineRange → List LineRange}
    : Covered (ranges.flatMap f) line ↔ ∃ range ∈ ranges, Covered (f range) line := by
  constructor
  · intro ⟨piece, member, contains⟩
    obtain ⟨range, listed, inside⟩ := List.mem_flatMap.mp member
    exact ⟨range, listed, piece, inside, contains⟩
  · intro ⟨range, listed, piece, inside, contains⟩
    exact ⟨piece, List.mem_flatMap.mpr ⟨range, listed, inside⟩, contains⟩

/-- Merging a sorted list covers the same lines, by induction over the list. -/
theorem covered_mergeRanges {previous : LineRange} {rest : List LineRange}
    (sorted : ∀ range ∈ rest, previous.start ≤ range.start)
    (increasing : rest.Pairwise (fun left right => left.start ≤ right.start))
    : Covered (mergeRanges previous rest) line ↔ Covered (previous :: rest) line := by
  induction rest generalizing previous with
  | nil => rfl
  | cons current rest ih =>
    obtain ⟨before, increasing⟩ := List.pairwise_cons.mp increasing
    have first := sorted current List.mem_cons_self
    have behind : ∀ range ∈ rest, previous.start ≤ range.start :=
      fun range member => sorted range (List.mem_cons_of_mem _ member)
    unfold mergeRanges
    split
    · split
      · next touches later =>
          have grown := @ih (previous.extend current.stop later) behind increasing
          rw [grown]
          simp only [covered_cons, LineRange.Contains, LineRange.extend]
          have ordered := current.ordered
          constructor
          · intro contained
            rcases contained with inside | other
            · by_cases early : line ≤ previous.stop
              · exact .inl ⟨inside.1, early⟩
              · exact .inr (.inl ⟨by omega, inside.2⟩)
            · exact .inr (.inr other)
          · intro contained
            rcases contained with inside | inside | other
            · exact .inl ⟨inside.1, by omega⟩
            · exact .inl ⟨by omega, inside.2⟩
            · exact .inr other
      · next touches inside =>
          have same := @ih previous behind increasing
          rw [same]
          simp only [covered_cons, LineRange.Contains]
          constructor
          · intro contained
            rcases contained with inside | other
            · exact .inl inside
            · exact .inr (.inr other)
          · intro contained
            rcases contained with inside | contained | other
            · exact .inl inside
            · exact .inl ⟨by omega, by omega⟩
            · exact .inr other
    · rw [covered_cons, ih before increasing, covered_cons, covered_cons, covered_cons]

theorem covered_normalizeRanges : Covered (normalizeRanges ranges) line ↔ Covered ranges line := by
  have sorted := List.pairwise_insertionSort LineRange.Before ranges
  have same : Covered (ranges.insertionSort LineRange.Before) line ↔ Covered ranges line := by
    unfold Covered
    simp only [List.mem_insertionSort]
  rw [← same]
  unfold normalizeRanges
  split
  · next empty => rw [empty]
  · next first rest listed =>
      rw [listed] at sorted ⊢
      obtain ⟨behind, increasing⟩ := List.pairwise_cons.mp sorted
      exact covered_mergeRanges (fun range member => (behind range member).start_le)
        (increasing.imp LineRange.Before.start_le)

/-- What subtracting one interval leaves. -/
theorem covered_subtractOne {requested known : LineRange}
    : Covered (subtractOne requested known) line
      ↔ requested.Contains line ∧ ¬ known.Contains line := by
  have bounds := requested.ordered
  have bounds' := known.ordered
  unfold subtractOne
  split
  · rw [covered_cons]
    simp only [not_covered_nil, or_false, LineRange.Contains]
    constructor <;> intro inside <;> omega
  · rw [covered_append]
    split
    · split
      · simp only [covered_cons, not_covered_nil, or_false, LineRange.Contains]
        constructor <;> intro inside <;> omega
      · simp only [covered_cons, not_covered_nil, or_false, LineRange.Contains]
        constructor <;> intro inside <;> omega
    · split
      · simp only [covered_cons, not_covered_nil, or_false, false_or, LineRange.Contains]
        constructor <;> intro inside <;> omega
      · simp only [not_covered_nil, or_false, false_iff, LineRange.Contains]
        omega

/-- Subtracting known intervals one after another, by induction over them. -/
theorem covered_foldl_subtractOne {pieces : List LineRange}
    : Covered (known.foldl (fun pieces known => pieces.flatMap (subtractOne · known)) pieces) line
      ↔ Covered pieces line ∧ ¬ Covered known line := by
  induction known generalizing pieces with
  | nil => simp
  | cons interval rest ih =>
    rw [List.foldl_cons, ih, covered_flatMap, covered_cons]
    simp only [covered_subtractOne]
    constructor
    · intro ⟨⟨piece, listed, inside, outside⟩, others⟩
      refine ⟨⟨piece, listed, inside⟩, fun covered => ?_⟩
      rcases covered with first | later
      · exact outside first
      · exact others later
    · intro ⟨⟨piece, listed, inside⟩, uncovered⟩
      exact ⟨⟨piece, listed, inside, fun first => uncovered (.inl first)⟩,
        fun later => uncovered (.inr later)⟩

theorem covered_subtractRanges
    : Covered (subtractRanges requested known) line
      ↔ Covered requested line ∧ ¬ Covered known line := by
  have normalized := @covered_normalizeRanges known line
  unfold subtractRanges
  split
  · next none_ =>
      rw [none_] at normalized
      rw [covered_normalizeRanges]
      simp only [not_covered_nil, false_iff] at normalized
      simp [normalized]
  · rw [covered_normalizeRanges, covered_flatMap, ← normalized,
      ← @covered_normalizeRanges requested]
    simp only [covered_foldl_subtractOne, covered_cons, not_covered_nil, or_false]
    constructor
    · intro ⟨range, listed, inside, outside⟩
      exact ⟨⟨range, listed, inside⟩, outside⟩
    · intro ⟨⟨range, listed, inside⟩, outside⟩
      exact ⟨range, listed, inside, outside⟩

/-- Sorted ranges with a line between each two of them that lies in neither. -/
def Separated (ranges : List LineRange) : Prop :=
  ranges.Pairwise (fun left right => left.stop + 1 < right.start)

/-- Merging a sorted list separates its ranges, and leaves the first start first, by induction over
the list.
-/
theorem separated_mergeRanges {previous : LineRange} {rest : List LineRange}
    (sorted : ∀ range ∈ rest, previous.start ≤ range.start)
    (increasing : rest.Pairwise (fun left right => left.start ≤ right.start))
    : Separated (mergeRanges previous rest)
      ∧ ∀ range ∈ mergeRanges previous rest, previous.start ≤ range.start := by
  induction rest generalizing previous with
  | nil =>
    refine ⟨List.pairwise_singleton _ _, fun range member => ?_⟩
    rw [List.mem_singleton.mp member]
  | cons current rest ih =>
    obtain ⟨before, increasing⟩ := List.pairwise_cons.mp increasing
    have behind : ∀ range ∈ rest, previous.start ≤ range.start :=
      fun range member => sorted range (List.mem_cons_of_mem _ member)
    unfold mergeRanges
    split
    · split
      · next touches later => exact @ih (previous.extend current.stop later) behind increasing
      · exact ih behind increasing
    · next apart =>
        obtain ⟨separated, first⟩ := ih before increasing
        constructor
        · refine List.pairwise_cons.mpr ⟨fun range member => ?_, separated⟩
          have starts := first range member
          omega
        · intro range member
          rcases List.mem_cons.mp member with rfl | later
          · exact Nat.le_refl _
          · exact (sorted current List.mem_cons_self).trans (first range later)

theorem separated_normalizeRanges : Separated (normalizeRanges ranges) := by
  have sorted := List.pairwise_insertionSort LineRange.Before ranges
  unfold normalizeRanges
  split
  · exact List.Pairwise.nil
  · next first rest listed =>
      rw [listed] at sorted
      obtain ⟨behind, increasing⟩ := List.pairwise_cons.mp sorted
      exact (separated_mergeRanges (fun range member => (behind range member).start_le)
        (increasing.imp LineRange.Before.start_le)).1

theorem separated_subtractRanges : Separated (subtractRanges requested known) := by
  unfold subtractRanges
  split
  · exact separated_normalizeRanges
  · exact separated_normalizeRanges

/-- Normalized ranges and differences are separated, and cover the union of the lines and the lines
of the one list that are not of the other.
-/
theorem rangeAlgebra (ranges requested known : List LineRange)
    : (Separated (normalizeRanges ranges)
        ∧ ∀ line, Covered (normalizeRanges ranges) line ↔ Covered ranges line)
      ∧ Separated (subtractRanges requested known)
        ∧ ∀ line, Covered (subtractRanges requested known) line
          ↔ Covered requested line ∧ ¬ Covered known line :=
  ⟨⟨separated_normalizeRanges, fun _ => covered_normalizeRanges⟩,
    separated_subtractRanges, fun _ => covered_subtractRanges⟩

example
    : (normalizeRanges [⟨80, 90, by decide, by decide⟩, ⟨35, 55, by decide, by decide⟩,
        ⟨56, 60, by decide, by decide⟩, ⟨23, 40, by decide, by decide⟩]).map
          (fun range => (range.start, range.stop)) = [(23, 60), (80, 90)] := by
  decide

theorem Separated.covered_tail {range : LineRange} (separated : Separated (range :: ranges))
    : Covered ranges line ↔ range.stop + 1 < line ∧ Covered ranges line := by
  refine iff_and_self.mpr ?_
  intro ⟨later, listed, inside⟩
  exact (List.rel_of_pairwise_cons separated listed).trans_le inside.1

/-- Separated ranges are told by their lines, by induction over the one list. -/
theorem separated_unique {left right : List LineRange} (separated : Separated left)
    (separated' : Separated right) (same : ∀ line, Covered left line ↔ Covered right line)
    : left = right := by
  induction left generalizing right with
  | nil =>
    cases right with
    | nil => rfl
    | cons range rest =>
      have none_ := (same range.start).mpr (covered_cons.mpr (.inl ⟨le_rfl, range.ordered⟩))
      exact absurd none_ not_covered_nil
  | cons range rest ih =>
    cases right with
    | nil =>
      have none_ := (same range.start).mp (covered_cons.mpr (.inl ⟨le_rfl, range.ordered⟩))
      exact absurd none_ not_covered_nil
    | cons other others =>
      have placed : ∀ line, (range.Contains line ∨ range.stop + 1 < line ∧ Covered rest line)
          ↔ (other.Contains line ∨ other.stop + 1 < line ∧ Covered others line) := by
        intro line
        rw [← separated.covered_tail, ← separated'.covered_tail, ← covered_cons, ← covered_cons]
        exact same line
      simp only [LineRange.Contains] at placed
      have ordered := range.ordered
      have ordered' := other.ordered
      have starts : range.start = other.start := by
        have from_ := placed range.start
        have from_' := placed other.start
        omega
      have stops : range.stop = other.stop := by
        have behind := placed (range.stop + 1)
        have behind' := placed (other.stop + 1)
        omega
      obtain rfl : range = other := by
        cases range
        cases other
        cases starts
        cases stops
        rfl
      refine congrArg _ (ih separated.of_cons separated'.of_cons (fun line => ?_))
      rw [separated.covered_tail, separated'.covered_tail]
      have here := placed line
      exact and_congr_right (fun later => by grind)

/-- Normalized ranges are equal as soon as their lines are, and known lines are subtracted at once
or one list after the other.
-/
theorem ranges_canonical (left right requested known more : List LineRange)
    : (normalizeRanges left = normalizeRanges right
        ↔ ∀ line, Covered left line ↔ Covered right line)
      ∧ subtractRanges (subtractRanges requested known) more
        = subtractRanges requested (known ++ more) := by
  refine ⟨⟨fun same line => ?_, fun same => ?_⟩, ?_⟩
  · rw [← covered_normalizeRanges, same, covered_normalizeRanges]
  · refine separated_unique separated_normalizeRanges separated_normalizeRanges (fun line => ?_)
    rw [covered_normalizeRanges, covered_normalizeRanges, same]
  · refine separated_unique separated_subtractRanges separated_subtractRanges (fun line => ?_)
    simp only [covered_subtractRanges, covered_append, not_or, and_assoc]

theorem subtractRanges_eq_nil
    : subtractRanges requested known = []
      ↔ ∀ line, Covered requested line → Covered known line := by
  constructor
  · intro none_ line covered
    by_contra unknown
    have left := covered_subtractRanges.mpr ⟨covered, unknown⟩
    rw [none_] at left
    exact not_covered_nil left
  · intro all
    cases left : subtractRanges requested known with
    | nil => rfl
    | cons piece rest =>
      have first : Covered (subtractRanges requested known) piece.start := by
        rw [left]
        exact ⟨piece, List.mem_cons_self, Nat.le_refl _, piece.ordered⟩
      obtain ⟨covered, unknown⟩ := covered_subtractRanges.mp first
      exact absurd (all _ covered) unknown

end Coverage

end Murder.Evidence

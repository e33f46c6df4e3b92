import Mathlib.Data.List.Basic
import Mathlib.Data.Int.DivMod
import Mathlib.Tactic.Ring

/-! Equidistant ticks of a bounded scan, what the first few of an increasing list are, and the
first best score of a scan.
-/

namespace Library.Scans

/-- The ticks of a scan: at most `count` of them, `width` apart, none after `stop`. -/
def ticks (width stop : Int) : Nat → Int → List Int
  | 0, _ => []
  | count + 1, start =>
    if stop < start then [] else start :: ticks width stop count (start + width)

variable {width stop start : Int} {count : Nat}

/-- Every tick is a whole number of widths from the start and within both bounds, by
induction over the ticks left.
-/
theorem mem_ticks (positive : 0 < width) {tick : Int}
    : tick ∈ ticks width stop count start
      ↔ start ≤ tick ∧ tick ≤ stop ∧ tick < start + count * width ∧ width ∣ tick - start := by
  induction count generalizing start with
  | zero =>
    constructor
    · intro member
      cases member
    · intro bounds
      have early : start ≤ tick := bounds.1
      have late : tick < start + (0 : Nat) * width := bounds.2.2.1
      simp at late
      omega
  | succ count ih =>
    have longer : start + ((count + 1 : Nat) : Int) * width = start + width + count * width := by
      push_cast
      ring
    have shifted : tick - start = tick - (start + width) + width := by ring
    rw [ticks, longer]
    split
    next over_ =>
      constructor
      · intro member
        cases member
      · intro bounds
        have early := bounds.1
        have late := bounds.2.1
        omega
    next within =>
      rw [List.mem_cons, ih]
      constructor
      · intro member
        rcases member with same | later
        · subst same
          have wide : 0 ≤ (count : Int) * width :=
            Int.mul_nonneg (Int.natCast_nonneg count) positive.le
          exact ⟨Int.le_refl _, by omega, by omega, by simp⟩
        · refine ⟨by omega, later.2.1, later.2.2.1, ?_⟩
          rw [shifted]
          exact Int.dvd_add later.2.2.2 (Int.dvd_refl _)
      · intro bounds
        by_cases same : tick = start
        · exact Or.inl same
        · have apart : width ∣ tick - (start + width) := by
            have whole := bounds.2.2.2
            rw [shifted] at whole
            exact (Int.dvd_add_left (Int.dvd_refl _)).mp whole
          refine Or.inr ⟨?_, bounds.2.1, bounds.2.2.1, apart⟩
          have far : width ≤ tick - start :=
            Int.le_of_dvd (by have := bounds.1; omega) bounds.2.2.2
          omega

theorem ticks_increasing (positive : 0 < width)
    : (ticks width stop count start).Pairwise (· < ·) := by
  induction count generalizing start with
  | zero => exact .nil
  | succ count ih =>
    rw [ticks]
    split
    · exact .nil
    · refine List.pairwise_cons.mpr ⟨fun tick member => ?_, ih⟩
      have after := ((mem_ticks positive).mp member).1
      omega

variable {α : Type} {before : α → α → Prop}

/-- What an increasing list holds is among its first entries, or these come before it. -/
theorem mem_take_or_before {items : List α} (increasing : items.Pairwise before) {item : α}
    (member : item ∈ items) (limit : Nat)
    : item ∈ items.take limit
      ∨ (items.take limit).length = limit ∧ ∀ early ∈ items.take limit, before early item := by
  rw [← List.take_append_drop limit items] at increasing member
  rcases List.mem_append.mp member with taken | dropped
  · exact Or.inl taken
  · refine Or.inr ⟨?_, fun early first =>
      (List.pairwise_append.mp increasing).2.2 early first item dropped⟩
    have some_ : (items.drop limit).length ≠ 0 := by
      intro none_
      rw [List.length_eq_zero_iff.mp none_] at dropped
      cases dropped
    rw [List.length_drop] at some_
    rw [List.length_take]
    omega

variable {score : Nat → Option Nat} {best : Nat}

/-- The best scored candidate so far with its score: a later one replaces it only by more. -/
def better (score : Nat → Option Nat) (best : Option (Nat × Nat)) (next : Nat)
    : Option (Nat × Nat) :=
  match score next, best with
  | some value, some (first, most) =>
    if most < value then some (next, value) else some (first, most)
  | some value, none => some (next, value)
  | none, _ => best

/-- A candidate scores more than those before it, and no less than those behind it. -/
structure FirstBest (score : Nat → Option Nat) (count best value : Nat) : Prop where
  below : best < count
  scored : score best = some value
  earlier : ∀ rival < best, ∀ other, score rival = some other → other < value
  later : ∀ rival < count, ∀ other, score rival = some other → other ≤ value

theorem FirstBest.unique {count value best' value' : Nat}
    (first : FirstBest score count best value) (second : FirstBest score count best' value')
    : best = best' := by
  rcases Nat.lt_trichotomy best best' with before | same | after
  · have less := second.earlier best before value first.scored
    have more := first.later best' second.below value' second.scored
    omega
  · exact same
  · have less := first.earlier best' after value' second.scored
    have more := second.later best first.below value first.scored
    omega

def FindsBest (score : Nat → Option Nat) (count : Nat) : Option (Nat × Nat) → Prop
  | some (best, value) => FirstBest score count best value
  | none => ∀ rival < count, score rival = none

theorem FindsBest.skip {count : Nat} {found : Option (Nat × Nat)}
    (finds : FindsBest score count found) (scored : score count = none)
    : FindsBest score (count + 1) found := by
  cases found with
  | none =>
    intro rival below
    rcases Nat.lt_succ_iff_lt_or_eq.mp below with earlier | rfl
    · exact finds rival earlier
    · exact scored
  | some found =>
    refine ⟨Nat.lt_succ_of_lt finds.below, finds.scored, finds.earlier, ?_⟩
    intro rival below other shown
    rcases Nat.lt_succ_iff_lt_or_eq.mp below with earlier | rfl
    · exact finds.later rival earlier other shown
    · rw [scored] at shown
      cases shown

theorem firstBest_of_more {count value : Nat} (scored : score count = some value)
    (more : ∀ rival < count, ∀ other, score rival = some other → other < value)
    : FirstBest score (count + 1) count value := by
  refine ⟨Nat.lt_succ_self _, scored, more, ?_⟩
  intro rival below other shown
  rcases Nat.lt_succ_iff_lt_or_eq.mp below with earlier | rfl
  · exact Nat.le_of_lt (more rival earlier other shown)
  · rw [scored] at shown
    cases shown
    exact Nat.le_refl _

theorem FirstBest.stays {count value other : Nat} (first : FirstBest score count best value)
    (scored : score count = some other) (less : other ≤ value)
    : FirstBest score (count + 1) best value := by
  refine ⟨Nat.lt_succ_of_lt first.below, first.scored, first.earlier, ?_⟩
  intro rival below another shown
  rcases Nat.lt_succ_iff_lt_or_eq.mp below with earlier | rfl
  · exact first.later rival earlier another shown
  · rw [scored] at shown
    cases shown
    exact less

theorem FindsBest.step {count : Nat} {found : Option (Nat × Nat)}
    (finds : FindsBest score count found)
    : FindsBest score (count + 1) (better score found count) := by
  unfold better
  cases scored : score count with
  | none => exact finds.skip scored
  | some value =>
    cases found with
    | none =>
      refine firstBest_of_more scored ?_
      intro rival below other shown
      rw [finds rival below] at shown
      cases shown
    | some found =>
      obtain ⟨first, most⟩ := found
      dsimp only
      split
      · next more =>
          refine firstBest_of_more scored ?_
          intro rival below other shown
          exact Nat.lt_of_le_of_lt (finds.later rival below other shown) more
      · next less => exact FirstBest.stays finds scored (Nat.le_of_not_lt less)

/-- A scan finds the first best candidate, unless none has a score, by induction over the
candidates.
-/
theorem scan_better (score : Nat → Option Nat) (count : Nat)
    : FindsBest score count ((List.range count).foldl (better score) none) := by
  induction count with
  | zero => exact fun _ below => absurd below (Nat.not_lt_zero _)
  | succ count ih =>
    rw [List.range_succ, List.foldl_append, List.foldl_cons, List.foldl_nil]
    exact ih.step

end Library.Scans

import Mathlib.Algebra.Order.Field.Basic
import Mathlib.Tactic.Linarith
import Mathlib.Tactic.Ring

/-! Cubic Bezier curves in one coordinate, and bisection. -/

namespace Library.Curves

section Bezier

variable {K : Type} [Field K] {p0 p1 p2 p3 slack s t : K}

def bezier (p0 p1 p2 p3 t : K) : K :=
  (1 - t) ^ 3 * p0 + 3 * (1 - t) ^ 2 * t * p1 + 3 * (1 - t) * t ^ 2 * p2 + t ^ 3 * p3

/-- A curve by the differences of its control points. -/
theorem bezier_eq_differences
    : bezier p0 p1 p2 p3 t
      = p0 + (p1 - p0) * (1 - (1 - t) ^ 3) + (p2 - p1) * (t ^ 2 * (3 - 2 * t))
        + (p3 - p2) * t ^ 3 := by
  unfold bezier
  ring

@[simp] theorem bezier_zero : bezier p0 p1 p2 p3 0 = p0 := by
  unfold bezier
  ring

@[simp] theorem bezier_one : bezier p0 p1 p2 p3 1 = p3 := by
  unfold bezier
  ring

variable [LinearOrder K] [IsStrictOrderedRing K]

/-- The middle weight rises on the unit interval. -/
theorem middle_mono (start : 0 ≤ s) (ordered : s ≤ t) (stop : t ≤ 1)
    : s ^ 2 * (3 - 2 * s) ≤ t ^ 2 * (3 - 2 * t) := by
  have gap : 0 ≤ t - s := sub_nonneg.mpr ordered
  have rest : 0 ≤ 3 * (s + t) - 2 * (s ^ 2 + s * t + t ^ 2) := by
    nlinarith [mul_nonneg start (sub_nonneg.mpr (ordered.trans stop)),
      mul_nonneg (start.trans ordered) (sub_nonneg.mpr stop),
      mul_nonneg start (sub_nonneg.mpr stop)]
  have product := mul_nonneg gap rest
  nlinarith

/-- A curve whose control points fall, the middle ones up to a slack, falls up to that slack. -/
theorem bezier_falls (first : p1 ≤ p0) (middle : p2 ≤ p1 + slack) (last : p3 ≤ p2)
    (allowed : 0 ≤ slack) (start : 0 ≤ s) (ordered : s ≤ t) (stop : t ≤ 1)
    : bezier p0 p1 p2 p3 t ≤ bezier p0 p1 p2 p3 s + slack := by
  rw [bezier_eq_differences, bezier_eq_differences]
  have cubes : (1 - t) ^ 3 ≤ (1 - s) ^ 3 :=
    pow_le_pow_left₀ (sub_nonneg.mpr stop) (by linarith) 3
  have cubes' : s ^ 3 ≤ t ^ 3 := pow_le_pow_left₀ start ordered 3
  have middles := middle_mono start ordered stop
  have lowest := middle_mono (le_refl (0 : K)) start (ordered.trans stop)
  have highest := middle_mono (start.trans ordered) stop (le_refl 1)
  have firsts : (p1 - p0) * ((1 - s) ^ 3 - (1 - t) ^ 3) ≤ 0 :=
    mul_nonpos_of_nonpos_of_nonneg (sub_nonpos.mpr first) (sub_nonneg.mpr cubes)
  have lasts : (p3 - p2) * (t ^ 3 - s ^ 3) ≤ 0 :=
    mul_nonpos_of_nonpos_of_nonneg (sub_nonpos.mpr last) (sub_nonneg.mpr cubes')
  have rise : (p2 - p1) * (t ^ 2 * (3 - 2 * t) - s ^ 2 * (3 - 2 * s)) ≤ slack := by
    calc (p2 - p1) * (t ^ 2 * (3 - 2 * t) - s ^ 2 * (3 - 2 * s))
        ≤ slack * (t ^ 2 * (3 - 2 * t) - s ^ 2 * (3 - 2 * s)) :=
          mul_le_mul_of_nonneg_right (by linarith) (sub_nonneg.mpr middles)
      _ ≤ slack * 1 := mul_le_mul_of_nonneg_left (by linarith) allowed
      _ = slack := mul_one slack
  linarith

end Bezier

section Bisection

variable {K : Type} [Field K] [LinearOrder K] [IsStrictOrderedRing K]
  {below below' : K → Bool} {lo hi : K}

/-- Halve an interval `steps` times towards where `below` stops, and take the middle. -/
def bisect {K : Type} [Field K] (below : K → Bool) : Nat → K → K → K
  | 0, lo, hi => 1 / 2 * (lo + hi)
  | steps + 1, lo, hi =>
    let mid := 1 / 2 * (lo + hi)
    if below mid then bisect below steps mid hi else bisect below steps lo mid

theorem bisect_mem {steps : Nat} (ordered : lo ≤ hi)
    : lo ≤ bisect below steps lo hi ∧ bisect below steps lo hi ≤ hi := by
  induction steps generalizing lo hi with
  | zero =>
    simp only [bisect]
    constructor
    · linarith
    · linarith
  | succ steps ih =>
    simp only [bisect]
    split
    · obtain ⟨low, high⟩ := @ih (1 / 2 * (lo + hi)) hi (by linarith)
      exact ⟨by linarith, high⟩
    · obtain ⟨low, high⟩ := @ih lo (1 / 2 * (lo + hi)) (by linarith)
      exact ⟨low, by linarith⟩

/-- Bisection for a later target ends no earlier, whatever the curve is. -/
theorem bisect_mono {steps : Nat} (ordered : lo ≤ hi)
    (later : ∀ x, below x = true → below' x = true)
    : bisect below steps lo hi ≤ bisect below' steps lo hi := by
  induction steps generalizing lo hi with
  | zero => exact le_refl _
  | succ steps ih =>
    simp only [bisect]
    by_cases first : below (1 / 2 * (lo + hi)) = true
    · rw [if_pos first, if_pos (later _ first)]
      exact ih (by linarith)
    · rw [if_neg first]
      by_cases second : below' (1 / 2 * (lo + hi)) = true
      · -- the two searches part here, on both sides of the middle
        rw [if_pos second]
        exact (bisect_mem (by linarith)).2.trans (bisect_mem (by linarith)).1
      · rw [if_neg second]
        exact ih (by linarith)

end Bisection

end Library.Curves

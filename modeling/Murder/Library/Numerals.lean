import Mathlib.Tactic.Ring

/-! Numerals of a fixed width: how they are written in a base up to sixteen, and read back. -/

namespace Library.Numerals

def digitValue (c : Char) : Nat :=
  if '0' ≤ c ∧ c ≤ '9' then c.toNat - 48
  else if 'a' ≤ c ∧ c ≤ 'f' then c.toNat - 87
  else if 'A' ≤ c ∧ c ≤ 'F' then c.toNat - 55
  else 16

/-- A number in so many digits, the highest one first. -/
def numeral (base : Nat) : Nat → Nat → List Char
  | 0, _ => []
  | width + 1, number =>
    Nat.digitChar (number / base ^ width) :: numeral base width (number % base ^ width)

def readNumeral (base : Nat) : Nat → Nat → List Char → Option (Nat × List Char)
  | 0, number, text => some (number, text)
  | _ + 1, _, [] => none
  | width + 1, number, c :: rest =>
    if digitValue c < base then
      readNumeral base width (number * base + digitValue c) rest
    else none

theorem digitValue_digitChar {digit : Nat} (small : digit < 16)
    : digitValue (Nat.digitChar digit) = digit := by
  have table : ∀ digit < 16, digitValue (Nat.digitChar digit) = digit := by decide
  exact table digit small

@[simp] theorem length_numeral (base width number : Nat)
    : (numeral base width number).length = width := by
  induction width generalizing number with
  | zero => rfl
  | succ width ih => simp [numeral, ih]

/-- A numeral wide enough is read back, by induction on its width. -/
theorem readNumeral_numeral {base width number : Nat} (digits : base ≤ 16)
    (fits : number < base ^ width) (before : Nat) (rest : List Char)
    : readNumeral base width before (numeral base width number ++ rest)
      = some (before * base ^ width + number, rest) := by
  induction width generalizing number before with
  | zero =>
    have zero : number = 0 := by simpa using fits
    simp [readNumeral, numeral, zero]
  | succ width ih =>
    have positive : 0 < base ^ width := by
      rcases Nat.eq_zero_or_pos (base ^ width) with none_ | positive
      · rw [Nat.pow_succ, none_, Nat.zero_mul] at fits
        exact absurd fits (Nat.not_lt_zero _)
      · exact positive
    have digit : number / base ^ width < base :=
      Nat.div_lt_of_lt_mul (by rwa [Nat.pow_succ] at fits)
    have value := digitValue_digitChar (digit.trans_le digits)
    rw [numeral, List.cons_append, readNumeral, value, if_pos digit,
      ih (Nat.mod_lt _ positive)]
    have parts := Nat.div_add_mod number (base ^ width)
    have total : (before * base + number / base ^ width) * base ^ width + number % base ^ width
        = before * base ^ (width + 1) + (base ^ width * (number / base ^ width)
          + number % base ^ width) := by
      ring
    rw [total, parts]

/-- A numeral by its last digit, by induction on the width. -/
theorem numeral_snoc {base : Nat} (width number : Nat)
    (fits : number < base ^ (width + 1))
    : numeral base (width + 1) number
      = numeral base width (number / base) ++ [Nat.digitChar (number % base)] := by
  induction width generalizing number with
  | zero =>
    have small : number < base := by simpa using fits
    simp [numeral, Nat.mod_eq_of_lt small]
  | succ width ih =>
    have positive : 0 < base := by
      rcases Nat.eq_zero_or_pos base with none_ | positive
      · rw [none_] at fits
        simp at fits
      · exact positive
    rw [numeral, ih _ (Nat.mod_lt _ (Nat.pow_pos positive)), numeral]
    have digit : number / base / base ^ width = number / base ^ (width + 1) := by
      rw [Nat.div_div_eq_div_mul, Nat.pow_succ, Nat.mul_comm]
    have lower : number % base ^ (width + 1) / base = number / base % base ^ width := by
      rw [Nat.pow_succ, Nat.mul_comm, Nat.mod_mul_right_div_self]
    have last : number % base ^ (width + 1) % base = number % base :=
      Nat.mod_mod_of_dvd _ (Dvd.intro_left _ rfl)
    rw [digit, lower, last, List.cons_append]

theorem digitChar_ne {digit : Nat} {c : Char} (small : digit < 16) (other : digitValue c = 16)
    : Nat.digitChar digit ≠ c := by
  intro same
  have value := digitValue_digitChar small
  rw [same, other] at value
  omega

theorem mem_numeral {base width number : Nat} {c : Char} (digits : base ≤ 16)
    (fits : number < base ^ width) (member : c ∈ numeral base width number)
    : ∃ digit < 16, c = Nat.digitChar digit := by
  induction width generalizing number with
  | zero => cases member
  | succ width ih =>
    rcases List.mem_cons.mp member with rfl | later
    · have digit : number / base ^ width < base :=
        Nat.div_lt_of_lt_mul (by rwa [Nat.pow_succ] at fits)
      exact ⟨_, digit.trans_le digits, rfl⟩
    · refine ih (Nat.mod_lt _ ?_) later
      rcases Nat.eq_zero_or_pos (base ^ width) with none_ | positive
      · rw [Nat.pow_succ, none_, Nat.zero_mul] at fits
        exact absurd fits (Nat.not_lt_zero _)
      · exact positive

end Library.Numerals

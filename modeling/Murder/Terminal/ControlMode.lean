import Mathlib.Algebra.Group.Nat.Even
import Murder.Contracts.Common
import Murder.Library.Trimming

/-! The payload of a control-mode record: what its escapes decode to, and which records end
the stream.
-/

namespace Murder.Terminal

open Contracts Library.Trimming

def space : UInt8 := 0x20
def newline : UInt8 := 0x0A
def backslash : UInt8 := 0x5C

def isOctal (byte : UInt8) : Bool := 48 ≤ byte && byte ≤ 55

/-- `int(digits, 8)` -/
def octalValue (first second third : UInt8) : Nat :=
  (first.toNat - 48) * 64 + (second.toNat - 48) * 8 + (third.toNat - 48)

/-- A number as one item of a `bytearray`. -/
def byteOf (value : Nat) : Except Failure UInt8 :=
  if value < 256 then .ok (UInt8.ofNat value)
  else .error (.valueError "byte must be in range(0, 256)")

/-- The loop over the encoded bytes. A last backslash stands for itself, and so does what
follows one that starts no escape.
-/
def decodeEscapes : List UInt8 → Except Failure (List UInt8)
  | [] => .ok []
  | byte :: rest =>
    if byte ≠ backslash then do
      let decoded ← decodeEscapes rest
      pure (byte :: decoded)
    else
      match rest with
      | [] => .ok [byte]
      | first :: tail =>
        if first = backslash then do
          let decoded ← decodeEscapes tail
          pure (backslash :: decoded)
        else
          match tail with
          | second :: third :: behind =>
            if isOctal first && isOctal second && isOctal third then do
              let value ← byteOf (octalValue first second third)
              let decoded ← decodeEscapes behind
              pure (value :: decoded)
            else do
              let decoded ← decodeEscapes (second :: third :: behind)
              pure (first :: decoded)
          | short => do
              let decoded ← decodeEscapes short
              pure (first :: decoded)

variable {byte : UInt8} {rest : List UInt8}

theorem decodeEscapes_plain (plain : byte ≠ backslash)
    : decodeEscapes (byte :: rest) = (do
        let decoded ← decodeEscapes rest
        pure (byte :: decoded)) := by
  rw [decodeEscapes.eq_def]
  exact if_pos plain

theorem decodeEscapes_doubled
    : decodeEscapes (backslash :: backslash :: rest) = (do
        let decoded ← decodeEscapes rest
        pure (backslash :: decoded)) := by
  rw [decodeEscapes.eq_def]
  rfl

theorem decodeEscapes_octal {first second third : UInt8}
    (digits : isOctal first && isOctal second && isOctal third)
    : decodeEscapes (backslash :: first :: second :: third :: rest) = (do
        let value ← byteOf (octalValue first second third)
        let decoded ← decodeEscapes rest
        pure (value :: decoded)) := by
  have other : first ≠ backslash := by
    intro same
    rw [same] at digits
    exact absurd digits (by simp [isOctal, backslash])
  rw [decodeEscapes.eq_def]
  simp only [ne_eq, not_true_eq_false, if_false, if_neg other, if_pos digits]

/-- The third part of `line.rstrip(b"\n").split(b" ", 2)`. -/
def encodedPayload (line : List UInt8) : Option (List UInt8) :=
  let body := line.rdropWhile (· = newline)
  let rest := (partition space body).2
  if space ∈ body ∧ space ∈ rest then some (partition space rest).2 else none

/-- `_control_output_bytes` -/
def controlOutputBytes (line : List UInt8) : Except Failure (List UInt8) :=
  match encodedPayload line with
  | none => .ok []
  | some encoded => decodeEscapes encoded

def octalDigit (value : Nat) : UInt8 := UInt8.ofNat (48 + value % 8)

/-- Bytes and one of their encodings: literal, as an octal escape, or as a doubled backslash. -/
inductive Encodes : List UInt8 → List UInt8 → Prop
  | nil : Encodes [] []
  | literal {byte : UInt8} {bytes encoded : List UInt8} (printable : 0x20 ≤ byte)
      (plain : byte ≠ backslash) (later : Encodes bytes encoded)
      : Encodes (byte :: bytes) (byte :: encoded)
  | octal {byte : UInt8} {bytes encoded : List UInt8} (later : Encodes bytes encoded)
      : Encodes (byte :: bytes)
          (backslash :: octalDigit (byte.toNat / 64) :: octalDigit (byte.toNat / 8)
            :: octalDigit byte.toNat :: encoded)
  | doubled {bytes encoded : List UInt8} (later : Encodes bytes encoded)
      : Encodes (backslash :: bytes) (backslash :: backslash :: encoded)

/-- `%output` -/
def marker : List UInt8 := [0x25, 0x6F, 0x75, 0x74, 0x70, 0x75, 0x74]

/-- `%output %pane <encoding>\n` -/
def outputLine (pane encoded : List UInt8) : List UInt8 :=
  marker ++ space :: (pane ++ space :: (encoded ++ [newline]))

theorem octalDigit_facts (byte : UInt8)
    : (isOctal (octalDigit (byte.toNat / 64)) && isOctal (octalDigit (byte.toNat / 8))
        && isOctal (octalDigit byte.toNat)) = true
      ∧ byteOf (octalValue (octalDigit (byte.toNat / 64)) (octalDigit (byte.toNat / 8))
        (octalDigit byte.toNat)) = .ok byte := by
  have small : byte.toNat < 256 := byte.toNat_lt
  have digit (value : Nat) : (octalDigit value).toNat = 48 + value % 8 := by
    rw [octalDigit, UInt8.toNat_ofNat']
    omega
  have octal (value : Nat) : isOctal (octalDigit value) := by
    simp only [isOctal, Bool.and_eq_true, decide_eq_true_eq, UInt8.le_iff_toNat_le, digit]
    have low : (48 : UInt8).toNat = 48 := rfl
    have high : (55 : UInt8).toNat = 55 := rfl
    omega
  have value : octalValue (octalDigit (byte.toNat / 64)) (octalDigit (byte.toNat / 8))
      (octalDigit byte.toNat) = byte.toNat := by
    simp only [octalValue, digit]
    omega
  refine ⟨by simp [octal], ?_⟩
  rw [value, byteOf, if_pos small, UInt8.ofNat_toNat]

variable {bytes encoded : List UInt8}

/-- An encoding decodes to its bytes, by induction on how it was written. -/
theorem Encodes.decode (encodes : Encodes bytes encoded)
    : decodeEscapes encoded = .ok bytes := by
  induction encodes with
  | nil => rfl
  | literal _ plain _ ih =>
    rw [decodeEscapes_plain plain, ih]
    rfl
  | @octal byte _ _ _ ih =>
    obtain ⟨digits, value⟩ := octalDigit_facts byte
    rw [decodeEscapes_octal digits, value, ih]
    rfl
  | doubled _ ih =>
    rw [decodeEscapes_doubled, ih]
    rfl

/-- The backslashes a text ends with. -/
def trailing (front : List UInt8) : Nat := (front.rtakeWhile (· = backslash)).length

/-- A backslash that no other one escapes is followed by an octal number from 400 on. -/
def Overflowing (encoded : List UInt8) : Prop :=
  ∃ front first second third rest,
    encoded = front ++ backslash :: first :: second :: third :: rest ∧ Even (trailing front)
      ∧ (isOctal first && isOctal second && isOctal third) = true ∧ 0x34 ≤ first

/-- What ends in another byte leaves the backslashes behind it as they are. -/
theorem trailing_append {before : List UInt8}
    (stops : before.reverse.takeWhile (· = backslash) = []) (front : List UInt8)
    : trailing (before ++ front) = trailing front := by
  simp only [trailing, List.rtakeWhile, List.reverse_append, List.takeWhile_append, stops,
    List.append_nil]
  split
  · next whole => rw [(List.takeWhile_sublist _).eq_of_length whole]
  · rfl

theorem trailing_plain (plain : byte ≠ backslash) (front : List UInt8)
    : trailing (byte :: front) = trailing front
      ∧ trailing (backslash :: byte :: front) = trailing front :=
  ⟨@trailing_append [byte] (by simp [plain]) front,
    @trailing_append [backslash, byte] (by simp [plain]) front⟩

theorem trailing_doubled (front : List UInt8)
    : Even (trailing (backslash :: backslash :: front)) ↔ Even (trailing front) := by
  have whole : (backslash :: backslash :: front).reverse
      = front.reverse ++ [backslash, backslash] := by simp
  simp only [trailing, List.rtakeWhile, whole, List.takeWhile_append]
  split
  · next all =>
    have short : front.length = (front.reverse.takeWhile (· = backslash)).length := by simp [all]
    simp [short, Nat.even_add_one]
  · rfl

theorem overflowing_plain (plain : byte ≠ backslash)
    : Overflowing (byte :: rest) ↔ Overflowing rest := by
  constructor
  · intro overflowing
    obtain ⟨front, first, second, third, behind, whole, even, digits, large⟩ := overflowing
    cases front with
    | nil => exact absurd (List.cons_eq_cons.mp whole).1 plain
    | cons head front =>
      obtain ⟨rfl, rest'⟩ := List.cons_eq_cons.mp whole
      rw [(trailing_plain plain front).1] at even
      exact ⟨front, first, second, third, behind, rest', even, digits, large⟩
  · intro overflowing
    obtain ⟨front, first, second, third, behind, rfl, even, digits, large⟩ := overflowing
    rw [← (trailing_plain plain front).1] at even
    exact ⟨byte :: front, first, second, third, behind, rfl, even, digits, large⟩

theorem backslash_not_octal : isOctal backslash = false := by decide

theorem overflowing_doubled
    : Overflowing (backslash :: backslash :: rest) ↔ Overflowing rest := by
  constructor
  · intro overflowing
    obtain ⟨front, first, second, third, behind, whole, even, digits, large⟩ := overflowing
    cases front with
    | nil =>
      have same : backslash = first := (List.cons_eq_cons.mp (List.cons_eq_cons.mp whole).2).1
      rw [← same, backslash_not_octal] at digits
      cases digits
    | cons head front =>
      obtain ⟨rfl, inner⟩ := List.cons_eq_cons.mp whole
      cases front with
      | nil => exact absurd even (by decide)
      | cons next front =>
        obtain ⟨rfl, rest'⟩ := List.cons_eq_cons.mp inner
        rw [trailing_doubled] at even
        exact ⟨front, first, second, third, behind, rest', even, digits, large⟩
  · intro overflowing
    obtain ⟨front, first, second, third, behind, rfl, even, digits, large⟩ := overflowing
    rw [← trailing_doubled] at even
    exact ⟨backslash :: backslash :: front, first, second, third, behind, rfl, even, digits, large⟩

/-- An escape overflows by its own digits or leaves it to what follows its first byte. -/
theorem overflowing_escape {tail : List UInt8} (plain : byte ≠ backslash)
    : Overflowing (backslash :: byte :: tail)
      ↔ (∃ second third rest, tail = second :: third :: rest
          ∧ (isOctal byte && isOctal second && isOctal third) = true ∧ 0x34 ≤ byte)
        ∨ Overflowing tail := by
  constructor
  · intro overflowing
    obtain ⟨front, first, second, third, behind, whole, even, digits, large⟩ := overflowing
    cases front with
    | nil =>
      obtain ⟨rfl, tail'⟩ := List.cons_eq_cons.mp (List.cons_eq_cons.mp whole).2
      exact .inl ⟨second, third, behind, tail', digits, large⟩
    | cons head front =>
      obtain ⟨rfl, inner⟩ := List.cons_eq_cons.mp whole
      cases front with
      | nil => exact absurd (List.cons_eq_cons.mp inner).1 plain
      | cons next front =>
        obtain ⟨rfl, tail'⟩ := List.cons_eq_cons.mp inner
        rw [(trailing_plain plain front).2] at even
        exact .inr ⟨front, first, second, third, behind, tail', even, digits, large⟩
  · intro overflowing
    rcases overflowing with own | later
    · obtain ⟨second, third, rest, rfl, digits, large⟩ := own
      exact ⟨[], byte, second, third, rest, rfl, Even.zero, digits, large⟩
    · obtain ⟨front, first, second, third, behind, rfl, even, digits, large⟩ := later
      rw [← (trailing_plain plain front).2] at even
      exact ⟨backslash :: byte :: front, first, second, third, behind, rfl, even, digits, large⟩

/-- Three octal digits are a byte if the first one is below four. -/
theorem byteOf_octalValue {first second third : UInt8}
    (digits : (isOctal first && isOctal second && isOctal third) = true)
    : (∃ value, byteOf (octalValue first second third) = .ok value) ↔ ¬ 0x34 ≤ first := by
  simp only [isOctal, Bool.and_eq_true, decide_eq_true_eq, UInt8.le_iff_toNat_le] at digits ⊢
  have low : (48 : UInt8).toNat = 48 := rfl
  have high : (55 : UInt8).toNat = 55 := rfl
  have bound : (52 : UInt8).toNat = 52 := rfl
  unfold byteOf
  split
  · next small =>
    refine iff_of_true ⟨_, rfl⟩ ?_
    unfold octalValue at small
    omega
  · next large =>
    refine iff_of_false (fun returned => ?_) (not_not_intro ?_)
    · obtain ⟨_, same⟩ := returned
      cases same
    · unfold octalValue at large
      omega

theorem returns_map {call : Except Failure (List UInt8)}
    : (∃ decoded, (do let later ← call; pure (byte :: later)) = Except.ok decoded)
      ↔ ∃ decoded, call = .ok decoded := by
  cases call with
  | ok later => exact iff_of_true ⟨_, rfl⟩ ⟨_, rfl⟩
  | error failure =>
    refine iff_of_false (fun returned => ?_) (fun returned => ?_)
    · obtain ⟨_, same⟩ := returned
      cases same
    · obtain ⟨_, same⟩ := returned
      cases same

/-- Decoding returns exactly if no number is too large, by induction over the loop. -/
theorem decodeEscapes_returns (encoded : List UInt8)
    : (∃ decoded, decodeEscapes encoded = .ok decoded) ↔ ¬ Overflowing encoded := by
  fun_induction decodeEscapes encoded with
  | case1 =>
    refine iff_of_true ⟨[], rfl⟩ (fun overflowing => ?_)
    obtain ⟨front, _, _, _, _, whole, _⟩ := overflowing
    simp at whole
  | case2 byte rest plain ih => rw [returns_map, ih, overflowing_plain plain]
  | case3 byte escape =>
    cases not_not.mp escape
    refine iff_of_true ⟨_, rfl⟩ (fun overflowing => ?_)
    obtain ⟨front, _, _, _, _, whole, _⟩ := overflowing
    have short := congrArg List.length whole
    simp at short
    omega
  | case4 byte escape tail ih =>
    cases not_not.mp escape
    rw [returns_map, ih, overflowing_doubled]
  | case5 byte escape first other second third behind digits ih =>
    cases not_not.mp escape
    have octal : ∀ digit, isOctal digit → digit ≠ backslash := by
      intro digit small same
      rw [same, backslash_not_octal] at small
      cases small
    have each := digits
    simp only [Bool.and_eq_true] at each
    have own : (∃ second' third' rest, second :: third :: behind = second' :: third' :: rest
        ∧ (isOctal first && isOctal second' && isOctal third') = true ∧ 0x34 ≤ first)
        ↔ 0x34 ≤ first :=
      ⟨fun found => found.choose_spec.choose_spec.choose_spec.2.2,
        fun large => ⟨second, third, behind, rfl, digits, large⟩⟩
    rw [overflowing_escape other, own, overflowing_plain (octal _ each.1.2),
      overflowing_plain (octal _ each.2), not_or, ← byteOf_octalValue digits]
    cases number : byteOf (octalValue first second third) with
    | ok value =>
      rw [← ih]
      exact returns_map.trans (and_iff_right ⟨value, rfl⟩).symm
    | error failure =>
      refine iff_of_false (fun returned => ?_) (fun returned => ?_)
      · obtain ⟨_, same⟩ := returned
        cases same
      · obtain ⟨_, same⟩ := returned.1
        cases same
  | case6 byte escape first other second third behind plain ih =>
    cases not_not.mp escape
    have none_ : ¬ ∃ second' third' rest, second :: third :: behind = second' :: third' :: rest
        ∧ (isOctal first && isOctal second' && isOctal third') = true ∧ 0x34 ≤ first := by
      intro found
      obtain ⟨_, _, _, same, digits, _⟩ := found
      cases same
      exact plain digits
    rw [returns_map, ih, overflowing_escape other, or_iff_right none_]
  | case7 byte escape first other tail short ih =>
    cases not_not.mp escape
    have none_ : ¬ ∃ second third rest, tail = second :: third :: rest
        ∧ (isOctal first && isOctal second && isOctal third) = true ∧ 0x34 ≤ first := by
      intro found
      obtain ⟨_, _, _, same, _⟩ := found
      exact short _ _ _ same
    rw [returns_map, ih, overflowing_escape other, or_iff_right none_]

theorem Encodes.newline (encodes : Encodes bytes encoded)
    : newline ∉ encoded := by
  have octal (value : Nat) : octalDigit value ≠ Terminal.newline := by
    intro same
    have digit := congrArg UInt8.toNat same
    rw [octalDigit, UInt8.toNat_ofNat'] at digit
    have ten : Terminal.newline.toNat = 10 := rfl
    omega
  have escape : backslash ≠ Terminal.newline := by decide
  induction encodes with
  | nil => exact List.not_mem_nil
  | @literal byte _ _ printable _ _ ih =>
    have other : Terminal.newline ≠ byte := by
      intro same
      rw [← same] at printable
      exact absurd printable (by decide)
    simp [other, ih]
  | octal _ ih => simp [escape.symm, (octal _).symm, ih]
  | doubled _ ih => simp [escape.symm, ih]

theorem encodedPayload_outputLine {pane : List UInt8} (named : space ∉ pane)
    (encodes : Encodes bytes encoded)
    : encodedPayload (outputLine pane encoded) = some encoded := by
  have ends : ∀ byte ∈ space :: encoded, ¬ (decide (byte = newline)) = true := by
    intro byte member same
    rcases List.mem_cons.mp member with rfl | member
    · cases of_decide_eq_true same
    · exact encodes.newline (of_decide_eq_true same ▸ member)
  have body : (outputLine pane encoded).rdropWhile (· = newline)
      = marker ++ space :: (pane ++ space :: encoded) := by
    have whole : outputLine pane encoded
        = (marker ++ space :: pane ++ (space :: encoded)) ++ [newline] := by simp [outputLine]
    rw [whole, List.rdropWhile_concat_pos _ _ _ (by simp), List.rdropWhile_eq_self_iff.mpr]
    · simp
    · intro some_
      rw [List.getLast_append_of_ne_nil _ (List.cons_ne_nil space encoded)]
      exact ends _ (List.getLast_mem _)
  have free : space ∉ marker := by decide
  simp only [encodedPayload, body, partition_append free, partition_append named]
  exact if_pos (by simp)

/-- A line is decoded: the call returns, and returns the bytes whose encoding the line holds. -/
def Decodes (line : List UInt8) : Prop :=
  ∃ decoded, controlOutputBytes line = .ok decoded
    ∧ ∀ pane bytes encoded, space ∉ pane → Encodes bytes encoded
      → line = outputLine pane encoded → decoded = bytes

/-- Every encoding is decoded to its bytes, and a line is decoded exactly if its payload holds no
octal escape from 400 on.
-/
theorem decodes_iff (line : List UInt8)
    : Decodes line ↔ ∀ encoded ∈ encodedPayload line, ¬ Overflowing encoded := by
  constructor
  · intro decodes encoded payload
    obtain ⟨decoded, returned, _⟩ := decodes
    have payload : encodedPayload line = some encoded := payload
    rw [controlOutputBytes, payload] at returned
    exact (decodeEscapes_returns encoded).mp ⟨decoded, returned⟩
  · intro small
    have returns : ∃ decoded, controlOutputBytes line = .ok decoded := by
      unfold controlOutputBytes
      cases payload : encodedPayload line with
      | none => exact ⟨[], rfl⟩
      | some encoded => exact (decodeEscapes_returns encoded).mpr (small encoded payload)
    obtain ⟨decoded, returned⟩ := returns
    refine ⟨decoded, returned, fun pane bytes encoded named encodes whole => ?_⟩
    rw [controlOutputBytes, whole, encodedPayload_outputLine named encodes] at returned
    exact Except.ok.inj (returned.symm.trans encodes.decode)

/-- `%output %0 \777` raises. -/
theorem not_decodes_overflow
    : ¬ Decodes (outputLine [0x25, 0x30] [backslash, 0x37, 0x37, 0x37]) := by
  intro decodes
  obtain ⟨decoded, returned, _⟩ := decodes
  have raised : controlOutputBytes (outputLine [0x25, 0x30] [backslash, 0x37, 0x37, 0x37])
      = .error (.valueError "byte must be in range(0, 256)") := by decide +kernel
  rw [raised] at returned
  cases returned

end Murder.Terminal

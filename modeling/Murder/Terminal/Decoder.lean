import Mathlib.Data.Char
import Mathlib.Tactic.IntervalCases

/-! The incremental UTF-8 decoder with replacement, one call over the bytes it holds and the
ones it is given.
-/

namespace Murder.Terminal

/-- What stands at the front of undecoded bytes. -/
inductive Utf8Front
  | char (value : Nat) (rest : List UInt8)
  | invalid (rest : List UInt8)
  | incomplete
deriving DecidableEq

def isContinuation (byte : UInt8) : Bool := 0x80 ≤ byte && byte < 0xC0

/-- The low bits of a byte that carry a character. -/
def payload (byte : UInt8) (bound : Nat) : Nat := byte.toNat % bound

/-- The first character, or the longest invalid front of a character; overlong forms,
surrogates and what lies beyond the last code point are refused at the second byte.
-/
def utf8Front : List UInt8 → Utf8Front
  | [] => .incomplete
  | first :: rest =>
    if first < 0x80 then .char first.toNat rest
    else if first < 0xC2 then .invalid rest
    else if first < 0xE0 then
      match rest with
      | [] => .incomplete
      | second :: tail =>
        if !isContinuation second then .invalid rest
        else .char (payload first 0x20 * 0x40 + payload second 0x40) tail
    else if first < 0xF0 then
      match rest with
      | [] => .incomplete
      | second :: tail =>
        if !isContinuation second || first == (if second < 0xA0 then 0xE0 else 0xED) then
          .invalid rest
        else
          match tail with
          | [] => .incomplete
          | third :: behind =>
            if !isContinuation third then .invalid tail
            else .char (payload first 0x10 * 0x1000 + payload second 0x40 * 0x40
              + payload third 0x40) behind
    else if first < 0xF5 then
      match rest with
      | [] => .incomplete
      | second :: tail =>
        if !isContinuation second || first == (if second < 0x90 then 0xF0 else 0xF4) then
          .invalid rest
        else
          match tail with
          | [] => .incomplete
          | third :: behind =>
            if !isContinuation third then .invalid tail
            else
              match behind with
              | [] => .incomplete
              | fourth :: last =>
                if !isContinuation fourth then .invalid behind
                else .char (payload first 0x08 * 0x40000 + payload second 0x40 * 0x1000
                  + payload third 0x40 * 0x40 + payload fourth 0x40) last
    else .invalid rest

def decodeRounds : Nat → List UInt8 → List Char × List UInt8
  | 0, bytes => ([], bytes)
  | rounds + 1, bytes =>
    match utf8Front bytes with
    | .char value rest =>
      let (text, pending) := decodeRounds rounds rest
      (Char.ofNat value :: text, pending)
    | .invalid rest =>
      let (text, pending) := decodeRounds rounds rest
      ('\uFFFD' :: text, pending)
    | .incomplete => ([], bytes)

/-- `decode(data, final=False)` of a decoder that holds `pending`. -/
def decode (pending data : List UInt8) : List Char × List UInt8 :=
  decodeRounds (pending ++ data).length (pending ++ data)

/-- The bytes behind a front are fewer. -/
theorem utf8Front_rest {bytes rest : List UInt8} {value : Nat}
    (h : utf8Front bytes = .char value rest ∨ utf8Front bytes = .invalid rest)
    : rest.length < bytes.length := by
  cases bytes with
  | nil => rcases h with h | h <;> cases h
  | cons first tail =>
    unfold utf8Front at h
    dsimp only at h
    repeat' split at h
    all_goals
      rcases h with h | h <;> cases h <;> simp only [List.length_cons] <;> omega

/-- The rounds suffice: what stays undecoded is the front of a character. -/
theorem decodeRounds_incomplete {rounds : Nat} {bytes : List UInt8}
    (enough : bytes.length ≤ rounds)
    : utf8Front (decodeRounds rounds bytes).2 = .incomplete := by
  induction rounds generalizing bytes with
  | zero =>
    rw [List.eq_nil_of_length_eq_zero (Nat.le_zero.mp enough)]
    rfl
  | succ rounds ih =>
    unfold decodeRounds
    split
    · next value rest front =>
        have fewer := utf8Front_rest (.inl front)
        exact ih (by omega)
    · next rest front =>
        have fewer := @utf8Front_rest bytes rest 0 (.inr front)
        exact ih (by omega)
    · next front => exact front

theorem decode_incomplete (pending data : List UInt8)
    : utf8Front (decode pending data).2 = .incomplete :=
  decodeRounds_incomplete (Nat.le_refl _)

variable {pending : List UInt8}

/-- Without new bytes an incomplete front stays as it is. -/
theorem decode_nil (incomplete : utf8Front pending = .incomplete)
    : decode pending [] = ([], pending) := by
  unfold decode
  rw [List.append_nil]
  cases pending with
  | nil => rfl
  | cons byte rest =>
    rw [List.length_cons, decodeRounds, incomplete]

theorem isContinuation_of_toNat {byte : UInt8} {low : Nat} (value : byte.toNat = low + 0x80)
    (small : low < 0x40)
    : isContinuation byte = true := by
  simp only [isContinuation, UInt8.lt_iff_toNat_lt, UInt8.le_iff_toNat_le, value,
    UInt8.reduceToNat, Bool.and_eq_true, decide_eq_true_eq]
  omega

/-- Two bytes that carry the bits of a character. -/
theorem utf8Front_two {first second : UInt8} {v : Nat} (low : 0x80 ≤ v) (high : v < 0x800)
    (f : first.toNat = v / 64 + 0xC0) (s : second.toNat = v % 64 + 0x80)
    : utf8Front [first] = .incomplete ∧ utf8Front [first, second] = .char v [] := by
  have one : ¬ first < 0x80 := by
    rw [UInt8.lt_iff_toNat_lt, f]
    simp
  have two : ¬ first < 0xC2 := by
    rw [UInt8.lt_iff_toNat_lt, f]
    simp
    omega
  have three : first < 0xE0 := by
    rw [UInt8.lt_iff_toNat_lt, f]
    simp
    omega
  have goes := isContinuation_of_toNat s (by omega)
  constructor
  · simp [utf8Front, one, two, three]
  · simp [utf8Front, one, two, three, goes, payload, f, s]
    omega

/-- Three bytes that carry the bits of a character, which is no surrogate. -/
theorem utf8Front_three {first second third : UInt8} {v : Nat} (low : 0x800 ≤ v)
    (high : v < 0x10000) (valid : v < 0xD800 ∨ 0xDFFF < v) (f : first.toNat = v / 4096 + 0xE0)
    (s : second.toNat = v / 64 % 64 + 0x80) (t : third.toNat = v % 64 + 0x80)
    : utf8Front [first] = .incomplete ∧ utf8Front [first, second] = .incomplete
      ∧ utf8Front [first, second, third] = .char v [] := by
  have one : ¬ first < 0x80 := by
    rw [UInt8.lt_iff_toNat_lt, f]
    simp
  have two : ¬ first < 0xC2 := by
    rw [UInt8.lt_iff_toNat_lt, f]
    simp
  have three : ¬ first < 0xE0 := by
    rw [UInt8.lt_iff_toNat_lt, f]
    simp
  have four : first < 0xF0 := by
    rw [UInt8.lt_iff_toNat_lt, f]
    simp
    omega
  have goes := isContinuation_of_toNat s (by omega)
  have ends := isContinuation_of_toNat t (by omega)
  have apart : first ≠ (if second < 0xA0 then 0xE0 else 0xED) := by
    intro same
    have number := congrArg UInt8.toNat same
    rw [f] at number
    split at number
    · next below =>
        rw [UInt8.lt_iff_toNat_lt, s] at below
        simp at number below
        omega
    · next above =>
        rw [UInt8.lt_iff_toNat_lt, s] at above
        simp at number above
        omega
  refine ⟨?_, ?_, ?_⟩
  · simp [utf8Front, one, two, three, four]
  · simp [utf8Front, one, two, three, four, goes, apart]
  · simp [utf8Front, one, two, three, four, goes, ends, apart, payload, f, s, t]
    omega

/-- Four bytes that carry the bits of a character up to the last code point. -/
theorem utf8Front_four {first second third fourth : UInt8} {v : Nat} (low : 0x10000 ≤ v)
    (high : v < 0x110000) (f : first.toNat = v / 262144 + 0xF0)
    (s : second.toNat = v / 4096 % 64 + 0x80) (t : third.toNat = v / 64 % 64 + 0x80)
    (l : fourth.toNat = v % 64 + 0x80)
    : utf8Front [first] = .incomplete ∧ utf8Front [first, second] = .incomplete
      ∧ utf8Front [first, second, third] = .incomplete
      ∧ utf8Front [first, second, third, fourth] = .char v [] := by
  have one : ¬ first < 0x80 := by
    rw [UInt8.lt_iff_toNat_lt, f]
    simp
  have two : ¬ first < 0xC2 := by
    rw [UInt8.lt_iff_toNat_lt, f]
    simp
  have three : ¬ first < 0xE0 := by
    rw [UInt8.lt_iff_toNat_lt, f]
    simp
  have four : ¬ first < 0xF0 := by
    rw [UInt8.lt_iff_toNat_lt, f]
    simp
  have five : first < 0xF5 := by
    rw [UInt8.lt_iff_toNat_lt, f]
    simp
    omega
  have goes := isContinuation_of_toNat s (by omega)
  have more := isContinuation_of_toNat t (by omega)
  have ends := isContinuation_of_toNat l (by omega)
  have apart : first ≠ (if second < 0x90 then 0xF0 else 0xF4) := by
    intro same
    have number := congrArg UInt8.toNat same
    rw [f] at number
    split at number
    · next below =>
        rw [UInt8.lt_iff_toNat_lt, s] at below
        simp at number below
        omega
    · next above =>
        rw [UInt8.lt_iff_toNat_lt, s] at above
        simp at number above
        omega
  refine ⟨?_, ?_, ?_, ?_⟩
  · simp [utf8Front, one, two, three, four, five]
  · simp [utf8Front, one, two, three, four, five, goes, apart]
  · simp [utf8Front, one, two, three, four, five, goes, more, apart]
  · simp [utf8Front, one, two, three, four, five, goes, more, ends, apart, payload, f, s, t, l]
    omega

/-- An encoding decodes to its character, and only when it is complete; by its length. -/
theorem utf8Front_encode (char : Char)
    : utf8Front (String.utf8EncodeChar char) = .char char.toNat []
      ∧ ∀ count < (String.utf8EncodeChar char).length,
        utf8Front ((String.utf8EncodeChar char).take count) = .incomplete := by
  have valid : char.toNat < 0xD800 ∨ 0xDFFF < char.toNat ∧ char.toNat < 0x110000 := char.valid
  have value : char.val.toNat = char.toNat := rfl
  unfold String.utf8EncodeChar
  dsimp only
  rw [value]
  generalize char.toNat = v at valid
  split
  · next small =>
      have byte : (UInt8.ofNat v).toNat = v := by
        rw [UInt8.toNat_ofNat']
        omega
      have ascii : UInt8.ofNat v < 0x80 := by
        rw [UInt8.lt_iff_toNat_lt, byte]
        simp
        omega
      refine ⟨by simp [utf8Front, ascii, byte], fun count less => ?_⟩
      rw [Nat.lt_one_iff.mp less]
      rfl
  split
  · next wide two =>
      obtain ⟨start, whole⟩ := @utf8Front_two (UInt8.ofNat (v / 64 % 0x20 + 0xc0))
        (UInt8.ofNat (v % 0x40 + 0x80)) v (by omega) (by omega)
        (by rw [UInt8.toNat_ofNat']; omega) (by rw [UInt8.toNat_ofNat']; omega)
      refine ⟨whole, fun count less => ?_⟩
      change count < 2 at less
      interval_cases count
      · rfl
      · exact start
  split
  · next wide more three =>
      obtain ⟨start, next, whole⟩ := @utf8Front_three (UInt8.ofNat (v / 4096 % 0x10 + 0xe0))
        (UInt8.ofNat (v / 64 % 0x40 + 0x80)) (UInt8.ofNat (v % 0x40 + 0x80)) v (by omega)
        (by omega) (by omega) (by rw [UInt8.toNat_ofNat']; omega)
        (by rw [UInt8.toNat_ofNat']; omega) (by rw [UInt8.toNat_ofNat']; omega)
      refine ⟨whole, fun count less => ?_⟩
      change count < 3 at less
      interval_cases count
      · rfl
      · exact start
      · exact next
  · next wide more most =>
      obtain ⟨start, next, later, whole⟩ := @utf8Front_four
        (UInt8.ofNat (v / 262144 % 0x08 + 0xf0)) (UInt8.ofNat (v / 4096 % 0x40 + 0x80))
        (UInt8.ofNat (v / 64 % 0x40 + 0x80)) (UInt8.ofNat (v % 0x40 + 0x80)) v (by omega)
        (by omega) (by rw [UInt8.toNat_ofNat']; omega) (by rw [UInt8.toNat_ofNat']; omega)
        (by rw [UInt8.toNat_ofNat']; omega) (by rw [UInt8.toNat_ofNat']; omega)
      refine ⟨whole, fun count less => ?_⟩
      change count < 4 at less
      interval_cases count
      · rfl
      · exact start
      · exact next
      · exact later

theorem decode_of_incomplete {data : List UInt8} (front : utf8Front (pending ++ data) = .incomplete)
    : decode pending data = ([], pending ++ data) := by
  unfold decode
  cases (pending ++ data).length with
  | zero => rfl
  | succ count => rw [decodeRounds, front]

theorem decode_of_char {data : List UInt8} {value : Nat}
    (front : utf8Front (pending ++ data) = .char value [])
    : decode pending data = ([Char.ofNat value], []) := by
  unfold decode
  cases length : (pending ++ data).length with
  | zero =>
    rw [List.eq_nil_of_length_eq_zero length] at front
    cases front
  | succ count =>
    rw [decodeRounds, front]
    cases count <;> rfl

/-- Any byte but a continuation ends an incomplete character; by the bytes held. -/
theorem utf8Front_cut (held : pending ≠ [])
    (incomplete : utf8Front pending = .incomplete) {byte : UInt8}
    (other : isContinuation byte = false)
    : utf8Front (pending ++ [byte]) = .invalid [byte] := by
  match pending with
  | [] => contradiction
  | [first] =>
    simp only [utf8Front, List.cons_append, List.nil_append] at incomplete ⊢
    grind
  | [first, second] =>
    simp only [utf8Front, List.cons_append, List.nil_append] at incomplete ⊢
    grind
  | [first, second, third] =>
    simp only [utf8Front, List.cons_append, List.nil_append] at incomplete ⊢
    grind
  | first :: second :: third :: fourth :: rest =>
    simp only [utf8Front, List.cons_append] at incomplete ⊢
    grind

/-- A continuation that is accepted, and that ends no character but one whose last bits are
zero.
-/
theorem utf8Front_continued (held : pending ≠ []) (incomplete : utf8Front pending = .incomplete)
    : ∃ byte, isContinuation byte = true
        ∧ (utf8Front (pending ++ [byte]) = .incomplete
          ∨ ∃ value, utf8Front (pending ++ [byte]) = .char value [] ∧ value % 64 = 0) := by
  have goes : isContinuation 0x80 = true := rfl
  have zero : payload 0x80 0x40 = 0 := rfl
  match pending with
  | [] => contradiction
  | [first] =>
    -- Behind 0xE0 and 0xF0 the smallest continuation would be overlong.
    refine ⟨if first = 0xE0 then 0xA0 else if first = 0xF0 then 0x90 else 0x80, ?_, ?_⟩
    · split
      · rfl
      split <;> rfl
    · simp only [utf8Front, List.cons_append, List.nil_append] at incomplete ⊢
      by_cases three : first = 0xE0
      · cases three
        exact .inl rfl
      by_cases four : first = 0xF0
      · cases four
        exact .inl rfl
      simp only [if_neg three, if_neg four]
      grind
  | [first, second] =>
    refine ⟨0x80, goes, ?_⟩
    simp only [utf8Front, List.cons_append, List.nil_append] at incomplete ⊢
    grind
  | [first, second, third] =>
    refine ⟨0x80, goes, ?_⟩
    simp only [utf8Front, List.cons_append, List.nil_append] at incomplete ⊢
    grind
  | first :: second :: third :: fourth :: rest =>
    simp only [utf8Front] at incomplete
    grind

theorem decode_ascii (incomplete : utf8Front pending = .incomplete)
    {byte : UInt8} (ascii : byte < 0x80)
    : ∃ text, decode pending [byte] = (text ++ [Char.ofNat byte.toNat], []) := by
  have alone : utf8Front [byte] = .char byte.toNat [] := if_pos ascii
  cases pending with
  | nil => exact ⟨[], decode_of_char alone⟩
  | cons first rest =>
    have other : isContinuation byte = false := by
      simp only [isContinuation, UInt8.lt_iff_toNat_lt, UInt8.le_iff_toNat_le] at ascii ⊢
      simp at ascii ⊢
      omega
    have cut := utf8Front_cut (List.cons_ne_nil first rest) incomplete other
    refine ⟨['\uFFFD'], ?_⟩
    unfold decode
    rw [List.cons_append] at cut ⊢
    rw [List.length_cons, decodeRounds, cut]
    simp [List.length_append, decodeRounds, alone]
    cases rest.length <;> exact ⟨rfl, rfl⟩

end Murder.Terminal

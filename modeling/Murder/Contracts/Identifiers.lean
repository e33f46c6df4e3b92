import Murder.Contracts.Common
import Murder.Library.Numerals

/-! Identifiers. A name-based one is the leading bits of the SHA-1 digest of a namespace and a name,
where words and bytes are natural numbers below their width; a canonical text is read back.
-/

namespace Murder.Contracts.Uuid5

open Nat (land lor shiftLeft shiftRight)

def bytes (value : Nat) : Nat → List Nat
  | 0 => []
  | count + 1 => bytes (value / 256) count ++ [value % 256]

def bigEndian (octets : List Nat) : Nat :=
  octets.foldl (fun value octet => value * 256 + octet) 0

def chunks (size : Nat) : Nat → List Nat → List (List Nat)
  | 0, _ => []
  | count + 1, items => items.take size :: chunks size count (items.drop size)

def utf8 (text : String) : List Nat :=
  text.toList.flatMap (fun char => (String.utf8EncodeChar char).map UInt8.toNat)

def rotateLeft (count word : Nat) : Nat :=
  Nat.mod (lor (shiftLeft word count) (shiftRight word (Nat.sub 32 count))) 0x100000000

/-- Extend a message schedule, kept newest word first. -/
def schedule : Nat → List Nat → List Nat
  | 0, words => words
  | count + 1, words =>
    let mixed := Nat.xor (Nat.xor (Nat.xor (words.getD 2 0) (words.getD 7 0)) (words.getD 13 0))
      (words.getD 15 0)
    schedule count (rotateLeft 1 mixed :: words)

structure Digest where
  a : Nat
  b : Nat
  c : Nat
  d : Nat
  e : Nat

def choose (x y z : Nat) : Nat := lor (land x y) (land (Nat.xor 0xFFFFFFFF x) z)

def parity (x y z : Nat) : Nat := Nat.xor (Nat.xor x y) z

def majority (x y z : Nat) : Nat := lor (lor (land x y) (land x z)) (land y z)

def round (digest : Digest) (index word : Nat) : Digest :=
  let ⟨a, b, c, d, e⟩ := digest
  let mixed :=
    if index < 20 then choose b c d + 0x5A827999
    else if index < 40 then parity b c d + 0x6ED9EBA1
    else if index < 60 then majority b c d + 0x8F1BBCDC
    else parity b c d + 0xCA62C1D6
  {
    a := (rotateLeft 5 a + mixed + e + word) % 2 ^ 32
    b := a
    c := rotateLeft 30 b
    d := c
    e := d
  }

def rounds (digest : Digest) : Nat → List Nat → Digest
  | _, [] => digest
  | index, word :: rest => rounds (round digest index word) (index + 1) rest

def block (digest : Digest) (octets : List Nat) : Digest :=
  let words := (chunks 4 16 octets).map bigEndian
  let out := rounds digest 0 (schedule 64 words.reverse).reverse
  {
    a := (digest.a + out.a) % 2 ^ 32
    b := (digest.b + out.b) % 2 ^ 32
    c := (digest.c + out.c) % 2 ^ 32
    d := (digest.d + out.d) % 2 ^ 32
    e := (digest.e + out.e) % 2 ^ 32
  }

def padded (message : List Nat) : List Nat :=
  message ++ 0x80 :: List.replicate ((119 - message.length % 64) % 64) 0
    ++ bytes (message.length * 8) 8

/-- The digest of a message of octets, as a 160-bit number. -/
def sha1 (message : List Nat) : Nat :=
  let octets := padded message
  let digest := (chunks 64 (octets.length / 64) octets).foldl block
    ⟨0x67452301, 0xEFCDAB89, 0x98BADCFE, 0x10325476, 0xC3D2E1F0⟩
  (((digest.a * 2 ^ 32 + digest.b) * 2 ^ 32 + digest.c) * 2 ^ 32 + digest.d) * 2 ^ 32
    + digest.e

/-- The first 128 bits of the digest, with the version and variant fields overwritten. -/
def uuid5 (namespace_ : Uuid) (name : String) : Uuid :=
  let hash := sha1 (bytes namespace_.bits.toNat 16 ++ utf8 name) >>> 32
  let versioned := (hash &&& (2 ^ 128 - 1 - 0xF000 <<< 64)) ||| 0x5000 <<< 64
  let variant := (versioned &&& (2 ^ 128 - 1 - 0xC000 <<< 48)) ||| 0x8000 <<< 48
  ⟨BitVec.ofNat 128 variant⟩

example
    : uuid5 0x6ba7b8119dad11d180b400c04fd430c8 "http://python.org/"
      = 0x4c565f0d3f5a5890b41b20cf47701c5e := by
  decide +kernel

end Murder.Contracts.Uuid5

namespace Murder.Contracts

export Uuid5 (uuid5)

end Murder.Contracts

namespace Murder.Contracts

open Library.Numerals

/-- `UUID(text)` of a canonical text. -/
def Uuid.parse (text : String) : Option Uuid := do
  let (bits, rest) ← readNumeral 16 32 0 (text.toList.filter (· ≠ '-'))
  let id : Uuid := ⟨BitVec.ofNat 128 bits⟩
  if rest = [] ∧ id.str = text then some id else none

theorem Uuid.hexDigits_eq {count value : Nat} (fits : value < 16 ^ count)
    : Uuid.hexDigits value count = numeral 16 count value := by
  induction count generalizing value with
  | zero => rfl
  | succ count ih =>
    have less : value / 16 < 16 ^ count :=
      Nat.div_lt_of_lt_mul (by rwa [Nat.pow_succ, Nat.mul_comm] at fits)
    rw [numeral_snoc count value fits, ← ih less]
    rfl

/-- The digits without the dashes between them. -/
theorem Uuid.filter_str (id : Uuid)
    : id.str.toList.filter (· ≠ '-') = numeral 16 32 id.bits.toNat := by
  have fits : id.bits.toNat < 16 ^ 32 := id.bits.isLt
  have plain : ∀ c ∈ numeral 16 32 id.bits.toNat, c ≠ '-' := by
    intro c member
    obtain ⟨digit, small, rfl⟩ := mem_numeral (by decide) fits member
    exact digitChar_ne small (by decide)
  have dashless : ∀ part : List Char, (∀ c ∈ part, c ∈ numeral 16 32 id.bits.toNat)
      → part.filter (fun c => decide (c ≠ '-')) = part := by
    intro part within
    refine List.filter_eq_self.mpr (fun c member => ?_)
    simpa using plain c (within c member)
  unfold Uuid.str
  rw [String.toList_ofList, Uuid.hexDigits_eq fits]
  generalize whole : numeral 16 32 id.bits.toNat = digits at dashless
  have middle : ∀ first count, ∀ c ∈ (digits.drop first).take count, c ∈ digits :=
    fun first count c member => List.mem_of_mem_drop (List.mem_of_mem_take member)
  simp only [List.filter_append, List.filter_cons, ne_eq, not_true_eq_false, decide_false,
    Bool.false_eq_true, if_false]
  have parts := dashless (digits.take 8) (middle 0 8)
  have second := dashless ((digits.drop 8).take 4) (middle 8 4)
  have third := dashless ((digits.drop 12).take 4) (middle 12 4)
  have fourth := dashless ((digits.drop 16).take 4) (middle 16 4)
  have last := dashless (digits.drop 20) (fun c => List.mem_of_mem_drop)
  simp only [ne_eq] at parts second third fourth last
  rw [parts, second, third, fourth, last]
  have join : ∀ first count, digits.drop first
      = (digits.drop first).take count ++ digits.drop (first + count) := by
    intro first count
    rw [← List.drop_drop, List.take_append_drop]
  have whole := join 0 8
  rw [join 8 4, join 12 4, join 16 4] at whole
  simpa using whole.symm

theorem Uuid.parse_str (id : Uuid) : Uuid.parse id.str = some id := by
  have fits : id.bits.toNat < 16 ^ 32 := id.bits.isLt
  have read := readNumeral_numeral (by decide) fits 0 []
  rw [List.append_nil, Nat.zero_mul, Nat.zero_add] at read
  unfold Uuid.parse
  rw [Uuid.filter_str, read]
  simp

end Murder.Contracts

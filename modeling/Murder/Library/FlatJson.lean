import Murder.Library.Numerals

/-! The compact JSON text of an object whose values are texts and truth values, all of it
ASCII, and the reader of such texts.
-/

namespace Library.FlatJson

open Library.Numerals

inductive Value
  | text (chars : List Char)
  | flag (value : Bool)
deriving DecidableEq

abbrev Entries := List (List Char × Value)

def lookup (entries : Entries) (key : List Char) : Option Value :=
  (entries.find? (fun entry => entry.1 = key)).map Prod.snd

def shortMark (c : Char) : Option Char :=
  if c = '\x22' then some '\x22'
  else if c = '\\' then some '\\'
  else if c = '\n' then some 'n'
  else if c = '\r' then some 'r'
  else if c = '\t' then some 't'
  else if c = '\x08' then some 'b'
  else if c = '\x0c' then some 'f'
  else none

def unitEscape (unit : Nat) : List Char := '\\' :: 'u' :: numeral 16 4 unit

/-- A character as ASCII text. -/
def escape (c : Char) : List Char :=
  match shortMark c with
  | some mark => ['\\', mark]
  | none =>
    if 0x20 ≤ c.toNat ∧ c.toNat < 0x7F then [c]
    else if c.toNat < 0x10000 then unitEscape c.toNat
    else
      unitEscape (0xD800 + (c.toNat - 0x10000) / 0x400)
        ++ unitEscape (0xDC00 + (c.toNat - 0x10000) % 0x400)

def writeText (chars : List Char) : List Char :=
  '\x22' :: (chars.flatMap escape ++ ['\x22'])

def writeValue : Value → List Char
  | .text chars => writeText chars
  | .flag true => ['t', 'r', 'u', 'e']
  | .flag false => ['f', 'a', 'l', 's', 'e']

def writeEntry (entry : List Char × Value) : List Char :=
  writeText entry.1 ++ ':' :: writeValue entry.2

def write (entries : Entries) : List Char :=
  '\x7b' :: ([','].intercalate (entries.map writeEntry) ++ ['\x7d'])

/-- The character a short escape stands for. -/
def unmark (mark : Char) : Option Char :=
  if mark = '\x22' then some '\x22'
  else if mark = '\\' then some '\\'
  else if mark = '/' then some '/'
  else if mark = 'n' then some '\n'
  else if mark = 'r' then some '\r'
  else if mark = 't' then some '\t'
  else if mark = 'b' then some '\x08'
  else if mark = 'f' then some '\x0c'
  else none

/-- The rest of a surrogate pair behind its high unit. -/
def readLow (high : Nat) : List Char → Option (Char × List Char)
  | '\\' :: 'u' :: rest => do
      let (low, rest) ← readNumeral 16 4 0 rest
      if 0xDC00 ≤ low ∧ low < 0xE000 then
        some (Char.ofNat (0x10000 + (high - 0xD800) * 0x400 + (low - 0xDC00)), rest)
      else none
  | _ => none

/-- The character behind `\u`. -/
def readUnit (text : List Char) : Option (Char × List Char) := do
  let (unit, rest) ← readNumeral 16 4 0 text
  if 0xD800 ≤ unit ∧ unit < 0xDC00 then readLow unit rest
  else if 0xDC00 ≤ unit ∧ unit < 0xE000 then none
  else some (Char.ofNat unit, rest)

/-- The character behind a backslash. -/
def readEscape : List Char → Option (Char × List Char)
  | [] => none
  | mark :: rest =>
    if mark = 'u' then readUnit rest else (unmark mark).map (fun c => (c, rest))

/-- The character a text goes on with, `first` being the next one. -/
def readChar (first : Char) (rest : List Char) : Option (Char × List Char) :=
  if first = '\\' then readEscape rest
  else if first.toNat < 0x20 then none
  else some (first, rest)

/-- The rest of a text literal and what follows it; each character takes a unit of fuel. -/
def readChars : Nat → List Char → Option (List Char × List Char)
  | 0, _ => none
  | _ + 1, [] => none
  | fuel + 1, first :: rest =>
    if first = '\x22' then some ([], rest)
    else do
      let (c, rest) ← readChar first rest
      let (chars, rest) ← readChars fuel rest
      some (c :: chars, rest)

def readText : List Char → Option (List Char × List Char)
  | '\x22' :: rest => readChars (rest.length + 1) rest
  | _ => none

def readValue : List Char → Option (Value × List Char)
  | 't' :: 'r' :: 'u' :: 'e' :: rest => some (.flag true, rest)
  | 'f' :: 'a' :: 'l' :: 's' :: 'e' :: rest => some (.flag false, rest)
  | text => (readText text).map (fun read => (.text read.1, read.2))

def readEntry (text : List Char) : Option ((List Char × Value) × List Char) := do
  let (key, rest) ← readText text
  match rest with
  | ':' :: rest => do
      let (value, rest) ← readValue rest
      some ((key, value), rest)
  | _ => none

def readEntries : Nat → List Char → Option Entries
  | 0, _ => none
  | fuel + 1, text => do
      let (entry, rest) ← readEntry text
      match rest with
      | ['\x7d'] => some [entry]
      | ',' :: rest => do
          let entries ← readEntries fuel rest
          some (entry :: entries)
      | _ => none

def read : List Char → Option Entries
  | '\x7b' :: rest =>
    if rest = ['\x7d'] then some [] else readEntries (rest.length + 1) rest
  | _ => none

theorem unmark_shortMark {c mark : Char} (short : shortMark c = some mark)
    : unmark mark = some c ∧ mark ≠ 'u' := by
  unfold shortMark at short
  split_ifs at short with h1 h2 h3 h4 h5 h6 h7
  all_goals
    cases short
    subst c
    decide

theorem readUnit_plain {unit : Nat} (plain : unit < 0xD800 ∨ 0xE000 ≤ unit ∧ unit < 0x10000)
    (rest : List Char)
    : readUnit (numeral 16 4 unit ++ rest) = some (Char.ofNat unit, rest) := by
  have fits : unit < 16 ^ 4 := by omega
  unfold readUnit
  rw [readNumeral_numeral (by decide) fits]
  simp only [Nat.zero_mul, Nat.zero_add, Option.bind_eq_bind, Option.bind_some]
  rw [if_neg (by omega), if_neg (by omega)]

theorem readUnit_pair {offset : Nat} (small : offset < 0x100000) (rest : List Char)
    : readUnit (numeral 16 4 (0xD800 + offset / 0x400)
        ++ (unitEscape (0xDC00 + offset % 0x400) ++ rest))
      = some (Char.ofNat (0x10000 + offset), rest) := by
  have high : 0xD800 + offset / 0x400 < 16 ^ 4 := by omega
  have low : 0xDC00 + offset % 0x400 < 16 ^ 4 := by omega
  unfold readUnit
  rw [readNumeral_numeral (by decide) high]
  simp only [Nat.zero_mul, Nat.zero_add, Option.bind_eq_bind, Option.bind_some]
  rw [if_pos (by omega)]
  simp only [unitEscape, List.cons_append, readLow]
  rw [readNumeral_numeral (by decide) low]
  simp only [Nat.zero_mul, Nat.zero_add, Option.bind_eq_bind, Option.bind_some]
  rw [if_pos (by omega)]
  have parts := Nat.div_add_mod offset 0x400
  have total : 0x10000 + (0xD800 + offset / 0x400 - 0xD800) * 0x400
      + (0xDC00 + offset % 0x400 - 0xDC00) = 0x10000 + offset := by
    omega
  rw [total]

/-- A written character does not begin as the closing quote does, and is read back. -/
theorem readChar_escape (c : Char) (rest : List Char)
    : ∃ first tail, escape c = first :: tail ∧ first ≠ '\x22'
        ∧ readChar first (tail ++ rest) = some (c, rest) := by
  unfold escape
  cases short : shortMark c with
  | some mark =>
    obtain ⟨back, other⟩ := unmark_shortMark short
    exact ⟨'\\', [mark], rfl, by decide, by simp [readChar, readEscape, other, back]⟩
  | none =>
    have notQuote : c ≠ '\x22' := by
      intro same
      subst same
      cases short
    have notSlash : c ≠ '\\' := by
      intro same
      subst same
      cases short
    dsimp only
    split
    · next printable =>
        refine ⟨c, [], rfl, notQuote, ?_⟩
        simp [readChar, notSlash, Nat.not_lt.mpr printable.1]
    · next _ =>
        have valid := c.valid
        split
        · next small =>
            refine ⟨'\\', 'u' :: numeral 16 4 c.toNat, rfl, by decide, ?_⟩
            have plain : c.toNat < 0xD800 ∨ 0xE000 ≤ c.toNat ∧ c.toNat < 0x10000 := by
              rcases valid with low | ⟨high, -⟩
              · exact .inl low
              · exact .inr ⟨high, small⟩
            rw [readChar, if_pos rfl, List.cons_append, readEscape, if_pos rfl,
              readUnit_plain plain, Char.ofNat_toNat]
        · next large =>
            refine ⟨'\\', 'u' :: numeral 16 4 (0xD800 + (c.toNat - 0x10000) / 0x400)
              ++ unitEscape (0xDC00 + (c.toNat - 0x10000) % 0x400), rfl, by decide, ?_⟩
            have offset : c.toNat - 0x10000 < 0x100000 := by
              rcases valid with low | ⟨-, high⟩
              · have low : c.toNat < 0xD800 := low
                omega
              · have high : c.toNat < 0x110000 := high
                omega
            have back : 0x10000 + (c.toNat - 0x10000) = c.toNat := by omega
            rw [readChar, if_pos rfl, List.cons_append, List.cons_append, List.append_assoc,
              readEscape, if_pos rfl, readUnit_pair offset, back, Char.ofNat_toNat]

/-- A written text is read back, by induction over its characters. -/
theorem readChars_written {chars : List Char} {fuel : Nat} (enough : chars.length < fuel)
    (rest : List Char)
    : readChars fuel (chars.flatMap escape ++ '\x22' :: rest) = some (chars, rest) := by
  induction chars generalizing fuel with
  | nil =>
    obtain ⟨fuel, rfl⟩ := Nat.exists_eq_succ_of_ne_zero (Nat.ne_of_gt enough)
    simp [readChars]
  | cons c chars ih =>
    obtain ⟨fuel, rfl⟩ := Nat.exists_eq_succ_of_ne_zero (Nat.ne_of_gt (Nat.zero_lt_of_lt enough))
    obtain ⟨first, tail, shape, other, back⟩ :=
      readChar_escape c (chars.flatMap escape ++ '\x22' :: rest)
    have later : readChars fuel (chars.flatMap escape ++ '\x22' :: rest) = some (chars, rest) :=
      ih (Nat.lt_of_succ_lt_succ enough)
    simp [readChars, shape, other, back, later]

theorem length_le_flatMap_escape (chars : List Char)
    : chars.length ≤ (chars.flatMap escape).length := by
  induction chars with
  | nil => simp
  | cons c chars ih =>
    obtain ⟨first, tail, shape, -⟩ := readChar_escape c []
    simp only [List.flatMap_cons, shape, List.length_append, List.length_cons]
    omega

theorem readText_written (chars rest : List Char)
    : readText (writeText chars ++ rest) = some (chars, rest) := by
  have long := length_le_flatMap_escape chars
  have enough : chars.length < (chars.flatMap escape ++ '\x22' :: rest).length + 1 := by
    rw [List.length_append]
    omega
  simp only [writeText, List.cons_append, List.append_assoc, List.nil_append, readText]
  exact readChars_written enough rest

theorem readValue_written (value : Value) (rest : List Char)
    : readValue (writeValue value ++ rest) = some (value, rest) := by
  cases value with
  | flag value => cases value <;> rfl
  | text chars =>
    have back := readText_written chars rest
    simp only [writeValue, writeText, List.cons_append] at back ⊢
    exact congrArg (Option.map (fun read => (Value.text read.1, read.2))) back

theorem readEntry_written (entry : List Char × Value) (rest : List Char)
    : readEntry (writeEntry entry ++ rest) = some (entry, rest) := by
  simp [readEntry, writeEntry, readText_written, readValue_written]

theorem readEntries_written {entry : List Char × Value} {entries : Entries} {fuel : Nat}
    (enough : entries.length < fuel)
    : readEntries fuel ([','].intercalate ((entry :: entries).map writeEntry) ++ ['\x7d'])
      = some (entry :: entries) := by
  induction entries generalizing entry fuel with
  | nil =>
    obtain ⟨fuel, rfl⟩ := Nat.exists_eq_succ_of_ne_zero (Nat.ne_of_gt enough)
    simp [readEntries, List.intercalate, readEntry_written]
  | cons next entries ih =>
    obtain ⟨fuel, rfl⟩ := Nat.exists_eq_succ_of_ne_zero (Nat.ne_of_gt (Nat.zero_lt_of_lt enough))
    have later : readEntries fuel
        ([','].intercalate ((next :: entries).map writeEntry) ++ ['\x7d'])
        = some (next :: entries) :=
      ih (Nat.lt_of_succ_lt_succ enough)
    have shape : [','].intercalate ((entry :: next :: entries).map writeEntry) ++ ['\x7d']
        = writeEntry entry
          ++ ',' :: ([','].intercalate ((next :: entries).map writeEntry) ++ ['\x7d']) := by
      simp [List.intercalate]
    rw [shape, readEntries, readEntry_written]
    simp only [Option.bind_eq_bind, Option.bind_some, later]

theorem length_le_intercalate (entry : List Char × Value) (entries : Entries)
    : entries.length < ([','].intercalate ((entry :: entries).map writeEntry)).length := by
  induction entries generalizing entry with
  | nil => simp [List.intercalate, writeEntry, writeText]
  | cons next entries ih =>
    have later := ih next
    have shape : [','].intercalate ((entry :: next :: entries).map writeEntry)
        = writeEntry entry ++ ',' :: [','].intercalate ((next :: entries).map writeEntry) := by
      simp [List.intercalate]
    rw [shape, List.length_append, List.length_cons, List.length_cons]
    omega

/-- The text of an object is read back as its entries. -/
theorem read_write (entries : Entries) : read (write entries) = some entries := by
  cases entries with
  | nil => rfl
  | cons entry entries =>
    have long := length_le_intercalate entry entries
    have enough : entries.length
        < ([','].intercalate ((entry :: entries).map writeEntry) ++ ['\x7d']).length + 1 := by
      rw [List.length_append]
      omega
    have more : [','].intercalate ((entry :: entries).map writeEntry) ++ ['\x7d'] ≠ ['\x7d'] := by
      intro same
      have shorter := congrArg List.length same
      rw [List.length_append, List.length_singleton] at shorter
      omega
    exact (if_neg more).trans (readEntries_written enough)

end Library.FlatJson

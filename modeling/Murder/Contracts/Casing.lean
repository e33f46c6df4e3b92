import Mathlib.Data.String.Basic
import Murder.Contracts.Text

/-! Case mappings and the compatibility form of texts, as far as the tables of Unicode
decide them.
-/

namespace Murder.Contracts

open Library.Trimming

/-- The characters that end a part of a URL's authority, or begin the next one. -/
def isDelimiter (c : Char) : Bool := c ∈ ['/', '?', '#', '@', ':']

def isAscii (c : Char) : Bool := c.toNat < 128

/-- What holds of the first 128 characters holds of every ASCII character. -/
theorem forall_ascii {property : Char → Prop} (each : ∀ code < 128, property (Char.ofNat code))
    {c : Char} (ascii : isAscii c)
    : property c :=
  Char.ofNat_toNat c ▸ each c.toNat (of_decide_eq_true ascii)

/-- `str.casefold`, `str.lower`, `str.upper` and the NFKC form of `unicodedata`, with what
their tables promise: nothing folds or capitalizes to whitespace or to ASCII besides letters,
folding decomposes to no further delimiter, and no composition hides one.
-/
class Unicode where
  casefold : Char → List Char
  lower : List Char → List Char
  upper : Char → List Char
  nfkc : List Char → List Char
  casefold_ascii : ∀ {c}, isAscii c → casefold c = [c.toLower]
  casefold_plain : ∀ {c d}, d ∈ casefold c → isSpace d ∨ isAscii d ∧ ¬ d.isLower → d = c
  casefold_casefold : ∀ c, (casefold c).flatMap casefold = casefold c
  casefold_ne_nil : ∀ c, casefold c ≠ []
  casefold_lower : ∀ text, (lower text).flatMap casefold = text.flatMap casefold
  upper_upper : ∀ c, (upper c).flatMap upper = upper c
  upper_ne_nil : ∀ c, upper c ≠ []
  upper_space : ∀ {c}, isSpace c → upper c = [c]
  upper_solid : ∀ {c d}, d ∈ upper c → isSpace d → isSpace c
  nfkc_ascii : ∀ {c}, isAscii c → nfkc [c] = [c]
  nfkc_delimiter : ∀ {d text}, isDelimiter d → (d ∈ nfkc text ↔ ∃ c ∈ text, d ∈ nfkc [c])
  nfkc_casefold : ∀ {c d e}, isDelimiter d → e ∈ casefold c → d ∈ nfkc [e] → d ∈ nfkc [c]

export Unicode (casefold lower upper nfkc)

variable [Unicode]

/-- `text.casefold()` -/
def fold (text : List Char) : List Char := text.flatMap casefold

/-- `text.upper()` -/
def capitals (text : List Char) : List Char := text.flatMap upper

theorem fold_append (text behind : List Char) : fold (text ++ behind) = fold text ++ fold behind :=
  List.flatMap_append

theorem fold_fold (text : List Char) : fold (fold text) = fold text := by
  unfold fold
  rw [List.flatMap_assoc]
  exact congrArg text.flatMap (funext Unicode.casefold_casefold)

theorem fold_lower (text : List Char) : fold (lower text) = fold text :=
  Unicode.casefold_lower text

variable {text : List Char}

@[simp] theorem fold_eq_nil : fold text = [] ↔ text = [] := by
  constructor
  · intro empty
    cases text with
    | nil => rfl
    | cons c text =>
      have nothing := List.flatMap_eq_nil_iff.mp empty c List.mem_cons_self
      exact absurd nothing (Unicode.casefold_ne_nil c)
  · intro empty
    rw [empty]
    rfl

theorem lower_eq_nil : lower text = [] ↔ text = [] := by
  rw [← fold_eq_nil, fold_lower, fold_eq_nil]

/-- The ASCII characters of a folded text besides letters are those of the text. -/
theorem mem_fold {d : Char} (member : d ∈ fold text) (plain : isSpace d ∨ isAscii d ∧ ¬ d.isLower)
    : d ∈ text := by
  obtain ⟨c, inside, folded⟩ := List.mem_flatMap.mp member
  rw [Unicode.casefold_plain folded plain]
  exact inside

theorem fold_ascii (ascii : ∀ c ∈ text, isAscii c)
    : fold text = text.map Char.toLower := by
  induction text with
  | nil => rfl
  | cons c text ih =>
    have first := Unicode.casefold_ascii (ascii c List.mem_cons_self)
    have later := ih (fun c member => ascii c (List.mem_cons_of_mem _ member))
    unfold fold at later ⊢
    rw [List.flatMap_cons, first, later]
    rfl

theorem capitals_capitals (text : List Char) : capitals (capitals text) = capitals text := by
  unfold capitals
  rw [List.flatMap_assoc]
  exact congrArg text.flatMap (funext Unicode.upper_upper)

theorem trim_capitals (stripped : trim isSpace text = text)
    : trim isSpace (capitals text) = capitals text := by
  obtain ⟨first, last⟩ := trim_ends stripped
  apply trim_of_ends
  · intro d leads space
    cases text with
    | nil => cases leads
    | cons c text =>
      have some_ := Unicode.upper_ne_nil c
      rw [capitals, List.flatMap_cons, List.head?_append_of_ne_nil _ some_] at leads
      exact first c rfl (Unicode.upper_solid (List.mem_of_mem_head? leads) space)
  · intro d ends space
    cases text using List.reverseRecOn with
    | nil => cases ends
    | append_singleton text c =>
      have some_ := Unicode.upper_ne_nil c
      rw [capitals, List.flatMap_append, List.flatMap_singleton,
        List.getLast?_append_of_ne_nil _ some_] at ends
      exact last c (by simp) (Unicode.upper_solid (List.mem_of_getLast? ends) space)

end Murder.Contracts

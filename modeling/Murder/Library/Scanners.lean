import Mathlib.Data.List.Basic

/-! One pass of a pattern over a text, from left to right and without overlaps, and the
distinct items of a list in the order they first occur.
-/

namespace Library.Scanners

/-- Where a pattern matches at the front of a text: what it captures and how long it is. -/
abbrev Matcher := List Char → Option (String × Nat)

/-- A character outside every match, or a match with its capture. -/
inductive Token
  | plain (char : Char)
  | found (name : String) (whole : List Char)
deriving DecidableEq

/-- Scan a text; the first `skip` characters belong to a match already taken. -/
def tokens (matchAt : Matcher) : Nat → List Char → List Token
  | _, [] => []
  | skip + 1, _ :: rest => tokens matchAt skip rest
  | 0, char :: rest =>
    match matchAt (char :: rest) with
    | some found =>
      .found found.1 ((char :: rest).take found.2) :: tokens matchAt (found.2 - 1) rest
    | none => .plain char :: tokens matchAt 0 rest

def Token.name? : Token → Option String
  | .plain _ => none
  | .found name _ => some name

def names (scanned : List Token) : List String :=
  scanned.filterMap Token.name?

/-- Put `body` in place of each match, as a function of its capture and its text. -/
def substitute (body : String → List Char → List Char) (scanned : List Token) : List Char :=
  scanned.flatMap (fun token =>
    match token with
    | .plain char => [char]
    | .found name whole => body name whole)

variable {first second : Matcher} {accepted : String → Prop}

/-- What a scan captures, the pattern captured somewhere. -/
theorem mem_names_tokens {matchAt : Matcher} {skip : Nat} {text : List Char} {name : String}
    (member : name ∈ names (tokens matchAt skip text))
    : ∃ rest length, matchAt rest = some (name, length) := by
  induction text generalizing skip with
  | nil => cases skip <;> simp [tokens, names] at member
  | cons char rest ih =>
    cases skip with
    | succ skip => exact ih member
    | zero =>
      cases here : matchAt (char :: rest) with
      | none =>
        rw [tokens, here] at member
        exact ih (by simpa [names, Token.name?] using member)
      | some found =>
        rw [tokens, here] at member
        simp only [names, Token.name?, List.filterMap_cons, List.mem_cons] at member
        rcases member with same | later
        · exact ⟨char :: rest, found.2, by rw [here, same]⟩
        · exact ih later

/-- Two patterns that differ only in matches outside an accepted set scan a text alike when
the first captures accepted names only, by induction over the text.
-/
theorem tokens_agree
    (agree : ∀ text, first text = second text
      ∨ ∃ name length, first text = some (name, length) ∧ ¬ accepted name)
    {skip : Nat} {text : List Char}
    (all : ∀ name ∈ names (tokens first skip text), accepted name)
    : tokens first skip text = tokens second skip text := by
  induction text generalizing skip with
  | nil => cases skip <;> rfl
  | cons char rest ih =>
    cases skip with
    | succ skip => exact ih all
    | zero =>
      rcases agree (char :: rest) with same | odd
      · rw [tokens] at all
        rw [tokens, tokens, ← same]
        cases here : first (char :: rest) with
        | none =>
          rw [here] at all
          rw [ih (by simpa [names, Token.name?] using all)]
        | some found =>
          rw [here] at all
          simp only [names, Token.name?, List.filterMap_cons, List.mem_cons] at all
          dsimp only
          rw [ih (fun name member => all name (.inr member))]
      · obtain ⟨name, length, here, outside⟩ := odd
        refine absurd (all name ?_) outside
        simp [tokens, here, names, Token.name?]

variable {α : Type} [DecidableEq α]

def addNew (items : List α) (item : α) : List α :=
  if item ∈ items then items else items ++ [item]

def addAll (items more : List α) : List α :=
  more.foldl addNew items

def newOnes (seen : List α) : List α → List α
  | [] => []
  | item :: items =>
    if item ∈ seen then newOnes seen items else item :: newOnes (addNew seen item) items

@[simp] theorem mem_addNew {items : List α} {item other : α}
    : other ∈ addNew items item ↔ other ∈ items ∨ other = item := by
  rw [addNew]
  split
  next listed =>
    constructor
    · intro member
      exact .inl member
    · intro either
      rcases either with member | same
      · exact member
      · exact same ▸ listed
  next fresh => simp

@[simp] theorem mem_addAll {items more : List α} {other : α}
    : other ∈ addAll items more ↔ other ∈ items ∨ other ∈ more := by
  induction more generalizing items with
  | nil => simp [addAll]
  | cons item more ih =>
    rw [addAll, List.foldl_cons]
    change other ∈ addAll (addNew items item) more ↔ _
    rw [ih]
    simp [or_assoc]

theorem addAll_append (items first second : List α)
    : addAll items (first ++ second) = addAll (addAll items first) second :=
  List.foldl_append

theorem addAll_addNew (items kept : List α) (item : α)
    : addAll items (addNew kept item) = addNew (addAll items kept) item := by
  rw [addNew]
  split
  next listed => rw [addNew, if_pos (by simp [listed])]
  next fresh => exact addAll_append items kept [item]

/-- Adding items after dropping their repetitions is adding them. -/
theorem addAll_addAll (items kept more : List α)
    : addAll items (addAll kept more) = addAll (addAll items kept) more := by
  induction more generalizing kept with
  | nil => rfl
  | cons item more ih =>
    calc addAll items (addAll kept (item :: more))
        = addAll items (addAll (addNew kept item) more) := rfl
      _ = addAll (addAll items (addNew kept item)) more := ih _
      _ = addAll (addNew (addAll items kept) item) more := by rw [addAll_addNew]
      _ = addAll (addAll items kept) (item :: more) := rfl

end Library.Scanners

import Mathlib.Data.List.TakeWhile
import Murder.Editor.Compile

/-! The editor's macros against the server's: they differ in the quoted names they take. -/

namespace Murder.Editor

open Murder.Workflows Library.Scanners

/-- A name of the server's grammar: words of identifier characters, a space between two. -/
def WellNamed (name : String) : Prop := nameWords name.toList = true

instance : DecidablePred WellNamed := fun name =>
  inferInstanceAs (Decidable (nameWords name.toList = true))

/-- The editor reads no quoted macro in the text whose name is outside the grammar. -/
def WellQuoted (text : String) : Prop :=
  ∀ name ∈ names (tokens inlineRe 0 text.toList), WellNamed name

instance : DecidablePred WellQuoted := fun text =>
  inferInstanceAs (Decidable (∀ name ∈ names (tokens inlineRe 0 text.toList), WellNamed name))

variable {text : List Char} {name : String}

/-- A quoted macro is a name between `:"` and `":`. -/
theorem quotedMacro_eq_some {allowed : Char → Bool} {accepts : List Char → Bool}
    (closed : allowed '\x22' = false) {length : Nat}
    : quotedMacro allowed accepts text = some (name, length)
      ↔ ∃ chars rest, text = ':' :: '\x22' :: (chars ++ '\x22' :: ':' :: rest)
          ∧ chars.all allowed = true ∧ accepts chars = true ∧ String.ofList chars = name
          ∧ chars.length + 4 = length := by
  constructor
  · intro h
    unfold quotedMacro at h
    split at h
    next rest =>
      dsimp only at h
      split at h
      next after tail =>
        split at h
        next taken =>
          simp only [Option.some.injEq, Prod.mk.injEq] at h
          refine ⟨rest.takeWhile allowed, after, ?_, by simp, taken, h.1, h.2⟩
          rw [← tail, List.prefix_iff_eq_append.mp (List.takeWhile_prefix allowed)]
        next refused => cases h
      next => cases h
    next => cases h
  · intro h
    obtain ⟨chars, rest, rfl, all, taken, rfl, rfl⟩ := h
    have longest : (chars ++ '\x22' :: ':' :: rest).takeWhile allowed = chars := by
      rw [List.takeWhile_append_of_pos (by simpa using all)]
      simp [closed]
    simp [quotedMacro, longest, taken]

variable {chars : List Char}

/-- What holds of the characters of all words holds of every character but the spaces. -/
theorem splitOn_chars {property : Char → Prop}
    (words : ∀ word ∈ chars.splitOn ' ', ∀ char ∈ word, property char)
    : ∀ char ∈ chars, property char ∨ char = ' ' := by
  induction chars with
  | nil => simp
  | cons head rest ih =>
    rw [List.splitOn, List.splitOnP_cons_eq_if_modifyHead] at words
    intro char member
    split at words
    next space =>
      rcases List.mem_cons.mp member with same | later
      · exact .inr (same.trans (eq_of_beq space))
      · exact ih (fun word listed => words word (List.mem_cons_of_mem _ listed)) char later
    next other =>
      cases split : rest.splitOnP (· == ' ') with
      | nil => exact absurd split (List.splitOnP_ne_nil _ _)
      | cons first others =>
        rw [split, List.modifyHead_cons] at words
        have longer := words (head :: first) List.mem_cons_self
        rcases List.mem_cons.mp member with same | later
        · exact .inl (same ▸ longer head List.mem_cons_self)
        · apply ih ?_ char later
          intro word listed letter inside
          rw [List.splitOn, split] at listed
          rcases List.mem_cons.mp listed with here | later
          · exact longer letter (List.mem_cons_of_mem _ (here ▸ inside))
          · exact words word (List.mem_cons_of_mem _ later) letter inside

theorem nameWords_chars (named : nameWords chars = true)
    : ∀ char ∈ chars, identifierChar char = true ∨ char = ' ' := by
  apply splitOn_chars
  intro word listed
  have fine := List.all_eq_true.mp named word listed
  exact List.all_eq_true.mp (Bool.and_eq_true_iff.mp fine).2

theorem nameWords_of_identifier (nonempty : chars ≠ [])
    (all : ∀ char ∈ chars, identifierChar char = true)
    : nameWords chars = true := by
  have single : chars.splitOn ' ' = [chars] := by
    apply List.splitOnP_eq_singleton
    intro char member
    have identifier := all char member
    by_contra space
    have same : char = ' ' := by simpa using space
    subst same
    revert identifier
    decide
  simpa [nameWords, single, nonempty] using all

theorem ne_nil_of_nameWords (named : nameWords chars = true)
    : chars ≠ [] := by
  intro empty
  subst empty
  revert named
  decide

theorem quotedChar_of_name {char : Char} (allowed : identifierChar char = true ∨ char = ' ')
    : quotedChar char = true := by
  by_contra closed
  have cases_ : char = '\x22' ∨ char = '\r' ∨ char = '\n' ∨ char = ':' := by
    by_contra none_
    simp only [not_or] at none_
    exact closed (by simp [quotedChar, none_])
  rcases cases_ with same | same | same | same <;> subst same <;> revert allowed <;> decide

/-- The characters of a name in the server's quoted macros. -/
def nameChar (char : Char) : Bool := identifierChar char || char == ' '

/-- The editor reads the server's quoted macros, and among others only those. -/
theorem quotedMacro_named {length : Nat}
    : quotedMacro nameChar nameWords text = some (name, length)
      ↔ quotedMacro quotedChar (fun chars => !chars.isEmpty) text = some (name, length)
        ∧ WellNamed name := by
  rw [quotedMacro_eq_some (by decide), quotedMacro_eq_some (by decide)]
  constructor
  · intro h
    obtain ⟨chars, rest, same, -, named, rfl, length⟩ := h
    refine ⟨⟨chars, rest, same, ?_, ?_, rfl, length⟩, by simpa [WellNamed] using named⟩
    · apply List.all_eq_true.mpr
      intro char member
      exact quotedChar_of_name (nameWords_chars named char member)
    · simpa using ne_nil_of_nameWords named
  · intro h
    obtain ⟨⟨chars, rest, same, -, -, rfl, length⟩, named⟩ := h
    have named : nameWords chars = true := by simpa [WellNamed] using named
    refine ⟨chars, rest, same, ?_, named, rfl, length⟩
    apply List.all_eq_true.mpr
    intro char member
    simpa [nameChar] using nameWords_chars named char member

/-- Where the two patterns differ, the editor reads a name outside the grammar. -/
theorem inlineRe_agrees (text : List Char)
    : inlineRe text = inlinePromptTemplate text
      ∨ ∃ name length, inlineRe text = some (name, length) ∧ ¬ WellNamed name := by
  have server
      : inlinePromptTemplate text = (quotedMacro nameChar nameWords text).or (bareMacro text) :=
    rfl
  cases quoted : quotedMacro quotedChar (fun chars => !chars.isEmpty) text with
  | none =>
    have unquoted : quotedMacro nameChar nameWords text = none := by
      by_contra some_
      obtain ⟨found, some_⟩ := Option.ne_none_iff_exists'.mp some_
      have read := (quotedMacro_named.mp some_).1
      rw [quoted] at read
      cases read
    exact .inl (by rw [inlineRe, server, quoted, unquoted])
  | some found =>
    by_cases named : WellNamed found.1
    · have both : quotedMacro nameChar nameWords text = some found :=
        quotedMacro_named.mpr ⟨quoted, named⟩
      exact .inl (by rw [inlineRe, server, quoted, both])
    · exact .inr ⟨found.1, found.2, by simp [inlineRe, quoted], named⟩

/-- The server reads names of its grammar only. -/
theorem wellNamed_of_inlinePromptTemplate {length : Nat}
    (read : inlinePromptTemplate text = some (name, length))
    : WellNamed name := by
  have server
      : inlinePromptTemplate text = (quotedMacro nameChar nameWords text).or (bareMacro text) :=
    rfl
  rw [server, Option.or_eq_some_iff] at read
  rcases read with quoted | bare
  · exact (quotedMacro_named.mp quoted).2
  · have bare := bare.2
    unfold bareMacro at bare
    split at bare
    next start rest =>
      split at bare
      next opens =>
        dsimp only at bare
        split at bare
        next after tail =>
          simp only [Option.some.injEq, Prod.mk.injEq] at bare
          obtain ⟨same, -⟩ := bare
          rw [← same, WellNamed, String.toList_ofList]
          apply nameWords_of_identifier (by simp)
          intro char member
          rcases List.mem_cons.mp member with first | later
          · subst first
            simp only [Bool.and_eq_true] at opens
            exact opens.1.1
          · exact List.mem_takeWhile_imp later
        next => cases bare
      next => cases bare
    next => cases bare

theorem WellQuoted.tokens {text : String} (quoted : WellQuoted text)
    : tokens inlineRe 0 text.toList = tokens inlinePromptTemplate 0 text.toList :=
  tokens_agree inlineRe_agrees quoted

theorem wellNamed_of_unknown {templates : PromptTemplates} {text : String}
    (unknown : name ∈ unknownWith inlinePromptTemplate templates text)
    : WellNamed name := by
  simp only [unknownWith, mem_addAll, List.not_mem_nil, false_or, List.mem_filter] at unknown
  obtain ⟨rest, length, read⟩ := mem_names_tokens unknown.1
  exact wellNamed_of_inlinePromptTemplate read

/-- A badly quoted text names a template the editor does not know, when the templates have
names of the grammar.
-/
theorem exists_unknown_of_not_wellQuoted {templates : PromptTemplates} {text : String}
    (valid : ∀ name ∈ templates, WellNamed name) (badly : ¬ WellQuoted text)
    : ∃ name ∈ unknownWith inlineRe templates text, ¬ WellNamed name := by
  simp only [WellQuoted, not_forall] at badly
  obtain ⟨name, read, outside⟩ := badly
  refine ⟨name, ?_, outside⟩
  have absent : templates.lookup name = none := by
    apply AList.lookup_eq_none.mpr
    intro listed
    exact outside (valid name listed)
  simp [unknownWith, read, absent]

end Murder.Editor

import Murder.Library.Transactions
import Murder.Triggers.Cron

/-! The documented grammar of a cron field, `*`, `N`, `N-M`, `*/S` and `N-M/S` in a comma list,
and when the parser follows it.
-/

namespace Murder.Triggers

open Contracts Library.Transactions

/-- An item of the grammar. -/
inductive CronItem
  | all
  | one (number : Int)
  | between (first last : Int)
  | every (step : Int)
  | stepped (first last step : Int)
deriving DecidableEq

variable {item : CronItem}

namespace CronItem

variable (minimum maximum : Int)

/-- What an item means between the bounds of its field. -/
def values : CronItem → Finset Int
  | .all => intRange minimum maximum
  | .one number => {number}
  | .between first last => intRange first last
  | .every step => (intRange minimum maximum).filter (fun value => step ∣ value - minimum)
  | .stepped first last step => (intRange first last).filter (fun value => step ∣ value - first)

def InRange : CronItem → Prop
  | .all => True
  | .one number => minimum ≤ number ∧ number ≤ maximum
  | .between first last => minimum ≤ first ∧ first ≤ last ∧ last ≤ maximum
  | .every step => 0 < step
  | .stepped first last step => minimum ≤ first ∧ first ≤ last ∧ last ≤ maximum ∧ 0 < step

variable {minimum maximum}

theorem values_subset (ranged : item.InRange minimum maximum)
    : item.values minimum maximum ⊆ intRange minimum maximum := by
  cases item with
  | all => exact Finset.Subset.refl _
  | one number => exact Finset.singleton_subset_iff.mpr (mem_intRange.mpr ranged)
  | between first last =>
    exact intRange_subset ranged.1 ranged.2.2
  | every step => exact Finset.filter_subset _ _
  | stepped first last step =>
    exact (Finset.filter_subset _ _).trans (intRange_subset ranged.1 ranged.2.2.1)

/-- Every item in range means something: the first value it can take. -/
theorem values_nonempty (bounds : minimum ≤ maximum) (ranged : item.InRange minimum maximum)
    : (item.values minimum maximum).Nonempty := by
  cases item with
  | all => exact Finset.nonempty_Icc.mpr bounds
  | one number => exact Finset.singleton_nonempty number
  | between first last => exact Finset.nonempty_Icc.mpr ranged.2.1
  | every step => exact ⟨minimum, by simp [values, bounds]⟩
  | stepped first last step => exact ⟨first, by simp [values, ranged.2.1]⟩

end CronItem

variable {α : Type}

theorem mem_dropWhile_or {keep : α → Bool} {items : List α} {item : α} (member : item ∈ items)
    : keep item ∨ item ∈ items.dropWhile keep := by
  have parts : items.takeWhile keep ++ items.dropWhile keep = items :=
    List.takeWhile_append_dropWhile
  rw [← parts] at member
  rcases List.mem_append.mp member with front | behind
  · exact .inl (List.mem_takeWhile_imp front)
  · exact .inr behind

variable {text : List Char}

theorem mem_signed {c : Char} (member : c ∈ text)
    : c = '-' ∨ c = '+' ∨ c ∈ (signed text).2 := by
  fun_cases signed text with
  | case1 rest =>
    rcases List.mem_cons.mp member with same | member
    · exact .inl same
    · exact .inr (.inr member)
  | case2 rest =>
    rcases List.mem_cons.mp member with same | member
    · exact .inr (.inl same)
    · exact .inr (.inr member)
  | case3 => exact .inr (.inr member)

theorem mem_trimBlanks {c : Char} (member : c ∈ text)
    : intBlank c ∨ c ∈ trimBlanks text := by
  rcases mem_dropWhile_or member with blank | member
  · exact .inl blank
  · rcases mem_dropWhile_or (List.mem_reverse.mpr member) with blank | member
    · exact .inl blank
    · exact .inr (List.mem_reverse.mpr member)

theorem splitOnce_append {separator : Char} {left right : List Char} (free : separator ∉ left)
    : splitOnce separator (left ++ separator :: right) = (left, right) := by
  have before : ∀ c ∈ left, (!decide (c = separator)) = true := by
    intro c member
    simpa using fun same : c = separator => free (same ▸ member)
  simp [splitOnce, List.takeWhile_append_of_pos before, List.dropWhile_append_of_pos before]

theorem ne_star (starless : '*' ∉ text) : text ≠ ['*'] :=
  fun same => starless (same ▸ List.mem_singleton_self _)

variable {number : Int}

theorem stepsBetween_lone {step : Int} : stepsBetween number number step = {number} := by
  have lone : intRange number number = {number} := by
    ext value
    rw [mem_intRange, Finset.mem_singleton]
    omega
  rw [stepsBetween, lone]
  simp [Finset.filter_singleton]

/-- A base without a star in front of a slash is not read as `*/S`. -/
theorem not_starred {base rest : List Char} (starless : '*' ∉ base)
    : ¬ ['*', '/'].isPrefixOf (base ++ '/' :: rest) := by
  cases base with
  | nil => simp [List.isPrefixOf]
  | cons head tail =>
    have other : '*' ≠ head := fun same => starless (same ▸ List.mem_cons_self)
    simp [List.isPrefixOf, other]

section Numbers

variable [DecimalDigits]

def numberChar (c : Char) : Bool :=
  intBlank c || c == '-' || c == '+' || c == '_' || (intDigit c).isSome

theorem readDigits_chars {digits : List Nat} (read : readDigits text = some digits)
    : ∀ c ∈ text, numberChar c := by
  fun_induction readDigits text generalizing digits with
  | case1 => cases read
  | case2 last =>
    intro c member
    obtain rfl := List.mem_singleton.mp member
    obtain ⟨digit, value, -⟩ := Option.map_eq_some_iff.mp read
    simp [numberChar, value]
  | case3 first rest ih =>
    obtain ⟨digit, value, read⟩ := Option.bind_eq_some_iff.mp read
    obtain ⟨more, later, -⟩ := Option.bind_eq_some_iff.mp read
    intro c member
    rcases List.mem_cons.mp member with rfl | member
    · simp [numberChar, value]
    · rcases List.mem_cons.mp member with rfl | member
      · simp [numberChar]
      · exact ih later c member
  | case4 first rest _ _ ih =>
    obtain ⟨digit, value, read⟩ := Option.bind_eq_some_iff.mp read
    obtain ⟨more, later, -⟩ := Option.bind_eq_some_iff.mp read
    intro c member
    rcases List.mem_cons.mp member with rfl | member
    · simp [numberChar, value]
    · exact ih later c member

theorem readInt_chars (read : readInt text = some number)
    : ∀ c ∈ text, numberChar c := by
  intro c member
  rcases mem_trimBlanks member with blank | member
  · simp [numberChar, blank]
  · rcases mem_signed member with rfl | rfl | member
    · rfl
    · rfl
    · cases digits : readDigits (signed (trimBlanks text)).2 with
      | none => simp [readInt, digits] at read
      | some values => exact readDigits_chars digits c member

/-- No mark of the grammar stands in a number, the dash apart. -/
theorem readInt_marks (read : readInt text = some number)
    : '/' ∉ text ∧ '*' ∉ text ∧ text ≠ [] := by
  refine ⟨fun slash => ?_, fun star => ?_, ?_⟩
  · exact absurd (readInt_chars read '/' slash) (by simp [numberChar, intBlank, intDigit])
  · exact absurd (readInt_chars read '*' star) (by simp [numberChar, intBlank, intDigit])
  · intro empty
    subst empty
    cases read

end Numbers

def fieldValues (minimum maximum : Int) (items : List CronItem) : Finset Int :=
  items.foldr (fun item values => item.values minimum maximum ∪ values) ∅

variable {items : List CronItem}

theorem fieldValues_subset {minimum maximum : Int}
    (ranged : ∀ item ∈ items, item.InRange minimum maximum)
    : fieldValues minimum maximum items ⊆ intRange minimum maximum := by
  induction items with
  | nil => exact Finset.empty_subset _
  | cons item items ih =>
    obtain ⟨here, later⟩ := List.forall_mem_cons.mp ranged
    exact Finset.union_subset (CronItem.values_subset here) (ih later)

theorem fieldValues_nonempty {minimum maximum : Int}
    (bounds : minimum ≤ maximum) (some_ : items ≠ [])
    (ranged : ∀ item ∈ items, item.InRange minimum maximum)
    : (fieldValues minimum maximum items).Nonempty := by
  cases items with
  | nil => exact absurd rfl some_
  | cons item items =>
    exact (CronItem.values_nonempty bounds (ranged item List.mem_cons_self)).mono
      Finset.subset_union_left

variable {field : List Char} {segments : List (List Char)}

section Grammar

variable [DecimalDigits]

/-- How an item is written. A number is a text that `int` reads, and the first dash of an item
makes it a range.
-/
inductive Written : List Char → CronItem → Prop
  | all : Written ['*'] .all
  | one {text : List Char} {number : Int} (dashless : '-' ∉ text)
      (read : readInt text = some number)
      : Written text (.one number)
  | between {left right : List Char} {first last : Int} (dashless : '-' ∉ left)
      (readFirst : readInt left = some first) (readLast : readInt right = some last)
      : Written (left ++ '-' :: right) (.between first last)
  | every {stepText : List Char} {step : Int} (readStep : readInt stepText = some step)
      : Written ('*' :: '/' :: stepText) (.every step)
  | stepped {left right stepText : List Char} {first last step : Int} (dashless : '-' ∉ left)
      (readFirst : readInt left = some first) (readLast : readInt right = some last)
      (readStep : readInt stepText = some step)
      : Written (left ++ '-' :: right ++ '/' :: stepText) (.stepped first last step)

/-- A lone number with a step, `N/S`. -/
inductive LoneStep : List Char → Int → Prop
  | intro {base stepText : List Char} {number step : Int} (dashless : '-' ∉ base)
      (read : readInt base = some number) (readStep : readInt stepText = some step)
      (positive : 0 < step)
      : LoneStep (base ++ '/' :: stepText) number

def FieldItems (field : List Char) (items : List CronItem) : Prop :=
  List.Forall₂ (fun segment item => Written (stripChars segment) item) (field.splitOn ',') items

/-- Each segment is an item in range or a lone number with a step, and one is the latter. -/
structure HasLoneStep (field : List Char) (minimum maximum : Int) : Prop where
  readable
    : ∀ segment ∈ field.splitOn ',',
        (∃ item, Written (stripChars segment) item ∧ item.InRange minimum maximum)
        ∨ ∃ number, LoneStep (stripChars segment) number
  lone : ∃ segment ∈ field.splitOn ',', ∃ number, LoneStep (stripChars segment) number

def readItem (text : List Char) : Option CronItem :=
  if '/' ∈ text then do
    let (base, stepText) := splitOnce '/' text
    let step ← readInt stepText
    if base = ['*'] then some (.every step)
    else if '-' ∈ base then do
      let first ← readInt (splitOnce '-' base).1
      let last ← readInt (splitOnce '-' base).2
      some (.stepped first last step)
    else none
  else if text = ['*'] then some .all
  else if '-' ∈ text then do
    let first ← readInt (splitOnce '-' text).1
    let last ← readInt (splitOnce '-' text).2
    some (.between first last)
  else (readInt text).map .one

theorem Written.readItem (written : Written text item)
    : readItem text = some item := by
  cases written with
  | all => rfl
  | one dashless read =>
    obtain ⟨slashless, starless, -⟩ := readInt_marks read
    simp [Triggers.readItem, slashless, ne_star starless, dashless, read]
  | @between left right first last dashless readFirst readLast =>
    obtain ⟨slashless, starless, -⟩ := readInt_marks readFirst
    obtain ⟨slashless', starless', -⟩ := readInt_marks readLast
    have star : left ++ '-' :: right ≠ ['*'] := ne_star (by simp [starless, starless'])
    simp [Triggers.readItem, slashless, slashless', splitOnce_append dashless, readFirst,
      readLast, star]
  | every readStep => simp [Triggers.readItem, splitOnce, readStep]
  | @stepped left right stepText first last step dashless readFirst readLast readStep =>
    obtain ⟨slashless, starless, -⟩ := readInt_marks readFirst
    obtain ⟨slashless', starless', -⟩ := readInt_marks readLast
    have star : left ++ '-' :: right ≠ ['*'] := ne_star (by simp [starless, starless'])
    have parts : splitOnce '/' (left ++ '-' :: right ++ '/' :: stepText)
        = (left ++ '-' :: right, stepText) :=
      splitOnce_append (by simp [slashless, slashless'])
    unfold Triggers.readItem
    rw [if_pos (by simp), parts]
    simp [readStep, star, splitOnce_append dashless, readFirst, readLast]

theorem LoneStep.not_written (lone : LoneStep text number)
    : ¬ Written text item := by
  intro written
  have read := written.readItem
  cases lone with
  | intro dashless readBase readStep positive =>
    obtain ⟨slashless, starless, -⟩ := readInt_marks readBase
    simp [Triggers.readItem, splitOnce_append slashless, readStep, ne_star starless, dashless]
      at read

theorem FieldItems.ne_nil (spelled : FieldItems field items)
    : items ≠ [] := by
  intro empty
  subst empty
  exact List.splitOn_ne_nil ',' field (List.forall₂_nil_right_iff.mp spelled)

theorem exists_items {minimum maximum : Int}
    (written : ∀ segment ∈ segments,
      ∃ item, Written (stripChars segment) item ∧ item.InRange minimum maximum)
    : ∃ items, List.Forall₂ (fun segment item => Written (stripChars segment) item) segments items
        ∧ ∀ item ∈ items, item.InRange minimum maximum := by
  induction segments with
  | nil => exact ⟨[], .nil, fun _ member => (List.not_mem_nil member).elim⟩
  | cons segment rest ih =>
    obtain ⟨⟨item, first, ranged⟩, later⟩ := List.forall_mem_cons.mp written
    obtain ⟨items, spelled, within⟩ := ih later
    exact ⟨item :: items, .cons first spelled, List.forall_mem_cons.mpr ⟨ranged, within⟩⟩

theorem FieldItems.item_of_segment {segment : List Char}
    (spelled : FieldItems field items) (member : segment ∈ field.splitOn ',')
    : ∃ item, Written (stripChars segment) item := by
  obtain ⟨place, bound, rfl⟩ := List.mem_iff_getElem.mp member
  obtain ⟨sameLength, spelled⟩ := List.forall₂_iff_get.mp spelled
  exact ⟨_, spelled place bound (sameLength ▸ bound)⟩

end Grammar

/-- A call fails with a `ValueError` if it fails. -/
def OnlyValueError {α : Type} (call : Except CronError α) : Prop :=
  ∀ error, call = .error error → ∃ message, error = .valueError message

theorem OnlyValueError.bind {β : Type} {call : Except CronError α}
    {rest : α → Except CronError β} (first : OnlyValueError call)
    (later : ∀ value, OnlyValueError (rest value))
    : OnlyValueError (call >>= rest) := by
  intro error failed
  cases call with
  | error raised =>
    cases failed
    exact first error rfl
  | ok value => exact later value error failed

theorem OnlyValueError.ok (value : α)
    : OnlyValueError (.ok value : Except CronError α) := by
  intro error failed
  cases failed

theorem OnlyValueError.raised (message : String)
    : OnlyValueError (.error (.valueError message) : Except CronError α) := by
  intro error failed
  cases failed
  exact ⟨message, rfl⟩

theorem OnlyValueError.ite {condition : Prop} [Decidable condition]
    {first second : Except CronError α} (yes : OnlyValueError first) (no : OnlyValueError second)
    : OnlyValueError (if condition then first else second) := by
  split
  · exact yes
  · exact no

variable {values : Finset Int} {chunk : List Char}

section Parser

variable [PyRepr] [DecimalDigits]

/-- The parser keeps to the grammar at a field. -/
structure FollowsGrammar (field : List Char) (minimum maximum : Int) : Prop where
  sound
    : (∃ message, parseField field minimum maximum = .error (.valueError message))
      ∨ ∃ values items, parseField field minimum maximum = .ok values
          ∧ values.Nonempty ∧ values ⊆ intRange minimum maximum
          ∧ FieldItems field items ∧ values = fieldValues minimum maximum items
  complete
    : ∀ items, FieldItems field items → (∀ item ∈ items, item.InRange minimum maximum)
        → ∃ values, parseField field minimum maximum = .ok values

theorem cronInt_ok
    : cronInt text field = .ok number ↔ readInt text = some number := by
  unfold cronInt
  cases readInt text <;> simp

theorem cronStep_ok {step : Int}
    : cronStep text field = .ok step ↔ readInt text = some step ∧ 0 < step := by
  unfold cronStep
  rw [except_bind_ok]
  constructor
  · intro accepted
    obtain ⟨read, accepted, positive⟩ := accepted
    split at positive
    · cases positive
    · cases positive
      exact ⟨cronInt_ok.mp accepted, by omega⟩
  · intro accepted
    refine ⟨step, cronInt_ok.mpr accepted.1, ?_⟩
    rw [if_neg (by omega)]

/-- The three ways to write a base. -/
theorem cronRange_ok {minimum maximum first last : Int}
    : cronRange text minimum maximum field = .ok (first, last)
      ↔ text = ['*'] ∧ first = minimum ∧ last = maximum
        ∨ '-' ∉ text ∧ readInt text = some first ∧ last = first
        ∨ ∃ left right, text = left ++ '-' :: right ∧ '-' ∉ left ∧ readInt left = some first
            ∧ readInt right = some last ∧ minimum ≤ first ∧ first ≤ last ∧ last ≤ maximum := by
  constructor
  · intro accepted
    unfold cronRange at accepted
    split at accepted
    · next star =>
        cases accepted
        exact .inl ⟨star, rfl, rfl⟩
    · next star =>
        split at accepted
        · next dashless =>
            obtain ⟨number, read, accepted⟩ := except_bind_ok.mp accepted
            cases accepted
            exact .inr (.inl ⟨dashless, cronInt_ok.mp read, rfl⟩)
        · next dash =>
            obtain ⟨left, right, rfl, free⟩ :=
              List.eq_append_cons_of_mem (Classical.not_not.mp dash)
            rw [splitOnce_append free] at accepted
            obtain ⟨start, readStart, accepted⟩ := except_bind_ok.mp accepted
            obtain ⟨stop, readStop, accepted⟩ := except_bind_ok.mp accepted
            split at accepted
            · cases accepted
            · cases accepted
              exact .inr (.inr ⟨left, right, rfl, free, cronInt_ok.mp readStart,
                cronInt_ok.mp readStop, by omega, by omega, by omega⟩)
  · intro written
    rcases written with ⟨rfl, rfl, rfl⟩ | ⟨dashless, read, rfl⟩
      | ⟨left, right, rfl, free, readStart, readStop, ranged⟩
    · rfl
    · unfold cronRange
      rw [if_neg (ne_star (readInt_marks read).2.1), if_pos dashless]
      exact except_bind_ok.mpr ⟨last, cronInt_ok.mpr read, rfl⟩
    · have star : left ++ '-' :: right ≠ ['*'] := by
        intro same
        have dash : '-' ∈ ['*'] := same ▸ List.mem_append_right left List.mem_cons_self
        exact absurd dash (by decide)
      unfold cronRange
      rw [if_neg star, if_neg (by simp), splitOnce_append free]
      refine except_bind_ok.mpr ⟨first, cronInt_ok.mpr readStart,
        except_bind_ok.mpr ⟨last, cronInt_ok.mpr readStop, ?_⟩⟩
      rw [if_neg (by omega)]

/-- A segment with a slash behind a base that is no star. -/
theorem parseChunk_slash {base stepText : List Char} {minimum maximum : Int}
    (slashless : '/' ∉ base) (starless : '*' ∉ base)
    : parseChunk (base ++ '/' :: stepText) minimum maximum field = .ok values
      ↔ ∃ step first last, readInt stepText = some step ∧ 0 < step
          ∧ cronRange base minimum maximum field = .ok (first, last)
          ∧ values = stepsBetween first last step := by
  unfold parseChunk
  rw [if_neg (by simp), if_neg (not_starred starless), if_pos (by simp),
    splitOnce_append slashless]
  constructor
  · intro accepted
    obtain ⟨step, readStep, accepted⟩ := except_bind_ok.mp accepted
    obtain ⟨⟨first, last⟩, ranged, accepted⟩ := except_bind_ok.mp accepted
    cases accepted
    obtain ⟨readStep, positive⟩ := cronStep_ok.mp readStep
    exact ⟨step, first, last, readStep, positive, ranged, rfl⟩
  · intro written
    obtain ⟨step, first, last, readStep, positive, ranged, rfl⟩ := written
    exact except_bind_ok.mpr ⟨step, cronStep_ok.mpr ⟨readStep, positive⟩,
      except_bind_ok.mpr ⟨(first, last), ranged, rfl⟩⟩

/-- An item in range is accepted with its meaning. -/
theorem parseChunk_of_written {minimum maximum : Int}
    (written : Written chunk item) (ranged : item.InRange minimum maximum)
    : parseChunk chunk minimum maximum field = .ok (item.values minimum maximum) := by
  cases written with
  | all => rfl
  | @one text number dashless read =>
    obtain ⟨slashless, starless, filled⟩ := readInt_marks read
    have starred : ¬ ['*', '/'].isPrefixOf chunk := by
      intro starred
      exact starless ((List.isPrefixOf_iff_prefix.mp starred).subset List.mem_cons_self)
    unfold parseChunk
    rw [if_neg filled, if_neg starred, if_neg slashless, if_neg (ne_star starless),
      if_neg dashless]
    refine except_bind_ok.mpr ⟨number, cronInt_ok.mpr read, ?_⟩
    rw [if_neg (by have := ranged.1; have := ranged.2; omega)]
    rfl
  | @between left right first last dashless readFirst readLast =>
    obtain ⟨slashless, starless, filled⟩ := readInt_marks readFirst
    obtain ⟨slashless', starless', -⟩ := readInt_marks readLast
    have starred : ¬ ['*', '/'].isPrefixOf (left ++ '-' :: right) := by
      intro starred
      have star := (List.isPrefixOf_iff_prefix.mp starred).subset List.mem_cons_self
      simp [starless, starless'] at star
    unfold parseChunk
    rw [if_neg (by simp), if_neg starred, if_neg (by simp [slashless, slashless']),
      if_neg (ne_star (by simp [starless, starless'])), if_pos (by simp)]
    exact except_bind_ok.mpr ⟨(first, last), cronRange_ok.mpr (.inr (.inr
      ⟨left, right, rfl, dashless, readFirst, readLast, ranged⟩)), rfl⟩
  | @every stepText step readStep =>
    have marked : ['*', '/'].isPrefixOf ('*' :: '/' :: stepText) := by simp [List.isPrefixOf]
    unfold parseChunk
    rw [if_neg (by simp), if_pos marked]
    exact except_bind_ok.mpr ⟨step, cronStep_ok.mpr ⟨readStep, ranged⟩, rfl⟩
  | @stepped left right stepText first last step dashless readFirst readLast readStep =>
    obtain ⟨slashless, starless, -⟩ := readInt_marks readFirst
    obtain ⟨slashless', starless', -⟩ := readInt_marks readLast
    obtain ⟨lower, ordered, upper, positive⟩ := ranged
    exact (parseChunk_slash (by simp [slashless, slashless'])
      (by simp [starless, starless'])).mpr ⟨step, first, last, readStep, positive,
        cronRange_ok.mpr (.inr (.inr ⟨left, right, rfl, dashless, readFirst, readLast,
          lower, ordered, upper⟩)), rfl⟩

theorem parseChunk_of_loneStep {minimum maximum : Int} (lone : LoneStep chunk number)
    : parseChunk chunk minimum maximum field = .ok {number} := by
  cases lone with
  | @intro base stepText _ step dashless read readStep positive =>
    obtain ⟨slashless, starless, -⟩ := readInt_marks read
    exact (parseChunk_slash slashless starless).mpr ⟨step, number, number, readStep, positive,
      cronRange_ok.mpr (.inr (.inl ⟨dashless, read, rfl⟩)), stepsBetween_lone.symm⟩

/-- Nothing else is accepted, by the tests of the parser in their order. -/
theorem parseChunk_ok {minimum maximum : Int}
    (accepted : parseChunk chunk minimum maximum field = .ok values)
    : (∃ item, Written chunk item ∧ item.InRange minimum maximum
        ∧ values = item.values minimum maximum)
      ∨ ∃ number, LoneStep chunk number ∧ values = {number} := by
  by_cases slash : '/' ∈ chunk
  · obtain ⟨base, stepText, rfl, slashless⟩ := List.eq_append_cons_of_mem slash
    by_cases starred : ['*', '/'].isPrefixOf (base ++ '/' :: stepText)
    · obtain ⟨rest, shape⟩ := List.isPrefixOf_iff_prefix.mp starred
      unfold parseChunk at accepted
      rw [if_neg (by simp), if_pos starred] at accepted
      obtain ⟨step, readStep, accepted⟩ := except_bind_ok.mp accepted
      obtain ⟨readStep, positive⟩ := cronStep_ok.mp readStep
      cases accepted
      rw [← shape] at readStep ⊢
      exact .inl ⟨.every step, .every readStep, positive, rfl⟩
    · have marked : ¬ base = ['*'] := by
        intro same
        subst same
        exact starred (by simp [List.isPrefixOf])
      unfold parseChunk at accepted
      rw [if_neg (by simp), if_neg starred, if_pos slash, splitOnce_append slashless] at accepted
      obtain ⟨step, readStep, accepted⟩ := except_bind_ok.mp accepted
      obtain ⟨⟨first, last⟩, ranged, accepted⟩ := except_bind_ok.mp accepted
      obtain ⟨readStep, positive⟩ := cronStep_ok.mp readStep
      cases accepted
      rcases cronRange_ok.mp ranged with ⟨star, -⟩ | ⟨dashless, read, rfl⟩
        | ⟨left, right, rfl, dashless, readFirst, readLast, lower, ordered, upper⟩
      · exact absurd star marked
      · exact .inr ⟨_, .intro dashless read readStep positive, stepsBetween_lone⟩
      · exact .inl ⟨.stepped first last step, .stepped dashless readFirst readLast readStep,
          ⟨lower, ordered, upper, positive⟩, rfl⟩
  · have starred : ¬ ['*', '/'].isPrefixOf chunk := by
      intro starred
      exact slash ((List.isPrefixOf_iff_prefix.mp starred).subset (by simp))
    unfold parseChunk at accepted
    rw [if_neg starred, if_neg slash] at accepted
    split at accepted
    · cases accepted
    · split at accepted
      · next star =>
          cases accepted
          exact .inl ⟨.all, star ▸ .all, trivial, rfl⟩
      · next star =>
          split at accepted
          · next dash =>
              obtain ⟨⟨first, last⟩, ranged, accepted⟩ := except_bind_ok.mp accepted
              cases accepted
              rcases cronRange_ok.mp ranged with ⟨same, -⟩ | ⟨dashless, -⟩
                | ⟨left, right, rfl, dashless, readFirst, readLast, ranged⟩
              · exact absurd same star
              · exact absurd dash dashless
              · exact .inl ⟨.between first last, .between dashless readFirst readLast, ranged, rfl⟩
          · next dashless =>
              obtain ⟨number, read, accepted⟩ := except_bind_ok.mp accepted
              split at accepted
              · cases accepted
              · cases accepted
                exact .inl ⟨.one number, .one dashless (cronInt_ok.mp read),
                  ⟨by omega, by omega⟩, rfl⟩

theorem cronInt_valueError (text field : List Char) : OnlyValueError (cronInt text field) := by
  unfold cronInt
  cases readInt text with
  | none => exact .raised _
  | some number => exact .ok number

theorem cronStep_valueError (text field : List Char) : OnlyValueError (cronStep text field) :=
  (cronInt_valueError text field).bind (fun step => .ite (.raised _) (.ok step))

theorem cronRange_valueError (text field : List Char) (minimum maximum : Int)
    : OnlyValueError (cronRange text minimum maximum field) :=
  .ite (.ok _) (.ite ((cronInt_valueError _ _).bind (fun value => .ok (value, value)))
    ((cronInt_valueError _ _).bind (fun start => (cronInt_valueError _ _).bind (fun stop =>
      .ite (.raised _) (.ok (start, stop))))))

/-- Every failure of a segment is a `ValueError`, by its branches. -/
theorem parseChunk_valueError (chunk field : List Char) (minimum maximum : Int)
    : OnlyValueError (parseChunk chunk minimum maximum field) := by
  refine .ite (.raised _) (.ite ?_ (.ite ?_ (.ite (.ok _) (.ite ?_ ?_))))
  · exact (cronStep_valueError _ _).bind (fun step => .ok _)
  · exact (cronStep_valueError _ _).bind (fun step =>
      (cronRange_valueError _ _ _ _).bind (fun ranged => .ok _))
  · exact (cronRange_valueError _ _ _ _).bind (fun ranged => .ok _)
  · exact (cronInt_valueError _ _).bind (fun number => .ite (.raised _) (.ok _))

theorem parseChunks_valueError (field : List Char) (minimum maximum : Int)
    (segments : List (List Char))
    : OnlyValueError (parseChunks minimum maximum field segments) := by
  induction segments with
  | nil => exact .ok ∅
  | cons segment rest ih =>
    exact (parseChunk_valueError _ _ _ _).bind (fun values => ih.bind (fun more => .ok _))

theorem parseChunks_accepts {minimum maximum : Int}
    : (∃ values, parseChunks minimum maximum field segments = .ok values)
      ↔ ∀ segment ∈ segments,
          ∃ values, parseChunk (stripChars segment) minimum maximum field = .ok values := by
  induction segments with
  | nil => exact ⟨fun _ _ member => (List.not_mem_nil member).elim, fun _ => ⟨∅, rfl⟩⟩
  | cons segment rest ih =>
    rw [List.forall_mem_cons, ← ih]
    constructor
    · intro accepted
      obtain ⟨values, accepted⟩ := accepted
      obtain ⟨first, read, accepted⟩ := except_bind_ok.mp accepted
      obtain ⟨more, later, -⟩ := except_bind_ok.mp accepted
      exact ⟨⟨first, read⟩, ⟨more, later⟩⟩
    · intro accepted
      obtain ⟨⟨first, read⟩, ⟨more, later⟩⟩ := accepted
      exact ⟨first ∪ more, except_bind_ok.mpr ⟨first, read,
        except_bind_ok.mpr ⟨more, later, rfl⟩⟩⟩

theorem parseChunks_items {minimum maximum : Int}
    (written : List.Forall₂ (fun segment item => Written (stripChars segment) item) segments items)
    (ranged : ∀ item ∈ items, item.InRange minimum maximum)
    : parseChunks minimum maximum field segments = .ok (fieldValues minimum maximum items) := by
  induction written with
  | nil => rfl
  | @cons segment item segments items first _ ih =>
    obtain ⟨here, later⟩ := List.forall_mem_cons.mp ranged
    exact except_bind_ok.mpr ⟨item.values minimum maximum, parseChunk_of_written first here,
      except_bind_ok.mpr ⟨fieldValues minimum maximum items, ih later, rfl⟩⟩

theorem readable_of_accepted {segment : List Char} {minimum maximum : Int}
    (accepted : parseField field minimum maximum = .ok values)
    (member : segment ∈ field.splitOn ',')
    : (∃ item, Written (stripChars segment) item ∧ item.InRange minimum maximum)
      ∨ ∃ number, LoneStep (stripChars segment) number := by
  obtain ⟨part, read⟩ := parseChunks_accepts.mp ⟨values, accepted⟩ segment member
  rcases parseChunk_ok read with ⟨item, written, ranged, -⟩ | ⟨number, lone, -⟩
  · exact .inl ⟨item, written, ranged⟩
  · exact .inr ⟨number, lone⟩

/-- The parser keeps to the grammar but for a lone number with a step, which it takes as that
number without asking where it lies.
-/
theorem parseField_followsGrammar_iff {field : List Char} {minimum maximum : Int}
    (bounds : minimum ≤ maximum)
    : FollowsGrammar field minimum maximum ↔ ¬ HasLoneStep field minimum maximum := by
  constructor
  · intro follows lonely
    have accepted : ∃ values, parseField field minimum maximum = .ok values := by
      refine parseChunks_accepts.mpr (fun segment member => ?_)
      rcases lonely.readable segment member with ⟨item, written, ranged⟩ | ⟨number, lone⟩
      · exact ⟨_, parseChunk_of_written written ranged⟩
      · exact ⟨_, parseChunk_of_loneStep lone⟩
    obtain ⟨segment, member, number, lone⟩ := lonely.lone
    rcases follows.sound with ⟨message, failed⟩ | ⟨values, items, -, -, -, spelled, -⟩
    · obtain ⟨values, accepted⟩ := accepted
      rw [failed] at accepted
      cases accepted
    · obtain ⟨item, written⟩ := spelled.item_of_segment member
      exact lone.not_written written
  · intro grammatical
    refine ⟨?_, fun items spelled ranged => ⟨_, parseChunks_items spelled ranged⟩⟩
    cases parsed : parseField field minimum maximum with
    | error error =>
      obtain ⟨message, rfl⟩ := parseChunks_valueError field minimum maximum _ error parsed
      exact .inl ⟨message, rfl⟩
    | ok values =>
      have written : ∀ segment ∈ field.splitOn ',',
          ∃ item, Written (stripChars segment) item ∧ item.InRange minimum maximum := by
        intro segment member
        rcases readable_of_accepted parsed member with item | lone
        · exact item
        · exact (grammatical ⟨fun _ => readable_of_accepted parsed, segment, member, lone⟩).elim
      obtain ⟨items, spelled, ranged⟩ := exists_items written
      have read : parseField field minimum maximum = _ := parseChunks_items spelled ranged
      have same : values = fieldValues minimum maximum items :=
        Except.ok.inj (parsed.symm.trans read)
      subst same
      exact .inr ⟨_, items, rfl, fieldValues_nonempty bounds (FieldItems.ne_nil spelled) ranged,
        fieldValues_subset ranged, spelled, rfl⟩

end Parser

section Samples

/-- The tables at texts of ASCII characters. -/
local instance asciiDigits : DecimalDigits := ⟨fun _ => none⟩

local instance quotedTexts : PyRepr where
  repr
    | .str text => "'" ++ text ++ "'"
    | _ => ""

example : [" +1_0", "007", "1__0", "-5"].map (fun text => readInt text.toList)
    = [some 10, some 7, none, some (-5)] := by decide

theorem parseField_followsGrammar_list
    : FollowsGrammar "1-5,*/20".toList 0 59 ↔ ¬ HasLoneStep "1-5,*/20".toList 0 59 :=
  parseField_followsGrammar_iff (by decide)

/-- The minute field `99/5` is read as minute 99. -/
theorem parseField_outOfRange
    : parseField "99/5".toList 0 59 = .ok {99} ∧ ¬ FollowsGrammar "99/5".toList 0 59 := by
  have read : parseField "99/5".toList 0 59 = .ok {99} := by decide
  refine ⟨read, fun follows => ?_⟩
  rcases follows.sound with ⟨message, failed⟩ | ⟨values, items, accepted, -, within, -⟩
  · rw [read] at failed
    cases failed
  · rw [read] at accepted
    cases accepted
    exact absurd within (by decide)

end Samples

end Murder.Triggers

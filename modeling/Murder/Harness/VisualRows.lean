import Mathlib.Data.List.Chain
import Murder.Harness.SubmitPrompt

/-! Which payloads the visual rows of a composer match.
Rows are compared with their whitespace normalized, the payload as it is.
-/

namespace Murder.Harness

open Contracts Library.Lines Library.Trimming

def rowContent (row : List Char) : List Char :=
  (strip (String.ofList (collapseSpaces false row))).toList

/-- Every way of showing a text as rows: whitespace with at most one newline is dropped at each
break, and no newline stays within a row.
-/
inductive Wraps : List Char → List (List Char) → Prop
  | last {row : List Char} (within : '\n' ∉ row) : Wraps row [row]
  | cons {row gap rest : List Char} {rows : List (List Char)} (within : '\n' ∉ row)
    (dropped : ∀ c ∈ gap, isSpace c) (single : gap.count '\n' ≤ 1) (more : Wraps rest rows)
    : Wraps (row ++ gap ++ rest) (row :: rows)

def joinRows (rows : List (List Char)) : String := joinLines (rows.map String.ofList)

/-- A payload that its own normalization leaves as it is: words with single spaces between. -/
def Tidy (payload : String) : Prop := rowContent payload.toList = payload.toList

def unspaced (text : List Char) : List Char := text.filter (fun c => !isSpace c)

/-- The payload is matched however it is wrapped, and nothing else is matched. -/
structure MatchesWrapping (payload : String) : Prop where
  complete : ∀ rows, Wraps payload.toList rows → visualRowsMatchPayload (joinRows rows) payload
  sound : ∀ observed, visualRowsMatchPayload observed payload →
    unspaced observed.toList = unspaced payload.toList

/-- A text read as the contents of rows behind separators. -/
inductive Joins : List (List Char) → List (List Char) → List Char → Prop
  | nil (separators : List (List Char)) : Joins separators [] []
  | cons {separators : List (List Char)} {separator row : List Char} {rows : List (List Char)}
    {text : List Char} (chosen : separator ∈ separators) (more : Joins [[], [' ']] rows text)
    : Joins separators (row :: rows) (separator ++ rowContent row ++ text)

variable {expected text : List Char} {separators rows : List (List Char)}

def reachedPlaces (expected : List Char) (separators : List (List Char)) (row : List Char)
    (positions : List Nat)
    : List Nat :=
  positions.flatMap (fun position =>
    separators.filterMap (fun separator =>
      if (separator ++ rowContent row).isPrefixOf (expected.drop position) then
        some (position + separator.length + (rowContent row).length)
      else
        none))

variable {row : List Char} {positions : List Nat}

theorem matchRows_cons
    : matchRows expected separators (row :: rows) positions
      = if reachedPlaces expected separators row positions = [] then false
        else matchRows expected [[], [' ']] rows
          (reachedPlaces expected separators row positions).eraseDups :=
  rfl

theorem mem_reachedPlaces {place : Nat}
    : place ∈ reachedPlaces expected separators row positions
      ↔ ∃ position ∈ positions, ∃ separator ∈ separators,
        separator ++ rowContent row <+: expected.drop position
          ∧ place = position + (separator ++ rowContent row).length := by
  unfold reachedPlaces
  rw [List.mem_flatMap]
  refine exists_congr (fun position => and_congr_right (fun _ => ?_))
  rw [List.mem_filterMap]
  refine exists_congr (fun separator => and_congr_right (fun _ => ?_))
  by_cases starts : (separator ++ rowContent row).isPrefixOf (expected.drop position)
  · rw [if_pos starts, Option.some_inj, List.length_append, ← Nat.add_assoc]
    rw [List.isPrefixOf_iff_prefix] at starts
    rw [and_iff_right starts, eq_comm]
  · rw [if_neg starts]
    rw [List.isPrefixOf_iff_prefix] at starts
    exact iff_of_false (fun bad => nomatch bad) (fun both => starts both.1)

/-- The rest is read at a reached place exactly when the row and the rest are at a place. -/
theorem exists_reached
    : (∃ place ∈ reachedPlaces expected separators row positions,
        Joins [[], [' ']] rows (expected.drop place))
      ↔ ∃ place ∈ positions, Joins separators (row :: rows) (expected.drop place) := by
  constructor
  · intro reads
    obtain ⟨place, member, reads⟩ := reads
    obtain ⟨position, known, separator, chosen, starts, rfl⟩ := mem_reachedPlaces.mp member
    refine ⟨position, known, ?_⟩
    obtain ⟨rest, parts⟩ := starts
    rw [← List.drop_drop, ← parts, List.drop_left] at reads
    rw [← parts]
    exact .cons chosen reads
  · intro reads
    obtain ⟨position, known, reads⟩ := reads
    generalize left : expected.drop position = rest at reads
    cases reads with
    | cons chosen more =>
      refine ⟨_, mem_reachedPlaces.mpr ⟨position, known, _, chosen, ?_, rfl⟩, ?_⟩
      · rw [left]
        exact List.prefix_append _ _
      · rw [← List.drop_drop, left, List.drop_left]
        exact more

/-- The matcher reads what is left of the text at one of its places, by induction on the rows. -/
theorem matchRows_iff (within : ∀ place ∈ positions, place ≤ expected.length)
    : matchRows expected separators rows positions
      ↔ ∃ place ∈ positions, Joins separators rows (expected.drop place) := by
  induction rows generalizing separators positions with
  | nil =>
    rw [matchRows, List.contains_iff_mem]
    constructor
    · intro ends
      refine ⟨_, ends, ?_⟩
      rw [List.drop_length]
      exact .nil separators
    · intro reads
      obtain ⟨place, member, reads⟩ := reads
      generalize left : expected.drop place = rest at reads
      cases reads
      have ends := List.drop_eq_nil_iff.mp left
      exact Nat.le_antisymm ends (within place member) ▸ member
  | cons row rows ih =>
    have inside : ∀ place ∈ (reachedPlaces expected separators row positions).eraseDups,
        place ≤ expected.length := by
      intro place member
      obtain ⟨position, known, separator, -, starts, rfl⟩ :=
        mem_reachedPlaces.mp (List.mem_eraseDups.mp member)
      have short := starts.length_le
      rw [List.length_drop] at short
      have := within position known
      omega
    rw [matchRows_cons, ← exists_reached]
    by_cases none_ : reachedPlaces expected separators row positions = []
    · rw [if_pos none_, none_]
      simp
    · rw [if_neg none_, ih inside]
      simp only [List.mem_eraseDups]

variable {payload : String}

theorem visualRowsMatchPayload_iff {observed : String}
    : visualRowsMatchPayload observed payload
      ↔ Joins [[]] (splitLines [] observed.toList) payload.toList := by
  unfold visualRowsMatchPayload
  rw [matchRows_iff (by simp)]
  simp

/-- Whitespace in the form that rows are brought to. -/
structure Spaced (text : List Char) : Prop where
  plain : ∀ c ∈ text, isSpace c → c = ' '
  single : text.IsChain (fun a b => ¬(isSpace a ∧ isSpace b))

theorem Spaced.part {part : List Char} (spaced : Spaced text) (inside : part <:+: text)
    : Spaced part :=
  ⟨fun c member => spaced.plain c (inside.subset member), List.IsChain.infix spaced.single inside⟩

/-- Collapsed whitespace is spaced, by induction on the text. -/
theorem collapseSpaces_spaced (text : List Char) (inside : Bool)
    : Spaced (collapseSpaces inside text)
      ∧ (inside → ∀ c ∈ (collapseSpaces inside text).head?, ¬isSpace c) := by
  induction text generalizing inside with
  | nil => exact ⟨⟨fun _ member => (nomatch member), .nil⟩, fun _ _ leads => nomatch leads⟩
  | cons c rest ih =>
    rw [collapseSpaces]
    by_cases space : isSpace c
    · rw [if_pos space]
      obtain ⟨spaced, open_⟩ := ih true
      cases inside with
      | true => exact ⟨spaced, fun _ => open_ rfl⟩
      | false =>
        refine ⟨⟨?_, ?_⟩, fun bad => nomatch bad⟩
        · intro other member
          rcases List.mem_cons.mp member with same | member
          · exact fun _ => same
          · exact spaced.plain other member
        · rw [if_neg (by decide), List.isChain_cons]
          exact ⟨fun other leads both => open_ rfl other leads both.2, spaced.single⟩
    · rw [if_neg space]
      obtain ⟨spaced, -⟩ := ih false
      refine ⟨⟨?_, ?_⟩, ?_⟩
      · intro other member isSpace
        rcases List.mem_cons.mp member with same | member
        · rw [same] at isSpace
          exact absurd isSpace space
        · exact spaced.plain other member isSpace
      · rw [List.isChain_cons]
        exact ⟨fun _ _ both => space both.1, spaced.single⟩
      · intro _ other leads
        cases leads
        exact space

theorem collapseSpaces_of_spaced {inside : Bool} (spaced : Spaced text)
    (open_ : inside → ∀ c ∈ text.head?, ¬isSpace c)
    : collapseSpaces inside text = text := by
  induction text generalizing inside with
  | nil => rfl
  | cons c rest ih =>
    have tail := spaced.part (List.suffix_cons c rest).isInfix
    have chain := List.isChain_cons.mp spaced.single
    rw [collapseSpaces]
    by_cases space : isSpace c
    · have outside : inside = false := by
        cases inside with
        | true => exact absurd space (open_ rfl c rfl)
        | false => rfl
      rw [if_pos space, outside, if_neg (by decide), spaced.plain c List.mem_cons_self space,
        ih tail (fun _ other leads both => chain.1 other leads ⟨space, both⟩)]
    · rw [if_neg space, ih tail (fun bad => absurd bad Bool.false_ne_true)]

theorem rowContent_spaced (row : List Char) : Spaced (rowContent row) := by
  unfold rowContent
  rw [toList_strip, String.toList_ofList]
  obtain ⟨before, behind, parts, -, -⟩ := trim_parts isSpace (collapseSpaces false row)
  exact (collapseSpaces_spaced row false).1.part ⟨before, behind, parts.symm⟩

theorem rowContent_of_spaced (spaced : Spaced text) : rowContent text = trim isSpace text := by
  unfold rowContent
  rw [toList_strip, String.toList_ofList, collapseSpaces_of_spaced spaced
    (fun bad => absurd bad Bool.false_ne_true)]

theorem tidy_iff
    : Tidy payload ↔ Spaced payload.toList
      ∧ (∀ c ∈ payload.toList.head?, ¬isSpace c) ∧ ∀ c ∈ payload.toList.getLast?, ¬isSpace c := by
  constructor
  · intro tidy
    have spaced := rowContent_spaced payload.toList
    rw [tidy] at spaced
    refine ⟨spaced, trim_ends ?_⟩
    rw [← rowContent_of_spaced spaced]
    exact tidy
  · intro parts
    obtain ⟨spaced, first, last⟩ := parts
    exact (rowContent_of_spaced spaced).trans (trim_of_ends first last)

theorem unspaced_append (front behind : List Char)
    : unspaced (front ++ behind) = unspaced front ++ unspaced behind :=
  List.filter_append ..

theorem unspaced_of_spaces {gap : List Char} (spaces : ∀ c ∈ gap, isSpace c)
    : unspaced gap = [] := by
  refine List.filter_eq_nil_iff.mpr (fun c member => ?_)
  simp [spaces c member]

theorem unspaced_trim (text : List Char) : unspaced (trim isSpace text) = unspaced text := by
  obtain ⟨before, behind, parts, front, back⟩ := trim_parts isSpace text
  conv_rhs => rw [parts]
  rw [unspaced_append, unspaced_append, unspaced_of_spaces front, unspaced_of_spaces back]
  simp

theorem unspaced_collapseSpaces (text : List Char) (inside : Bool)
    : unspaced (collapseSpaces inside text) = unspaced text := by
  induction text generalizing inside with
  | nil => rfl
  | cons c rest ih =>
    rw [collapseSpaces]
    have skipped : isSpace ' ' = true := rfl
    by_cases space : isSpace c
    · cases inside <;> simp_all [unspaced]
    · simp_all [unspaced]

theorem unspaced_rowContent (row : List Char) : unspaced (rowContent row) = unspaced row := by
  unfold rowContent
  rw [toList_strip, String.toList_ofList, unspaced_trim, unspaced_collapseSpaces]

theorem isSpace_of_isLineBreak {c : Char} (ends : isLineBreak c) : isSpace c := by
  simp only [isLineBreak, Bool.or_eq_true, Bool.and_eq_true, decide_eq_true_eq, beq_iff_eq] at ends
  simp only [isSpace, Bool.or_eq_true, Bool.and_eq_true, decide_eq_true_eq, beq_iff_eq]
  omega

/-- The breaks between lines are whitespace, by induction on the text behind the open line. -/
theorem unspaced_splitLines (line text : List Char)
    : unspaced (splitLines line text).flatten = unspaced (line.reverse ++ text) := by
  fun_induction splitLines line text with
  | case1 => rfl
  | case2 line some_ => simp
  | case3 line rest ih =>
    rw [List.flatten_cons, unspaced_append, unspaced_append, ih]
    rfl
  | case4 line c rest lone ends ih =>
    rw [List.flatten_cons, unspaced_append, unspaced_append, ih]
    simp [unspaced, isSpace_of_isLineBreak ends]
  | case5 line c rest lone within ih =>
    rw [ih]
    simp

/-- A text of rows has their characters, and whitespace as it is normalized. -/
theorem Joins.unspaced (joins : Joins separators rows text)
    (spaces : ∀ separator ∈ separators, ∀ c ∈ separator, c = ' ')
    : Harness.unspaced text = Harness.unspaced rows.flatten
      ∧ ∀ c ∈ text, isSpace c → c = ' ' := by
  induction joins with
  | nil => exact ⟨rfl, fun _ member => nomatch member⟩
  | @cons _ separator row rows text chosen more ih =>
    obtain ⟨same, plain⟩ := ih (by simp)
    constructor
    · rw [unspaced_append, unspaced_append, List.flatten_cons, unspaced_append,
        unspaced_rowContent, same, unspaced_of_spaces]
      · rfl
      · intro c member
        rw [spaces separator chosen c member]
        rfl
    · intro c member isSpace
      rcases List.mem_append.mp member with member | member
      · rcases List.mem_append.mp member with member | member
        · exact spaces separator chosen c member
        · exact (rowContent_spaced row).plain c member isSpace
      · exact plain c member isSpace

theorem matched_unspaced {observed : String} (matched : visualRowsMatchPayload observed payload)
    : unspaced observed.toList = unspaced payload.toList := by
  have joins := visualRowsMatchPayload_iff.mp matched
  rw [(joins.unspaced (by simp)).1, unspaced_splitLines]
  rfl

theorem Spaced.gap {gap : List Char} (spaced : Spaced gap) (spaces : ∀ c ∈ gap, isSpace c)
    : gap = [] ∨ gap = [' '] := by
  cases gap with
  | nil => exact .inl rfl
  | cons c rest =>
    cases rest with
    | nil => exact .inr (congrArg (fun c => [c]) (spaced.plain c (by simp) (spaces c (by simp))))
    | cons other rest =>
      have apart := (List.isChain_cons_cons.mp spaced.single).1
      exact absurd ⟨spaces c (by simp), spaces other (by simp)⟩ apart

theorem rowContent_parts {row : List Char} (spaced : Spaced row)
    : ∃ before behind, row = before ++ rowContent row ++ behind
      ∧ (∀ c ∈ before, isSpace c) ∧ ∀ c ∈ behind, isSpace c := by
  rw [rowContent_of_spaced spaced]
  exact trim_parts isSpace row

/-- The separators take every whitespace that the text starts with. -/
def Separated (separators : List (List Char)) (text : List Char) : Prop :=
  ∀ separator, separator <+: text → (∀ c ∈ separator, isSpace c) → separator ∈ separators

theorem Spaced.separated (spaced : Spaced text) : Separated [[], [' ']] text := by
  intro separator starts spaces
  rcases (spaced.part starts.isInfix).gap spaces with none_ | one
  · simp [none_]
  · simp [one]

theorem separated_of_head (first : ∀ c ∈ text.head?, ¬isSpace c) : Separated [[]] text := by
  intro separator starts spaces
  cases separator with
  | nil => exact List.mem_singleton_self _
  | cons c rest =>
    obtain ⟨behind, rfl⟩ := starts
    exact absurd (spaces c List.mem_cons_self) (first c rfl)

/-- Wrapped text is read from its rows, by induction on the breaks: whitespace that is left of
the rows before a break leads what comes behind it.
-/
theorem Wraps.joins {rest : List Char} (wraps : Wraps rest rows) {lead : List Char}
    (spaces : ∀ c ∈ lead, isSpace c) (spaced : Spaced (lead ++ rest))
    (last : ∀ c ∈ (lead ++ rest).getLast?, ¬isSpace c)
    (separated : Separated separators (lead ++ rest))
    : Joins separators rows (lead ++ rest) := by
  induction wraps generalizing lead separators with
  | @last row within =>
    obtain ⟨before, behind, parts, front, back⟩ :=
      rowContent_parts (spaced.part (List.suffix_append lead row).isInfix)
    have none_ : behind = [] := by
      rcases List.eq_nil_or_concat behind with none_ | ⟨start, c, rfl⟩
      · exact none_
      · refine absurd (back c (by simp)) (last c ?_)
        rw [parts]
        simp [List.getLast?_append]
    rw [none_, List.append_nil] at parts
    have joined := @Joins.cons separators (lead ++ before) row [] [] ?_ (.nil _)
    · rw [List.append_nil, List.append_assoc, ← parts] at joined
      exact joined
    · refine separated _ ?_ ?_
      · rw [parts, ← List.append_assoc]
        exact List.prefix_append _ _
      · exact List.forall_mem_append.mpr ⟨spaces, front⟩
  | @cons row gap rest rows within dropped single more ih =>
    obtain ⟨before, behind, parts, front, back⟩ :=
      @rowContent_parts row (spaced.part ⟨lead, gap ++ rest, by simp⟩)
    by_cases blank : rowContent row = []
    · -- a blank row takes no separator, and its whitespace goes to the next one
      have blankRow : ∀ c ∈ row, isSpace c := by
        rw [parts, blank, List.append_nil]
        exact List.forall_mem_append.mpr ⟨front, back⟩
      have whole : lead ++ (row ++ gap ++ rest) = (lead ++ row ++ gap) ++ rest := by simp
      rw [whole] at spaced last separated ⊢
      have joined := @Joins.cons separators [] row rows _ (separated [] (by simp) (by simp))
        (ih (List.forall_mem_append.mpr
          ⟨List.forall_mem_append.mpr ⟨spaces, blankRow⟩, dropped⟩) spaced last spaced.separated)
      rw [blank] at joined
      exact joined
    · have whole : lead ++ (row ++ gap ++ rest)
          = (lead ++ before) ++ rowContent row ++ ((behind ++ gap) ++ rest) := by
        conv_lhs => rw [parts]
        simp
      rw [whole] at spaced last separated ⊢
      have tail := spaced.part (List.suffix_append _ _).isInfix
      refine .cons (separated _ ?_ (List.forall_mem_append.mpr ⟨spaces, front⟩)) ?_
      · rw [List.append_assoc]
        exact List.prefix_append _ _
      · refine ih (List.forall_mem_append.mpr ⟨back, dropped⟩) tail ?_ tail.separated
        intro c ends
        refine last c ?_
        rw [List.getLast?_append, ends]
        rfl

/-- The rows of a composer text are read back, but for an empty last one. -/
theorem splitLines_joinRows (closed : ∀ row ∈ rows, ∀ c ∈ row, isLineBreak c = false)
    : splitLines [] (joinRows rows).toList
      = if rows.getLast? = some [] then rows.dropLast else rows := by
  have texts : (rows.map String.ofList).map String.toList = rows := by simp [Function.comp_def]
  rw [splitLines_eq, joinRows, toList_joinLines, texts,
    linesAt_intercalate (by decide) (by decide) closed]

theorem Wraps.dropLast {shown : List (List Char)} (wraps : Wraps text (shown ++ [[]]))
    (some_ : shown ≠ []) (last : ∀ c ∈ text.getLast?, ¬isSpace c)
    : Wraps text shown := by
  generalize all : shown ++ [[]] = rows at wraps
  induction wraps generalizing shown with
  | @last row within =>
    cases shown with
    | nil => exact absurd rfl some_
    | cons first later => simp at all
  | @cons row gap rest rows within dropped single more ih =>
    cases shown with
    | nil => exact absurd rfl some_
    | cons first later =>
      obtain ⟨rfl, parts⟩ := List.cons.inj all
      by_cases none_ : later = []
      · -- nothing is behind the last break, and no whitespace was dropped there
        rw [none_] at parts ⊢
        cases parts
        cases more with
        | cons _ _ _ more => cases more
        | last _ =>
        have empty : gap = [] := by
          rcases List.eq_nil_or_concat gap with none_ | ⟨start, c, rfl⟩
          · exact none_
          · exact absurd (dropped c (by simp)) (last c (by simp [List.getLast?_append]))
        rw [empty, List.append_nil, List.append_nil]
        exact .last within
      · refine .cons within dropped single (ih none_ ?_ parts)
        intro c ends
        refine last c ?_
        rw [List.getLast?_append, ends]
        rfl

theorem Wraps.mem {c : Char} (wraps : Wraps text rows) (member : row ∈ rows) (inside : c ∈ row)
    : c ∈ text := by
  induction wraps with
  | last within =>
    cases List.mem_singleton.mp member
    exact inside
  | cons within dropped single more ih =>
    rcases List.mem_cons.mp member with rfl | later
    · simp [inside]
    · simp [ih later]

theorem isLineBreak_of_spaced {c : Char} (spaced : Spaced text) (member : c ∈ text)
    : isLineBreak c = false := by
  refine Bool.eq_false_iff.mpr (fun ends => ?_)
  rw [spaced.plain c member (isSpace_of_isLineBreak ends)] at ends
  cases ends

/-- Every text is shown in some way, by induction on its characters. -/
theorem exists_wraps (text : List Char) : ∃ rows, Wraps text rows := by
  induction text with
  | nil => exact ⟨[[]], .last List.not_mem_nil⟩
  | cons c text ih =>
    obtain ⟨rows, wraps⟩ := ih
    by_cases newline : c = '\n'
    · refine ⟨[] :: rows, ?_⟩
      rw [newline]
      exact @Wraps.cons [] ['\n'] text rows List.not_mem_nil (by simp [isSpace]) (by simp) wraps
    · cases wraps with
      | last within =>
        exact ⟨[c :: text], .last (by simp [within, Ne.symm newline])⟩
      | @cons row gap rest rows within dropped single more =>
        refine ⟨(c :: row) :: rows, ?_⟩
        have within : '\n' ∉ c :: row := by simp [within, Ne.symm newline]
        exact .cons within dropped single more

theorem Tidy.complete (tidy : Tidy payload) (wraps : Wraps payload.toList rows)
    : visualRowsMatchPayload (joinRows rows) payload := by
  obtain ⟨spaced, first, last⟩ := tidy_iff.mp tidy
  rw [visualRowsMatchPayload_iff, splitLines_joinRows (fun row member c inside =>
    isLineBreak_of_spaced spaced (wraps.mem member inside))]
  have joins {shown : List (List Char)} (wraps : Wraps payload.toList shown)
      : Joins [[]] shown payload.toList :=
    @Wraps.joins [[]] shown payload.toList wraps [] (fun _ none_ => nomatch none_) spaced last
      (separated_of_head first)
  by_cases empty : rows.getLast? = some []
  · rw [if_pos empty]
    obtain ⟨shown, rfl⟩ := List.getLast?_eq_some_iff.mp empty
    rw [List.dropLast_concat]
    by_cases none_ : shown = []
    · rw [none_] at wraps ⊢
      generalize payload.toList = text at wraps ⊢
      cases wraps with
      | last _ => exact .nil _
      | cons _ _ _ more => cases more
    · exact joins (wraps.dropLast none_ last)
  · rw [if_neg empty]
    exact joins wraps

theorem Joins.alone (joins : Joins [[]] [row] text) : text = rowContent row := by
  cases joins with
  | cons chosen more =>
    cases more
    rw [List.mem_singleton.mp chosen]
    simp

theorem MatchesWrapping.tidy (wrapping : MatchesWrapping payload)
    : Tidy payload := by
  have plain : ∀ c ∈ payload.toList, isSpace c → c = ' ' := by
    obtain ⟨rows, wraps⟩ := exists_wraps payload.toList
    have joins := visualRowsMatchPayload_iff.mp (wrapping.complete rows wraps)
    exact (joins.unspaced (by simp)).2
  have closed : ∀ c ∈ payload.toList, isLineBreak c = false := by
    intro c member
    refine Bool.eq_false_iff.mpr (fun ends => ?_)
    rw [plain c member (isSpace_of_isLineBreak ends)] at ends
    cases ends
  have whole : Wraps payload.toList [payload.toList] := by
    refine .last (fun newline => ?_)
    have broken := closed _ newline
    cases broken
  have joins := visualRowsMatchPayload_iff.mp (wrapping.complete _ whole)
  rw [splitLines_joinRows (by simpa using closed)] at joins
  unfold Tidy
  by_cases empty : payload.toList = []
  · rw [empty]
    rfl
  · rw [if_neg (by simpa using empty)] at joins
    exact joins.alone.symm

/-- Matching is sound always, and complete for payloads with single spaces between words. -/
theorem matchesWrapping_iff (payload : String) : MatchesWrapping payload ↔ Tidy payload := by
  constructor
  · intro wrapping
    exact wrapping.tidy
  · intro tidy
    exact ⟨fun rows wraps => tidy.complete wraps, fun observed matched => matched_unspaced matched⟩

/-- A payload of two lines is not matched by the rows that show it. -/
theorem two_lines_unmatched : ¬∀ payload, MatchesWrapping payload := by
  intro all
  have wraps : Wraps "a\nb".toList [['a'], ['b']] :=
    @Wraps.cons ['a'] ['\n'] ['b'] [['b']] (by decide) (forall_mem_of_all (by decide)) (by decide)
      (.last (by decide))
  exact absurd ((all "a\nb").complete _ wraps) (by decide +kernel)

end Murder.Harness

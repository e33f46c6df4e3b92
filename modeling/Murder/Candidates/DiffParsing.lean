import Murder.Candidates.ActiveDiff

/-! What is read from the diff of changed files: the new-side range of every hunk, and the line
near a pure deletion, if no name is quoted and no content is taken for a header.
-/

namespace Murder.Candidates

open Contracts Evidence Library.Patches Library.Lines Library.Trimming

----------------------------------------
-- Pieces of a diff
----------------------------------------

/-- What `str.splitlines` makes of a line of a diff. -/
def pieces (line : String) : List String := textLines (line ++ "\n")

theorem textLines_unlines (lines : List String)
    : textLines (unlines lines) = lines.flatMap pieces := by
  have feed : isLineBreak '\n' = true := by decide
  have carriage : isLineBreak '\r' = true := by decide
  have feeds : ∀ lines : List String, lines ≠ [] →
      linesAt isLineBreak [] ((joinLines lines).toList ++ ['\n'])
        = lines.flatMap (fun line => linesAt isLineBreak [] (line.toList ++ ['\n'])) := by
    intro lines some_
    induction lines using List.reverseRecOn with
    | nil => exact absurd rfl some_
    | append_singleton before line ih =>
      cases before with
      | nil => simp [joinLines]
      | cons first rest =>
        rw [joinLines_concat (List.cons_ne_nil first rest), String.toList_append,
          String.toList_append, List.append_assoc, List.append_assoc]
        have split := @linesAt_append_feed isLineBreak [] (joinLines (first :: rest)).toList
          (line.toList ++ ['\n']) carriage feed
        have step := ih (List.cons_ne_nil first rest)
        rw [step] at split
        refine split.trans ?_
        rw [List.flatMap_append, List.flatMap_singleton]
  by_cases none_ : lines = []
  · rw [none_]
    rfl
  · rw [unlines, if_neg none_, textLines_eq, String.toList_append]
    refine (congrArg (List.map String.ofList) (feeds lines none_)).trans ?_
    rw [List.map_flatMap]
    apply List.flatMap_congr
    intro line _
    rw [pieces, textLines_eq, String.toList_append]
    rfl

theorem pieces_of_whole {line : String} (whole : ∀ c ∈ line.toList, isLineBreak c = false)
    : pieces line = [line] := by
  have feed : isLineBreak '\n' = true := by decide
  rw [pieces, textLines_eq, String.toList_append]
  have split : linesAt isLineBreak [] (line.toList ++ "\n".toList) = [line.toList] := by
    rw [linesAt_closed_append whole (by decide)]
    refine (linesAt_break feed (fun same => absurd same (by decide))).trans ?_
    rw [List.append_nil, List.reverse_reverse]
    rfl
  rw [split, List.map_singleton, String.ofList_toList]

theorem pieces_append {front behind : String} (whole : ∀ c ∈ front.toList, isLineBreak c = false)
    : ∃ first later, pieces (front ++ behind) = String.ofList (front.toList ++ first) :: later := by
  have some_ : behind.toList ++ "\n".toList ≠ [] :=
    List.append_ne_nil_of_right_ne_nil _ (by decide)
  obtain ⟨first, later, parts⟩ := @linesAt_opened isLineBreak _ some_
  refine ⟨first, later.map String.ofList, ?_⟩
  rw [pieces, textLines_eq, String.toList_append, String.toList_append, List.append_assoc,
    linesAt_closed_append whole (by decide), parts, List.append_nil, List.reverse_reverse,
    List.map_cons]

----------------------------------------
-- Hunk headers
----------------------------------------

variable {c : Char}

section Reading

variable [UnicodeLetters]

theorem isDecimal_of_ascii (ascii : c.toNat < 128) : isDecimal c = c.isDigit := by
  rw [isDecimal, UnicodeLetters.digits c ascii]
  cases c.isDigit <;> rfl

omit [UnicodeLetters] in
theorem ascii_of_isDigit (digit : c.isDigit = true) : c.toNat < 128 := by
  obtain ⟨-, high⟩ := Char.isDigit_iff_toNat.mp digit
  exact lt_of_le_of_lt high (by decide)

theorem digitsOf_number {number : Nat} {c : Char} {rest : List Char} (other : isDecimal c = false)
    : digitsOf ((toString number).toList ++ c :: rest)
      = some ((toString number).toList, c :: rest) := by
  have all : ∀ d ∈ (toString number).toList, isDecimal d := by
    intro d member
    have digit := digit_of_mem member
    rw [isDecimal_of_ascii (ascii_of_isDigit digit)]
    exact digit
  have some_ : (toString number).toList ≠ [] := by
    rw [toList_toString]
    exact Nat.toDigits_ne_nil
  obtain ⟨first, later, parts⟩ := List.exists_cons_of_ne_nil some_
  rw [digitsOf, if_pos]
  · rw [List.takeWhile_append_of_pos all, List.dropWhile_append_of_pos all,
      List.takeWhile_cons_of_neg (by simp [other]), List.dropWhile_cons_of_neg (by simp [other]),
      List.append_nil]
  · rw [parts]
    exact all first (parts ▸ List.mem_cons_self)

/-- The digits of the start of a range, and those of its count. -/
theorem rangeOf_rangeText {before count : Nat} {rest : List Char}
    (other : isDecimal c = false) (comma : c ≠ ',')
    : rangeOf ((Hunk.rangeText before count).toList ++ c :: rest)
      = some ((toString (if count = 0 then before else before + 1)).toList,
        if count = 1 then none else some (toString count).toList, c :: rest) := by
  have separates : isDecimal ',' = false := isDecimal_of_ascii (by decide)
  unfold Hunk.rangeText rangeOf
  by_cases one : count = 1
  · rw [if_pos one, if_pos one, if_neg (by omega), digitsOf_number other]
    simp [comma]
  · rw [if_neg one, if_neg one, String.toList_append, String.toList_append, List.append_assoc,
      List.append_assoc]
    have front := @digitsOf_number _ (if count = 0 then before else before + 1) ','
      ((toString count).toList ++ c :: rest) separates
    refine Option.bind_eq_some_iff.mpr ⟨_, front, ?_⟩
    have back := @digitsOf_number _ count c rest other
    simp only [back]
    rfl

theorem intOf_number {number : Nat} (small : number < 2 ^ 63)
    : intOf (toString number).toList = .ok number := by
  have short : (toString number).toList.length ≤ 4300 := by
    rw [toList_toString]
    refine le_trans ((Nat.length_toDigits_le_iff (by decide) (by decide)).mpr ?_)
      (show 19 ≤ 4300 by decide)
    exact lt_trans small (by decide)
  have value : ∀ digits : List Char, (∀ d ∈ digits, d.isDigit = true) → ∀ total,
      digits.foldl (fun total c => 10 * total + (DecimalDigits.value c).getD 0) total
        = Nat.ofDigitChars 10 digits total := by
    intro digits
    induction digits with
    | nil => exact fun _ total => (Nat.ofDigitChars_nil).symm
    | cons digit digits ih =>
      intro all total
      have own := all digit List.mem_cons_self
      have reads : DecimalDigits.value digit = some (digit.toNat - 48) := by
        rw [UnicodeLetters.digits digit (ascii_of_isDigit own), if_pos own]
      rw [List.foldl_cons, ih (fun d member => all d (List.mem_cons_of_mem _ member)),
        Nat.ofDigitChars_cons, reads]
      rfl
  rw [intOf, if_neg (by omega), value _ (fun d => digit_of_mem), toList_toString]
  simp

omit [UnicodeLetters] in
theorem behindText_append {front behind : List Char}
    : behindText front (front ++ behind) = some behind := by
  rw [behindText, if_pos (List.isPrefixOf_iff_prefix.mpr (List.prefix_append front behind)),
    List.drop_left]

omit [UnicodeLetters] in
theorem behindSpaces_cons {rest : List Char} (solid : isSpace c = false)
    : behindSpaces (' ' :: c :: rest) = some (c :: rest) := by
  have blank : isSpace ' ' = true := by decide
  have leads : (' ' :: c :: rest).head?.any isSpace = true := blank
  rw [behindSpaces, if_pos leads, List.dropWhile_cons_of_pos blank,
    List.dropWhile_cons_of_neg (by simp [solid])]

theorem matchHunk_header {hunk : Hunk} {behind : List Char}
    : matchHunk (hunk.header.toList ++ behind)
      = some ((toString (if hunk.newLines.length = 0 then hunk.newStart
            else hunk.newStart + 1)).toList,
          if hunk.newLines.length = 1 then none
          else some (toString hunk.newLines.length).toList) := by
  have blank : isDecimal ' ' = false := isDecimal_of_ascii (by decide)
  have text : hunk.header.toList ++ behind
      = "@@".toList ++ (' ' :: '-' :: ((Hunk.rangeText hunk.oldStart hunk.oldLines.length).toList
        ++ ' ' :: '+' :: ((Hunk.rangeText hunk.newStart hunk.newLines.length).toList
        ++ ' ' :: '@' :: '@' :: behind))) := by
    rw [Hunk.header, String.toList_append, String.toList_append, String.toList_append,
      String.toList_append]
    simp only [List.append_assoc]
    rfl
  rw [text, matchHunk]
  refine Option.bind_eq_some_iff.mpr ⟨_, behindText_append, ?_⟩
  refine Option.bind_eq_some_iff.mpr ⟨_, behindSpaces_cons (by decide), ?_⟩
  refine Option.bind_eq_some_iff.mpr ⟨_, @behindText_append ['-'] _, ?_⟩
  refine Option.bind_eq_some_iff.mpr ⟨_, rangeOf_rangeText blank (by decide), ?_⟩
  refine Option.bind_eq_some_iff.mpr ⟨_, behindSpaces_cons (by decide), ?_⟩
  refine Option.bind_eq_some_iff.mpr ⟨_, @behindText_append ['+'] _, ?_⟩
  refine Option.bind_eq_some_iff.mpr ⟨_, rangeOf_rangeText blank (by decide), ?_⟩
  refine Option.bind_eq_some_iff.mpr ⟨_, behindSpaces_cons (by decide), ?_⟩
  exact Option.bind_eq_some_iff.mpr ⟨_, @behindText_append "@@".toList _, rfl⟩

----------------------------------------
-- Names
----------------------------------------

/-- A path of printable characters that git does not quote, without blanks at its ends and
without a drive letter.
-/
structure PlainPath (path : String) : Prop where
  unquoted : ∀ c ∈ path.toList, isUnquoted c
  first : path.toList.head? ≠ some ' '
  last : path.toList.getLast? ≠ some ' '
  drive : isDriveAbsolute path.toList = false

omit [UnicodeLetters] in
theorem isUnquoted_iff
    : isUnquoted c = true ↔ 32 ≤ c.toNat ∧ c.toNat < 127 ∧ c ≠ '"' ∧ c ≠ '\\' := by
  simp only [isUnquoted, Bool.and_eq_true, decide_eq_true_eq, bne_iff_ne, and_assoc]

omit [UnicodeLetters] in
theorem isSpace_of_isUnquoted (unquoted : isUnquoted c) (other : c ≠ ' ')
    : isSpace c = false := by
  obtain ⟨low, high, -⟩ := isUnquoted_iff.mp unquoted
  have above : c.toNat ≠ 32 := fun same => other (Char.toNat_inj.mp same)
  simp only [isSpace, Bool.or_eq_false_iff, Bool.and_eq_false_iff, decide_eq_false_iff_not,
    beq_eq_false_iff_ne]
  omega

omit [UnicodeLetters] in
theorem PlainPath.ends [UnicodeLetters] {path : String} (plain : PlainPath path)
    : (∀ c ∈ path.toList.head?, ¬ isSpace c) ∧ ∀ c ∈ path.toList.getLast?, ¬ isSpace c := by
  constructor
  · intro c leads
    have unquoted := plain.unquoted c (List.mem_of_mem_head? leads)
    rw [isSpace_of_isUnquoted unquoted (fun same => plain.first (same ▸ leads))]
    decide
  · intro c ends
    have unquoted := plain.unquoted c (List.mem_of_mem_getLast? ends)
    rw [isSpace_of_isUnquoted unquoted (fun same => plain.last (same ▸ ends))]
    decide

omit [UnicodeLetters] in
theorem PlainPath.slashes [UnicodeLetters] {path : String} (plain : PlainPath path)
    : path.toList.map (fun c => if c = '\\' then '/' else c) = path.toList := by
  refine (List.map_congr_left (fun c member => ?_)).trans (List.map_id _)
  rw [if_neg (isUnquoted_iff.mp (plain.unquoted c member)).2.2.2]
  rfl

theorem normalizeRelativePath_plain {path : String} (plain : PlainPath path)
    (normal : ∀ segment ∈ path.toList.splitOn '/',
      segment ≠ [] ∧ segment ≠ ['.'] ∧ segment ≠ ['.', '.'])
    : normalizeRelativePath path = some path := by
  have kept : (path.toList.splitOn '/').filter (fun segment => segment ≠ [] ∧ segment ≠ ['.'])
      = path.toList.splitOn '/' := by
    apply List.filter_eq_self.mpr
    intro segment member
    exact decide_eq_true ⟨(normal segment member).1, (normal segment member).2.1⟩
  have some_ : path.toList ≠ [] := by
    intro empty
    rw [empty] at normal
    exact (normal [] (by decide)).1 rfl
  have relative : path.toList.head? ≠ some '/' := by
    intro leads
    obtain ⟨rest, parts⟩ := List.head?_eq_some_iff.mp leads
    rw [parts] at normal
    have empty : [] ∈ ('/' :: rest).splitOn '/' := by
      rw [List.splitOn, List.splitOnP_cons_eq_if_modifyHead, if_pos (by decide)]
      exact List.mem_cons_self
    exact (normal [] empty).1 rfl
  unfold normalizeRelativePath
  dsimp only
  rw [toList_strip, trim_of_ends plain.ends.1 plain.ends.2, plain.slashes,
    if_neg (by simp [some_, relative, plain.drive]), kept, if_neg, List.intercalate_splitOn,
    String.ofList_toList]
  intro bad
  rcases bad with parent | none_
  · exact (normal _ parent).2.2 rfl
  · exact List.splitOn_ne_nil _ _ none_

theorem newPath_label {file : GitFile} (there : file.deleted = false)
    (plain : PlainPath file.path)
    : newPath ("+++ " ++ file.label).toList = some file.path := by
  have unquoted : file.path.toList.all isUnquoted = true := List.all_eq_true.mpr plain.unquoted
  have some_ : file.path.toList ≠ [] := by
    intro empty
    have normal := file.normal
    rw [empty] at normal
    exact (normal [] (by decide)).1 rfl
  have text : ("+++ " ++ file.label).toList.drop 4
      = ("b/".toList ++ file.path.toList) ++ (if ' ' ∈ file.path.toList then ['\t'] else []) := by
    rw [GitFile.label, if_neg (by simp [there]), quotedName, if_pos unquoted,
      String.toList_append, String.toList_append, String.toList_append]
    by_cases blank : ' ' ∈ file.path.toList
    · rw [if_pos blank, if_pos blank]
      rfl
    · rw [if_neg blank, if_neg blank]
      rfl
  have first : ∀ c ∈ ("b/".toList ++ file.path.toList).head?, ¬ isSpace c := by
    intro c leads
    cases leads
    decide
  have last : ∀ c ∈ ("b/".toList ++ file.path.toList).getLast?, ¬ isSpace c := by
    rw [List.getLast?_append_of_ne_nil _ some_]
    exact plain.ends.2
  have blanks : ∀ c ∈ (if ' ' ∈ file.path.toList then ['\t'] else []), isSpace c := by
    intro c member
    split at member
    · rw [List.mem_singleton.mp member]
      decide
    · cases member
  have raw : strip (String.ofList (("+++ " ++ file.label).toList.drop 4))
      = String.ofList ("b/".toList ++ file.path.toList) := by
    rw [← String.toList_inj, toList_strip, String.toList_ofList, String.toList_ofList, text,
      trim_append (List.append_ne_nil_of_right_ne_nil _ some_) first last blanks]
  have other : String.ofList ("b/".toList ++ file.path.toList) ≠ "/dev/null" := by
    intro same
    rw [← String.toList_inj, String.toList_ofList] at same
    cases same
  have marked : "b/".toList.isPrefixOf ("b/".toList ++ file.path.toList) = true := rfl
  have rest : ("b/".toList ++ file.path.toList).drop 2 = file.path.toList := rfl
  unfold newPath
  dsimp only
  rw [raw, if_neg other]
  simp only [String.toList_ofList]
  rw [if_pos marked, rest, plain.slashes, String.ofList_toList]
  exact normalizeRelativePath_plain plain file.normal

theorem newPath_deleted {file : GitFile} (gone : file.deleted = true)
    : newPath ("+++ " ++ file.label).toList = none := by
  have text : ("+++ " ++ file.label).toList.drop 4 = "/dev/null".toList := by
    rw [GitFile.label, if_pos gone, String.toList_append]
    rfl
  have raw : strip (String.ofList "/dev/null".toList) = "/dev/null" := by decide
  unfold newPath
  dsimp only
  rw [text, raw, if_pos rfl]

----------------------------------------
-- Lines
----------------------------------------

def Inert (piece : String) : Prop :=
  ¬ "+++ ".toList <+: piece.toList ∧ matchHunk piece.toList = none

instance decidableInert (piece : String) : Decidable (Inert piece) :=
  inferInstanceAs (Decidable (_ ∧ _))

def readPieces (state : DiffState) (lines : List String) : Except DiffError DiffState :=
  lines.foldlM (fun state line => readLine state line.toList) state

theorem readLine_inert {piece : String} (inert : Inert piece) (state : DiffState)
    : readLine state piece.toList = .ok state := by
  rw [readLine, if_neg (fun starts => inert.1 (List.isPrefixOf_iff_prefix.mp starts)), inert.2]
  cases state.current <;> rfl

theorem readPieces_inert {lines : List String} (inert : ∀ piece ∈ lines, Inert piece)
    (state : DiffState)
    : readPieces state lines = .ok state := by
  induction lines with
  | nil => rfl
  | cons piece rest ih =>
    have own := readLine_inert (inert piece List.mem_cons_self) state
    rw [readPieces, List.foldlM_cons, own]
    exact ih (fun other member => inert other (List.mem_cons_of_mem piece member))

theorem readPieces_append {state : DiffState} {before after : List String}
    : readPieces state (before ++ after)
      = (readPieces state before).bind (fun state => readPieces state after) :=
  List.foldlM_append

/-- A line that starts with a letter or a dash is no header. -/
theorem inert_of_head {line : String}
    (leads : line.toList.head?.any (fun c => c.isAlpha || c == '-')) : Inert line := by
  have other : ∀ c ∈ line.toList.head?, c ≠ '+' ∧ c ≠ '@' := by
    intro c first
    rw [first] at leads
    constructor
    · intro same
      rw [same] at leads
      exact absurd leads (by decide)
    · intro same
      rw [same] at leads
      exact absurd leads (by decide)
  constructor
  · intro starts
    obtain ⟨rest, parts⟩ := starts
    rw [← parts] at other
    exact (other '+' rfl).1 rfl
  · have apart : ¬ "@@".toList.isPrefixOf line.toList := by
      intro starts
      obtain ⟨rest, parts⟩ := List.isPrefixOf_iff_prefix.mp starts
      rw [← parts] at other
      exact (other '@' rfl).2 rfl
    rw [matchHunk, behindText, if_neg apart]
    rfl

omit [UnicodeLetters] in
theorem header_whole (hunk : Hunk) : ∀ c ∈ hunk.header.toList, isLineBreak c = false := by
  have ranges : ∀ before count, ∀ c ∈ (Hunk.rangeText before count).toList,
      isLineBreak c = false := by
    intro before count c inside
    rcases mem_rangeText inside with comma | digit
    · rw [comma]
      decide
    · have low := (Char.isDigit_iff_toNat.mp digit).1
      have high := (Char.isDigit_iff_toNat.mp digit).2
      have zero : '0'.toNat = 48 := by decide
      have nine : '9'.toNat = 57 := by decide
      simp only [isLineBreak, Bool.or_eq_false_iff, Bool.and_eq_false_iff,
        decide_eq_false_iff_not, beq_eq_false_iff_ne]
      omega
  have marks : ∀ c ∈ "@@ -".toList ++ " +".toList ++ " @@".toList, isLineBreak c = false :=
    forall_mem_of_all (by decide)
  intro c inside
  rw [Hunk.header, String.toList_append, String.toList_append, String.toList_append,
    String.toList_append] at inside
  rcases List.mem_append.mp inside with inside | inside
  · rcases List.mem_append.mp inside with inside | inside
    · rcases List.mem_append.mp inside with inside | inside
      · rcases List.mem_append.mp inside with inside | inside
        · exact marks c (List.mem_append_left _ (List.mem_append_left _ inside))
        · exact ranges _ _ c inside
      · exact marks c (List.mem_append_left _ (List.mem_append_right _ inside))
    · exact ranges _ _ c inside
  · exact marks c (List.mem_append_right _ inside)

omit [UnicodeLetters] in
theorem newLines_edits (hunk : GitHunk)
    : Hunk.newLines ⟨hunk.oldStart, hunk.newStart, hunk.edits⟩ = hunk.added := by
  have removed : (hunk.removed.map Edit.removed).filterMap Edit.new? = [] := by
    rw [List.filterMap_map]
    exact List.filterMap_eq_nil_iff.mpr (fun _ _ => rfl)
  have added : (hunk.added.map Edit.added).filterMap Edit.new? = hunk.added := by
    rw [List.filterMap_map]
    exact List.filterMap_some
  rw [Hunk.newLines, GitHunk.edits, List.filterMap_append, removed, added, List.nil_append]

theorem readLine_header {hunk : GitHunk} {behind : List Char} {state : DiffState}
    : readLine state (hunk.header.toList ++ behind)
      = .ok { state with
          ranges := match state.current with
            | some path =>
              Function.update state.ranges path (state.ranges path ++ [hunk.attributed])
            | none => state.ranges } := by
  have start := @matchHunk_header _ ⟨hunk.oldStart, hunk.newStart, hunk.edits⟩ behind
  rw [newLines_edits] at start
  have other : ¬ "+++ ".toList.isPrefixOf (hunk.header.toList ++ behind) := by
    have text : hunk.header.toList.head? = some '@' := tag_header _
    intro starts
    obtain ⟨rest, parts⟩ := List.isPrefixOf_iff_prefix.mp starts
    obtain ⟨later, header⟩ := List.head?_eq_some_iff.mp text
    rw [header] at parts
    cases parts
  have counted := hunk.counted
  rw [readLine, if_neg other]
  obtain ⟨current, ranges⟩ := state
  cases current with
  | none => rfl
  | some path =>
    have first : intOf (toString (if hunk.added.length = 0 then hunk.newStart
        else hunk.newStart + 1)).toList
        = .ok (if hunk.added.length = 0 then hunk.newStart else hunk.newStart + 1) := by
      apply intOf_number
      split <;> omega
    have one : intOf ['1'] = .ok 1 := @intOf_number _ 1 (by decide)
    have second : intOf ((if hunk.added.length = 1 then none
        else some (toString hunk.added.length).toList).getD ['1']) = .ok hunk.added.length := by
      by_cases single : hunk.added.length = 1
      · rw [if_pos single, single]
        exact one
      · rw [if_neg single]
        exact intOf_number (by omega)
    have range : hunkRange (if hunk.added.length = 0 then hunk.newStart else hunk.newStart + 1)
        hunk.added.length = hunk.attributed := by
      unfold hunkRange GitHunk.attributed GitHunk.newRange?
      by_cases none_ : hunk.added = []
      · have zero : hunk.added.length = 0 := by rw [none_]; rfl
        rw [if_pos zero, if_pos zero, if_pos none_]
        refine Prod.ext rfl ?_
        dsimp only [Option.getD_none]
        split <;> omega
      · have some_ : hunk.added.length ≠ 0 := fun zero =>
          none_ (List.eq_nil_of_length_eq_zero zero)
        rw [if_neg some_, if_neg some_, if_neg none_]
        refine Prod.ext rfl ?_
        dsimp only [Option.getD_some]
        omega
    rw [GitHunk.header, start]
    dsimp only
    rw [first, second]
    dsimp only [bind, Except.bind]
    rw [range]
    rfl

def GitHunk.addTo (hunk : GitHunk) (state : DiffState) : DiffState :=
  { state with
    ranges := match state.current with
      | some path => Function.update state.ranges path (state.ranges path ++ [hunk.attributed])
      | none => state.ranges }

----------------------------------------
-- Files
----------------------------------------

/-- The diff of the file is told apart: its name is not quoted, and no piece of its content or of
its headings is taken for a header.
-/
structure Legible (file : GitFile) : Prop where
  path : file.deleted = false → file.hunks ≠ [] → PlainPath file.path
  headings : ∀ hunk ∈ file.hunks, ∀ piece ∈ (pieces hunk.headed).tail, Inert piece
  content : ∀ hunk ∈ file.hunks, ∀ line ∈ hunk.body, ∀ piece ∈ pieces line, Inert piece

theorem readPieces_hunk {hunk : GitHunk} {state : DiffState}
    (headings : ∀ piece ∈ (pieces hunk.headed).tail, Inert piece)
    (content : ∀ line ∈ hunk.body, ∀ piece ∈ pieces line, Inert piece)
    : readPieces state ((hunk.headed :: hunk.body).flatMap pieces)
      = .ok (hunk.addTo state) := by
  obtain ⟨first, later, parts⟩ :=
    @pieces_append hunk.header (if hunk.heading = "" then "" else " " ++ hunk.heading)
      (header_whole _)
  have split : pieces hunk.headed
      = String.ofList (hunk.header.toList ++ first) :: later := parts
  rw [split] at headings
  have rest : ∀ piece ∈ later ++ hunk.body.flatMap pieces, Inert piece := by
    intro piece member
    rcases List.mem_append.mp member with heading | inside
    · exact headings piece heading
    · obtain ⟨line, listed, among⟩ := List.mem_flatMap.mp inside
      exact content line listed piece among
  rw [List.flatMap_cons, split, List.cons_append, readPieces, List.foldlM_cons,
    String.toList_ofList, readLine_header]
  exact readPieces_inert rest (hunk.addTo state)

theorem readPieces_hunks {hunks : List GitHunk} {state : DiffState}
    (headings : ∀ hunk ∈ hunks, ∀ piece ∈ (pieces hunk.headed).tail, Inert piece)
    (content : ∀ hunk ∈ hunks, ∀ line ∈ hunk.body, ∀ piece ∈ pieces line, Inert piece)
    : readPieces state ((hunks.flatMap (fun hunk => hunk.headed :: hunk.body)).flatMap pieces)
      = .ok (hunks.foldl (fun state hunk => hunk.addTo state) state) := by
  induction hunks generalizing state with
  | nil => rfl
  | cons hunk rest ih =>
    have own := @readPieces_hunk _ hunk state (headings hunk List.mem_cons_self)
      (content hunk List.mem_cons_self)
    rw [List.flatMap_cons, List.flatMap_append, readPieces_append, own]
    exact ih (fun other member => headings other (List.mem_cons_of_mem hunk member))
      (fun other member => content other (List.mem_cons_of_mem hunk member))

omit [UnicodeLetters] in
theorem foldl_addTo {hunks : List GitHunk} {current : Option String}
    {ranges : String → List (Nat × Nat)}
    : hunks.foldl (fun state hunk => hunk.addTo state) ⟨current, ranges⟩
      = ⟨current, fun path =>
          ranges path ++ if current = some path then hunks.map GitHunk.attributed else []⟩ := by
  induction hunks generalizing ranges with
  | nil => simp
  | cons hunk rest ih =>
    rw [List.foldl_cons, GitHunk.addTo, ih]
    congr 1
    funext path
    cases current with
    | none => simp
    | some own =>
      by_cases same : own = path
      · subst same
        dsimp only
        rw [Function.update_self, if_pos rfl, if_pos rfl, List.map_cons, List.append_assoc]
        rfl
      · have other : ¬ some own = some path := fun equal => same (Option.some.inj equal)
        dsimp only
        rw [Function.update_of_ne (Ne.symm same), if_neg other, if_neg other]

omit [UnicodeLetters] in
theorem attributedRanges_cons {file : GitFile} {files : List GitFile} (path : String)
    : attributedRanges (file :: files) path
      = attributedRanges [file] path ++ attributedRanges files path := by
  have whole : file :: files = [file] ++ files := rfl
  unfold attributedRanges
  rw [whole, List.filter_append, List.flatMap_append]

omit [UnicodeLetters] in
theorem attributedRanges_singleton {file : GitFile} (path : String)
    : attributedRanges [file] path
      = if file.deleted = false ∧ file.path = path then file.hunks.map GitHunk.attributed
        else [] := by
  unfold attributedRanges
  by_cases own : file.deleted = false ∧ file.path = path
  · rw [if_pos own, List.filter_cons_of_pos (by simp [own]), List.filter_nil,
      List.flatMap_singleton]
  · rw [if_neg own, List.filter_cons_of_neg (by simpa using own), List.filter_nil]
    rfl

theorem label_whole {file : GitFile} (plain : file.deleted = false → PlainPath file.path)
    : ∀ c ∈ file.label.toList, isLineBreak c = false := by
  intro c inside
  unfold GitFile.label at inside
  by_cases gone : file.deleted
  · rw [if_pos gone] at inside
    have marks : ∀ c ∈ "/dev/null".toList, isLineBreak c = false := forall_mem_of_all (by decide)
    exact marks c inside
  · have there := plain (Bool.eq_false_iff.mpr gone)
    rw [if_neg gone, quotedName, if_pos (List.all_eq_true.mpr there.unquoted),
      String.toList_append, String.toList_append] at inside
    rcases List.mem_append.mp inside with name | blank
    · rcases List.mem_append.mp name with mark | path
      · have marks : ∀ c ∈ "b/".toList, isLineBreak c = false := forall_mem_of_all (by decide)
        exact marks c mark
      · obtain ⟨low, high, -⟩ := isUnquoted_iff.mp (there.unquoted c path)
        simp only [isLineBreak, Bool.or_eq_false_iff, Bool.and_eq_false_iff,
          decide_eq_false_iff_not, beq_eq_false_iff_ne]
        omega
    · have tab : ∀ c ∈ "\t".toList, isLineBreak c = false := forall_mem_of_all (by decide)
      split at blank
      · exact tab c blank
      · cases blank

theorem readPieces_file {file : GitFile} (legible : Legible file) {state : DiffState}
    : ∃ current, readPieces state (file.lines.flatMap pieces)
      = .ok ⟨current, fun path => state.ranges path ++ attributedRanges [file] path⟩ := by
  have front : ∀ piece ∈ file.front.flatMap pieces, Inert piece := by
    intro piece member
    obtain ⟨line, listed, among⟩ := List.mem_flatMap.mp member
    obtain ⟨whole, leads⟩ := file.whole line listed
    rw [pieces_of_whole whole] at among
    rw [List.mem_singleton.mp among]
    exact inert_of_head leads
  by_cases none_ : file.hunks = []
  · refine ⟨state.current, ?_⟩
    have empty : ∀ path, attributedRanges [file] path = [] := by
      intro path
      rw [attributedRanges_singleton, none_, List.map_nil, ite_self]
    rw [GitFile.lines, if_pos none_, List.append_nil, readPieces_inert front]
    simp only [empty, List.append_nil]
  · have header : pieces ("+++ " ++ file.label) = ["+++ " ++ file.label] := by
      apply pieces_of_whole
      intro c inside
      rw [String.toList_append] at inside
      rcases List.mem_append.mp inside with mark | inside
      · have marks : ∀ c ∈ "+++ ".toList, isLineBreak c = false := forall_mem_of_all (by decide)
        exact marks c mark
      · exact label_whole (fun there => legible.path there none_) c inside
    refine ⟨newPath ("+++ " ++ file.label).toList, ?_⟩
    have starts : "+++ ".toList.isPrefixOf ("+++ " ++ file.label).toList := by
      rw [String.toList_append]
      exact List.isPrefixOf_iff_prefix.mpr (List.prefix_append _ _)
    have named : readLine state ("+++ " ++ file.label).toList
        = .ok { state with current := newPath ("+++ " ++ file.label).toList } := by
      rw [readLine, if_pos starts]
    have read : ∀ path, (newPath ("+++ " ++ file.label).toList = some path)
        ↔ file.deleted = false ∧ file.path = path := by
      intro path
      cases gone : file.deleted with
      | true =>
        rw [newPath_deleted gone]
        exact iff_of_false (fun same => nomatch same) (fun there => nomatch there.1)
      | false =>
        rw [newPath_label gone (legible.path gone none_), Option.some_inj]
        exact (and_iff_right rfl).symm
    rw [GitFile.lines, if_neg none_, List.flatMap_append, readPieces_append,
      readPieces_inert front, List.flatMap_cons, header]
    refine Eq.trans (@readPieces_append _ _ ["+++ " ++ file.label] _) ?_
    have first : readPieces state ["+++ " ++ file.label]
        = .ok { state with current := newPath ("+++ " ++ file.label).toList } := by
      rw [readPieces, List.foldlM_cons, named]
      rfl
    rw [first]
    refine (readPieces_hunks legible.headings legible.content).trans ?_
    rw [foldl_addTo]
    simp only [attributedRanges_singleton, read]

/-- The ranges read from a diff are those attributed to the files that still exist: the new-side
lines of each hunk, and the line near a pure deletion.
-/
theorem parseUnifiedDiff_gitDiff {files : List GitFile} (legible : ∀ file ∈ files, Legible file)
    : parseUnifiedDiff (gitDiff files) = .ok (attributedRanges files) := by
  have reads : ∀ files : List GitFile, (∀ file ∈ files, Legible file) → ∀ state : DiffState,
      ∃ current, readPieces state ((files.flatMap GitFile.lines).flatMap pieces)
        = .ok ⟨current, fun path => state.ranges path ++ attributedRanges files path⟩ := by
    intro files
    induction files with
    | nil => exact fun _ state => ⟨state.current, by simp [readPieces, attributedRanges]; rfl⟩
    | cons file rest ih =>
      intro legible state
      obtain ⟨current, own⟩ :=
        @readPieces_file _ file (legible file List.mem_cons_self) state
      obtain ⟨final, later⟩ :=
        ih (fun other member => legible other (List.mem_cons_of_mem file member)) ⟨current, _⟩
      refine ⟨final, ?_⟩
      rw [List.flatMap_cons, List.flatMap_append, readPieces_append, own]
      refine later.trans ?_
      have split : ∀ path, attributedRanges (file :: rest) path
          = attributedRanges [file] path ++ attributedRanges rest path :=
        attributedRanges_cons
      simp only [split, List.append_assoc]
  obtain ⟨current, read⟩ := reads files legible {}
  rw [parseUnifiedDiff, gitDiff, textLines_unlines]
  have whole : ((files.flatMap GitFile.lines).flatMap pieces).foldlM
      (fun state line => readLine state line.toList) {}
      = Except.ok (⟨current, fun path => [] ++ attributedRanges files path⟩ : DiffState) := read
  rw [whole]
  rfl

end Reading

namespace SmallDiffs

abbrev letters : UnicodeLetters where
  value := fun c => if c.isDigit then some (c.toNat - 48) else none
  isAlpha := Char.isAlpha
  digits := fun _ _ => rfl
  letters := fun _ _ => rfl

def hunk (added : List String) (single : ∀ line ∈ "" :: (["x"] ++ added), '\n' ∉ line.toList)
    (counted : 3 + added.length < 2 ^ 63)
    : GitHunk where
  oldStart := 3
  newStart := 3
  removed := ["x"]
  added := added
  single := single
  counted := counted

theorem front_whole
    : ∀ line ∈ ["index 1..2 100644"], (∀ c ∈ line.toList, isLineBreak c = false)
      ∧ line.toList.head?.any (fun c => c.isAlpha || c == '-') := by
  intro line member
  rw [List.mem_singleton.mp member]
  exact ⟨forall_mem_of_all (by decide), by decide⟩

def file (path : String) (hunks : List GitHunk)
    (normal : ∀ segment ∈ path.toList.splitOn '/',
      segment ≠ [] ∧ segment ≠ ['.'] ∧ segment ≠ ['.', '.'])
    : GitFile where
  path := path
  front := ["index 1..2 100644"]
  hunks := hunks
  normal := normal
  whole := front_whole

def deleting : List GitFile :=
  [file "a.py" [hunk [] (by decide) (by decide)] (by decide)]

def header : List GitFile :=
  [file "a.py" [hunk ["++ b/b.py"] (by decide) (by decide), hunk ["y"] (by decide) (by decide)]
    (by decide)]

def quoted : List GitFile :=
  [file "é.py" [hunk ["y"] (by decide) (by decide)] (by decide)]

def feeding : List GitFile :=
  [file "a.py" [hunk ["y\x0c@@ -1 +9 @@"] (by decide) (by decide)] (by decide)]

def read (files : List GitFile) (path : String) : Option (List (Nat × Nat)) :=
  (@parseUnifiedDiff letters (gitDiff files)).toOption.map (fun ranges => ranges path)

theorem read_of_parsed {files : List GitFile} {ranges : String → List (Nat × Nat)}
    (parsed : @parseUnifiedDiff letters (gitDiff files) = .ok ranges) (path : String)
    : read files path = some (ranges path) := by
  rw [read, parsed]
  rfl

/-- A pure deletion is attributed to a line nearby; an added line that starts like a header, a
quoted name and a form feed in an added line lead the parser astray.
-/
theorem not_newRanges
    : @parseUnifiedDiff letters (gitDiff deleting) ≠ .ok (newRanges deleting)
      ∧ @parseUnifiedDiff letters (gitDiff header) ≠ .ok (newRanges header)
      ∧ @parseUnifiedDiff letters (gitDiff quoted) ≠ .ok (newRanges quoted)
      ∧ @parseUnifiedDiff letters (gitDiff feeding) ≠ .ok (newRanges feeding) := by
  refine ⟨fun parsed => ?_, fun parsed => ?_, fun parsed => ?_, fun parsed => ?_⟩
  · have same := read_of_parsed parsed "a.py"
    exact absurd same (by decide +kernel)
  · have same := read_of_parsed parsed "a.py"
    exact absurd same (by decide +kernel)
  · have same := read_of_parsed parsed "é.py"
    exact absurd same (by decide +kernel)
  · have same := read_of_parsed parsed "a.py"
    exact absurd same (by decide +kernel)

def changed : List GitFile :=
  [file "src/a.py" [hunk ["y", "z"] (by decide) (by decide), hunk [] (by decide) (by decide)]
    (by decide)]

theorem changed_legible : ∀ file ∈ changed, @Legible letters file := by
  intro file member
  rw [List.mem_singleton.mp member]
  refine @Legible.mk letters _ (fun _ _ => ?_) ?_ ?_
  · refine @PlainPath.mk letters _ ?_ (by decide) (by decide) (by decide)
    exact forall_mem_of_all (by decide)
  · decide +kernel
  · decide +kernel

/-- Two added lines and a pure deletion. -/
theorem changed_parsed
    : (∀ file ∈ changed, @Legible letters file)
      ∧ @parseUnifiedDiff letters (gitDiff changed) = .ok (attributedRanges changed) :=
  ⟨changed_legible, @parseUnifiedDiff_gitDiff letters changed changed_legible⟩

end SmallDiffs

end Murder.Candidates

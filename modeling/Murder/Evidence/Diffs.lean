import Murder.Evidence.Rendering
import Murder.Library.Patches

/-! Focused diffs as patches: what is left of a unified diff without its file headers. -/

namespace Murder.Evidence

open Contracts Library.Patches

def isFileHeader (line : String) : Bool := line.startsWith "--- " || line.startsWith "+++ "

def focusedHeader (path : String) (oldRange newRange : LineRange) : String :=
  oldRange.label path ++ " -> " ++ newRange.label path

/-- A payload within the limit, or what is left of it in front of the marker. -/
def boundedDiff (maxChars : Nat) (header payload : String) : FocusedDiffResult :=
  let keep := maxChars - focusedDiffTruncationMarker.length
  if payload.length ≤ maxChars then
    { text := payload, truncated := false }
  else if keep < header.length + 1 then
    { text := header ++ focusedDiffTruncationMarker, truncated := true }
  else
    let kept := (payload.toList.take keep).rdropWhile (· == '\n')
    { text := String.ofList kept ++ focusedDiffTruncationMarker, truncated := true }

/-- `build_focused_diff` with its limits. -/
def buildFocusedDiffWithin [Difflib] (maxChars contextLines : Nat) (path : String)
    (oldRange : LineRange) (oldText : String) (newRange : LineRange) (newText : String)
    : FocusedDiffResult :=
  if oldText = "" ∧ newText = "" then
    { text := "", truncated := false, unmappable := true }
  else
    let header := focusedHeader path oldRange newRange
    let body := Difflib.unifiedDiff (textLines oldText) (textLines newText)
      (oldRange.label path) (newRange.label path) contextLines
    let filtered := body.filter (fun line => !isFileHeader line)
    boundedDiff maxChars header
      (header ++ "\n" ++ joinLines filtered ++ (if filtered = [] then "" else "\n"))

def unlines (lines : List String) : String := joinLines lines ++ (if lines = [] then "" else "\n")

def fileHeaders (fromFile toFile : String) (hunks : List Hunk) : List String :=
  if hunks = [] then [] else ["--- " ++ fromFile, "+++ " ++ toFile]

/-- A unified diff is file headers and hunks that turn the old lines into the new ones. -/
def Difflib.Correct [Difflib] : Prop :=
  ∀ (old new : List String) (fromFile toFile : String) (context : Nat),
    ∃ hunks, Difflib.unifiedDiff old new fromFile toFile context
        = fileHeaders fromFile toFile hunks ++ hunks.flatMap Hunk.lines
      ∧ Applies 0 0 hunks old new

/-- Behind the header stand hunks that turn the old lines into the new ones. -/
def Reconstructs (header payload : String) (old new : List String) : Prop :=
  ∃ hunks, payload = header ++ "\n" ++ unlines (hunks.flatMap Hunk.lines)
    ∧ Applies 0 0 hunks old new

/-- No line behind the file headers is told for one of them. -/
def KeepsContent (diff : List String) : Prop := ∀ line ∈ diff.drop 2, isFileHeader line = false

theorem isFileHeader_iff {line : String}
    : isFileHeader line = true
      ↔ "--- ".toList <+: line.toList ∨ "+++ ".toList <+: line.toList := by
  unfold isFileHeader
  rw [Bool.or_eq_true, String.startsWith_string_iff, String.startsWith_string_iff]

theorem tag_fileHeader {line : String} (header : tag line = some '@')
    : isFileHeader line = false := by
  refine Bool.eq_false_iff.mpr (fun told => ?_)
  rw [isFileHeader_iff] at told
  unfold tag at header
  rcases told with front | front
  · obtain ⟨rest, parts⟩ := front
    rw [← parts] at header
    cases header
  · obtain ⟨rest, parts⟩ := front
    rw [← parts] at header
    cases header

theorem fileHeaders_dropped {fromFile toFile : String} {hunks : List Hunk}
    : (fileHeaders fromFile toFile hunks).filter (fun line => !isFileHeader line) = [] := by
  unfold fileHeaders
  split
  · rfl
  · simp [isFileHeader]

theorem unlines_newline {lines : List String} (some_ : lines ≠ [])
    : unlines lines = joinLines lines ++ "\n" := by
  unfold unlines
  rw [if_neg some_]

theorem unlines_inj {lines lines' : List String} (closed : ∀ line ∈ lines, '\n' ∉ line.toList)
    (closed' : ∀ line ∈ lines', '\n' ∉ line.toList) (same : unlines lines = unlines lines')
    : lines = lines' := by
  have empty : unlines [] = "" := rfl
  by_cases none_ : lines = []
  · by_cases none_' : lines' = []
    · rw [none_, none_']
    · rw [none_, empty, unlines_newline none_'] at same
      have length := congrArg String.length same
      rw [String.length_append] at length
      cases length
  · by_cases none_' : lines' = []
    · rw [none_', empty, unlines_newline none_] at same
      have length := congrArg String.length same
      rw [String.length_append] at length
      cases length
    · rw [unlines_newline none_, unlines_newline none_'] at same
      have joined := congrArg splitNewlines ((String.append_left_inj _).mp same)
      rwa [splitNewlines_joinLines none_ closed, splitNewlines_joinLines none_' closed'] at joined

section Diffs

variable {hunks : List Hunk} {oldText newText : String}

theorem newline_patch (applies : Applies 0 0 hunks (textLines oldText) (textLines newText))
    {line : String} (member : line ∈ hunks.flatMap Hunk.lines)
    : '\n' ∉ line.toList := by
  rcases applies.line member with header | context | removed | added
  · obtain ⟨hunk, rfl⟩ := header
    exact newline_header hunk
  · obtain ⟨text, inside, rfl⟩ := context
    simpa using textLines_newline inside
  · obtain ⟨text, inside, rfl⟩ := removed
    simpa using textLines_newline inside
  · obtain ⟨text, inside, rfl⟩ := added
    simpa using textLines_newline inside

/-- A diff without the lines told for file headers is complete when it had none such. -/
theorem reconstructs_filtered {header : String} {diff : List String} {fromFile toFile : String}
    (written : diff = fileHeaders fromFile toFile hunks ++ hunks.flatMap Hunk.lines)
    (applies : Applies 0 0 hunks (textLines oldText) (textLines newText))
    : Reconstructs header
        (header ++ "\n" ++ unlines (diff.filter (fun line => !isFileHeader line)))
        (textLines oldText) (textLines newText)
      ↔ KeepsContent diff := by
  have content : diff.drop 2 = hunks.flatMap Hunk.lines := by
    rw [written]
    unfold fileHeaders
    split
    · next none_ => rw [none_]; rfl
    · rfl
  have filtered : diff.filter (fun line => !isFileHeader line)
      = (hunks.flatMap Hunk.lines).filter (fun line => !isFileHeader line) := by
    rw [written, List.filter_append, fileHeaders_dropped, List.nil_append]
  unfold KeepsContent
  rw [filtered, content]
  constructor
  · intro ⟨hunks', payload, applies'⟩ line member
    have texts := (String.append_right_inj _).mp payload
    have lines := unlines_inj
      (fun line inside => newline_patch applies (List.mem_filter.mp inside).1)
      (fun line inside => newline_patch applies' inside) texts
    have kept := kept_of_filter (fun line header => by rw [tag_fileHeader header]; rfl) lines
      line member
    simpa using kept
  · intro kept
    refine ⟨hunks, ?_, applies⟩
    rw [List.filter_eq_self.mpr (fun line member => by rw [kept line member]; rfl)]

end Diffs

theorem boundedDiff_whole {maxChars : Nat} {header payload : String}
    (whole : (boundedDiff maxChars header payload).truncated = false)
    : (boundedDiff maxChars header payload).text = payload := by
  unfold boundedDiff at whole ⊢
  dsimp only at whole ⊢
  by_cases fits : payload.length ≤ maxChars
  · rw [if_pos fits]
  · rw [if_neg fits] at whole
    by_cases short : maxChars - focusedDiffTruncationMarker.length < header.length + 1
    · rw [if_pos short] at whole
      cases whole
    · rw [if_neg short] at whole
      cases whole

theorem boundedDiff_length {maxChars : Nat} {header payload : String}
    (room : header.length + focusedDiffTruncationMarker.length ≤ maxChars)
    : (boundedDiff maxChars header payload).text.length ≤ maxChars := by
  unfold boundedDiff
  dsimp only
  by_cases fits : payload.length ≤ maxChars
  · rwa [if_pos fits]
  · rw [if_neg fits]
    by_cases short : maxChars - focusedDiffTruncationMarker.length < header.length + 1
    · rw [if_pos short, String.length_append]
      exact room
    · rw [if_neg short, String.length_append, String.length_ofList]
      have kept := (List.rdropWhile_prefix (· == '\n') (payload.toList.take
        (maxChars - focusedDiffTruncationMarker.length))).length_le
      rw [List.length_take] at kept
      omega

section Results

variable [Difflib] {maxChars contextLines : Nat} {path : String} {oldRange newRange : LineRange}
  {oldText newText : String}

/-- An untruncated diff is complete exactly when no line of its content is told for a file
header; none is longer than the limit. -/
theorem buildFocusedDiffWithin_complete (correct : Difflib.Correct)
    : (¬ (oldText = "" ∧ newText = "")
        → (buildFocusedDiffWithin maxChars contextLines path oldRange oldText newRange
          newText).truncated = false
        → (Reconstructs (focusedHeader path oldRange newRange)
            (buildFocusedDiffWithin maxChars contextLines path oldRange oldText newRange
              newText).text
            (textLines oldText) (textLines newText)
          ↔ KeepsContent (Difflib.unifiedDiff (textLines oldText) (textLines newText)
            (oldRange.label path) (newRange.label path) contextLines)))
      ∧ ((focusedHeader path oldRange newRange).length
          + focusedDiffTruncationMarker.length ≤ maxChars
        → (buildFocusedDiffWithin maxChars contextLines path oldRange oldText newRange
          newText).text.length ≤ maxChars) := by
  constructor
  · intro some_ whole
    obtain ⟨hunks, written, applies⟩ := correct (textLines oldText) (textLines newText)
      (oldRange.label path) (newRange.label path) contextLines
    have complete := @reconstructs_filtered hunks oldText newText
      (focusedHeader path oldRange newRange) _ _ _ written applies
    unfold buildFocusedDiffWithin at whole ⊢
    rw [if_neg some_] at whole ⊢
    dsimp only at whole ⊢
    rw [boundedDiff_whole whole, String.append_assoc]
    exact complete
  · intro room
    unfold buildFocusedDiffWithin
    split
    · exact Nat.zero_le _
    · exact boundedDiff_length room

end Results

/-! A comparison that replaces the whole text where the two differ. -/
namespace Replacement

def hunks (old new : List String) : List Hunk :=
  if old = new then [] else [⟨0, 0, old.map Edit.removed ++ new.map Edit.added⟩]

abbrev difflib : Difflib where
  unifiedDiff old new fromFile toFile _ :=
    fileHeaders fromFile toFile (hunks old new) ++ (hunks old new).flatMap Hunk.lines

theorem applies_hunks (old new : List String) : Applies 0 0 (hunks old new) old new := by
  unfold hunks
  split
  · next same =>
      rw [same]
      exact .done 0 0 new
  · have olds : (old.map Edit.removed ++ new.map Edit.added).filterMap Edit.old? = old := by
      simp [List.filterMap_append, List.filterMap_map, Function.comp_def, Edit.old?]
    have news : (old.map Edit.removed ++ new.map Edit.added).filterMap Edit.new? = new := by
      simp [List.filterMap_append, List.filterMap_map, Function.comp_def, Edit.new?]
    have whole := @Applies.hunk 0 0 ⟨0, 0, old.map Edit.removed ++ new.map Edit.added⟩ [] []
      [] [] rfl rfl (.done _ _ [])
    unfold Hunk.oldLines Hunk.newLines at whole
    rw [olds, news] at whole
    simpa using whole

theorem correct : @Difflib.Correct difflib :=
  fun old new _ _ _ => ⟨hunks old new, rfl, applies_hunks old new⟩

theorem complete_replaced
    : (Reconstructs (focusedHeader "a.py" .first .first)
          (@buildFocusedDiffWithin difflib 8000 3 "a.py" .first "a" .first "b").text
          (textLines "a") (textLines "b")
        ↔ KeepsContent (@Difflib.unifiedDiff difflib (textLines "a") (textLines "b")
          (LineRange.first.label "a.py") (LineRange.first.label "a.py") 3))
      ∧ (@buildFocusedDiffWithin difflib 8000 3 "a.py" .first "a" .first "b").text.length
        ≤ 8000 :=
  ⟨(@buildFocusedDiffWithin_complete difflib 8000 3 "a.py" .first .first "a" "b" correct).1
      (by decide) (by decide +kernel),
    (@buildFocusedDiffWithin_complete difflib 8000 3 "a.py" .first .first "a" "b" correct).2
      (by decide +kernel)⟩

/-- A removed comment line is told for a file header and left out. -/
theorem not_complete_comment
    : ¬ ∀ [Difflib], Difflib.Correct → ∀ (maxChars contextLines : Nat) (path : String)
        (oldRange : LineRange) (oldText : String) (newRange : LineRange) (newText : String),
      ¬ (oldText = "" ∧ newText = "")
      → (buildFocusedDiffWithin maxChars contextLines path oldRange oldText newRange
        newText).truncated = false
      → Reconstructs (focusedHeader path oldRange newRange)
        (buildFocusedDiffWithin maxChars contextLines path oldRange oldText newRange newText).text
        (textLines oldText) (textLines newText) := by
  intro claimed
  have complete := @claimed difflib correct 8000 3 "a.sql" .first "-- a" .first "b"
    (by decide) (by decide +kernel)
  have payload : (@buildFocusedDiffWithin difflib 8000 3 "a.sql" .first "-- a" .first "b").text
      = focusedHeader "a.sql" .first .first ++ "\n"
        ++ unlines ((@Difflib.unifiedDiff difflib (textLines "-- a") (textLines "b") "a.sql:1-1"
          "a.sql:1-1" 3).filter (fun line => !isFileHeader line)) := by
    decide +kernel
  rw [payload] at complete
  have kept := (reconstructs_filtered rfl (applies_hunks _ _)).mp complete
  have told := kept "--- a" (by decide +kernel)
  have header : isFileHeader "--- a" = true := by decide +kernel
  rw [header] at told
  cases told

end Replacement

end Murder.Evidence

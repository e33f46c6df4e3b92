import Murder.Contracts.Common
import Murder.Library.Lines
import Murder.Library.Trimming

/-! Lines of a text as Python splits and joins them, and stripped texts. -/

namespace Murder.Contracts

open Library.Lines Library.Trimming

/-- The decimal digits of `unicodedata`. -/
class DecimalDigits where
  value : Char → Option Nat

/-- The line boundaries of `str.splitlines`. -/
def isLineBreak (c : Char) : Bool :=
  let code := c.toNat
  (0x0A ≤ code && code ≤ 0x0D) || (0x1C ≤ code && code ≤ 0x1E) || code == 0x85
    || code == 0x2028 || code == 0x2029

/-- `str.splitlines` behind the characters of an open line, the last one first. -/
def splitLines : List Char → List Char → List (List Char)
  | line, [] => if line = [] then [] else [line.reverse]
  | line, '\r' :: '\n' :: rest => line.reverse :: splitLines [] rest
  | line, c :: rest =>
    if isLineBreak c then line.reverse :: splitLines [] rest else splitLines (c :: line) rest

/-- `text.splitlines()` -/
def textLines (text : String) : List String :=
  (splitLines [] text.toList).map String.ofList

/-- `"\n".join(lines)` -/
def joinLines (lines : List String) : String := String.intercalate "\n" lines

/-- `text.split("\n")` -/
def splitNewlines (text : String) : List String :=
  (text.toList.splitOn '\n').map String.ofList

/-- No line holds a newline, by induction over the text behind the open line. -/
theorem splitLines_newline {before rest line : List Char} (opened : '\n' ∉ before)
    (member : line ∈ splitLines before rest)
    : '\n' ∉ line := by
  fun_induction splitLines before rest with
  | case1 => cases member
  | case2 before _ =>
    rw [List.mem_singleton.mp member, List.mem_reverse]
    exact opened
  | case3 before rest ih =>
    rcases List.mem_cons.mp member with same | later
    · rw [same, List.mem_reverse]
      exact opened
    · exact ih List.not_mem_nil later
  | case4 before c rest _ breaks ih =>
    rcases List.mem_cons.mp member with same | later
    · rw [same, List.mem_reverse]
      exact opened
    · exact ih List.not_mem_nil later
  | case5 before c rest _ within ih =>
    refine ih (fun newline => ?_) member
    rcases List.mem_cons.mp newline with same | earlier
    · exact within (same ▸ rfl)
    · exact opened earlier

theorem textLines_newline {text line : String} (member : line ∈ textLines text)
    : '\n' ∉ line.toList := by
  obtain ⟨chars, listed, rfl⟩ := List.mem_map.mp member
  rw [String.toList_ofList]
  exact splitLines_newline List.not_mem_nil listed

variable {lines : List String}

theorem splitNewlines_joinLines (some_ : lines ≠ []) (closed : ∀ line ∈ lines, '\n' ∉ line.toList)
    : splitNewlines (joinLines lines) = lines := by
  have joined : (joinLines lines).toList = ['\n'].intercalate (lines.map String.toList) := by
    simp [joinLines, String.toList_intercalate]
  unfold splitNewlines
  rw [joined, List.splitOn_intercalate _ (by simpa using closed) (by simpa using some_),
    List.map_map]
  simp [Function.comp_def]

theorem splitLines_eq (before rest : List Char)
    : splitLines before rest = linesAt isLineBreak before rest := by
  fun_induction splitLines before rest with
  | case1 => rfl
  | case2 before some_ => rw [linesAt, if_neg some_]
  | case3 before rest ih => rw [linesAt, ih]
  | case4 before c rest lone ends ih =>
    rw [linesAt, if_pos ends, ih]
    exact lone
  | case5 before c rest lone within ih =>
    rw [linesAt, if_neg within, ih]
    exact lone

theorem textLines_eq (text : String)
    : textLines text = (linesAt isLineBreak [] text.toList).map String.ofList := by
  rw [textLines, splitLines_eq]

theorem textLines_closed {text line : String} (member : line ∈ textLines text)
    : ∀ c ∈ line.toList, isLineBreak c = false := by
  rw [textLines_eq] at member
  obtain ⟨chars, listed, rfl⟩ := List.mem_map.mp member
  rw [String.toList_ofList]
  exact linesAt_closed (fun _ none_ => absurd none_ List.not_mem_nil) listed

theorem toList_joinLines (lines : List String)
    : (joinLines lines).toList = ['\n'].intercalate (lines.map String.toList) := by
  simp [joinLines, String.toList_intercalate]

theorem joinLines_concat {line : String} (some_ : lines ≠ [])
    : joinLines (lines ++ [line]) = joinLines lines ++ "\n" ++ line := by
  unfold joinLines
  rw [String.intercalate_append_of_ne_nil some_ (List.cons_ne_nil _ _),
    String.intercalate_singleton]

/-- Joined lines without breaks are split again, but for an empty last one. -/
theorem textLines_joinLines (closed : ∀ line ∈ lines, ∀ c ∈ line.toList, isLineBreak c = false)
    : textLines (joinLines lines)
      = if lines.getLast? = some "" then lines.dropLast else lines := by
  rw [textLines_eq, toList_joinLines, linesAt_intercalate (by decide) (by decide)]
  · have last : (lines.map String.toList).getLast? = some [] ↔ lines.getLast? = some "" := by
      simp [List.getLast?_map, String.toList_eq_nil_iff]
    simp only [last]
    split
    · simp [← List.map_dropLast, Function.comp_def]
    · simp [Function.comp_def]
  · intro chars listed
    obtain ⟨line, member, rfl⟩ := List.mem_map.mp listed
    exact closed line member

theorem toList_strip (text : String) : (strip text).toList = trim isSpace text.toList := by
  rw [strip, String.toList_ofList]
  rfl

theorem strip_strip (text : String) : strip (strip text) = strip text := by
  rw [← String.toList_inj, toList_strip, toList_strip, trim_trim]

theorem isSpace_of_isAlphanum {c : Char} (h : c.isAlphanum = true) : isSpace c = false := by
  change ((decide (c.val ≥ 65 ∧ c.val ≤ 90) || (c.val ≥ 97 && c.val ≤ 122))
    || (c.val ≥ 48 && c.val ≤ 57)) = true at h
  simp only [Bool.or_eq_true, Bool.and_eq_true, decide_eq_true_eq, ge_iff_le,
    UInt32.le_iff_toNat_le] at h
  simp only [isSpace, Char.toNat, Bool.or_eq_false_iff, Bool.and_eq_false_iff,
    decide_eq_false_iff_not, beq_eq_false_iff_ne]
  simp at h ⊢
  omega

theorem strip_of_none {text : String} (solid : ∀ c ∈ text.toList, isSpace c = false)
    : strip text = text := by
  rw [← String.toList_inj, toList_strip]
  exact trim_of_none (fun c inside => Bool.eq_false_iff.mp (solid c inside))

end Murder.Contracts

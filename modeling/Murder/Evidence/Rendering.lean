import Murder.Evidence.Planning

/-! Rendering a source segment for its recipient, and line numbers of extracted units against those of
source slices. Joined lines are split again, which drops an empty last line; the parsers end a
line at LF, CR LF or CR, slices at every break of `str.splitlines`.
-/

namespace Murder.Evidence

open Contracts Library.Lines Contracts Library.Lines Library.Trimming

/-- `RenderError` of the renderer. -/
inductive RenderError
  | unsupportedKind (kind : PayloadKind)
  | lineCount (range : LineRange) (lines expected : Nat)
deriving DecidableEq

def LineRange.size (range : LineRange) : Nat := range.stop - range.start + 1

def numbered (start : Nat) (lines : List String) : List String :=
  lines.zipIdx.map (fun (line, offset) => s!"{start + offset} {line}")

def renderSourceSegment (segment : EvidenceSegment) : Except RenderError String :=
  if segment.payloadKind = .source then
    let lines := textLines segment.payloadText
    let expected := segment.range.size
    if lines.length = expected then
      .ok (segment.range.label segment.path ++ "\n"
        ++ joinLines (numbered segment.range.start lines) ++ "\n")
    else
      .error (.lineCount segment.range lines.length expected)
  else
    .error (.unsupportedKind segment.payloadKind)

def lineAt (text : String) (number : Nat) : String := ((textLines text)[number - 1]?).getD ""

def LineRange.numbers (range : LineRange) : List Nat := List.range' range.start range.size

def shownSelection (path text : String) (range : LineRange) : String :=
  range.label path ++ "\n"
    ++ joinLines (range.numbers.map (fun number => s!"{number} {lineAt text number}")) ++ "\n"

/-- A segment of the slice is rendered as the selected lines. -/
def ShowsSelection (text : String) (range : LineRange) : Prop :=
  ∃ payload, extractSourceSlice text range = .ok payload
    ∧ ∀ segment : EvidenceSegment, segment.payloadKind = .source → segment.range = range
      → segment.payloadText = payload
      → renderSourceSegment segment = .ok (shownSelection segment.path text range)

section Selections

variable {text : String} {range : LineRange}

theorem slice_eq (within : range.stop ≤ (textLines text).length)
    : ((textLines text).take range.stop).drop (range.start - 1)
      = range.numbers.map (lineAt text) := by
  have positive := range.positive
  have ordered := range.ordered
  refine List.ext_getElem ?_ (fun index short _ => ?_)
  · simp [LineRange.numbers, LineRange.size]
    omega
  · have bound : range.start + index - 1 < (textLines text).length := by
      simp only [List.length_drop, List.length_take] at short
      omega
    have same : range.start - 1 + index = range.start + index - 1 := by omega
    simp [LineRange.numbers, lineAt, same, List.getElem?_eq_getElem bound]

theorem slice_closed {line : String} (member : line ∈ range.numbers.map (lineAt text))
    : ∀ c ∈ line.toList, isLineBreak c = false := by
  obtain ⟨number, _, rfl⟩ := List.mem_map.mp member
  unfold lineAt
  cases found : (textLines text)[number - 1]? with
  | none => simp
  | some line => exact textLines_closed (List.mem_of_getElem? found)

theorem numbered_slice
    : numbered range.start (range.numbers.map (lineAt text))
      = range.numbers.map (fun number => s!"{number} {lineAt text number}") := by
  unfold numbered
  refine List.ext_getElem ?_ (fun index _ _ => ?_)
  · simp
  · simp [LineRange.numbers]

theorem slice_last
    : (range.numbers.map (lineAt text)).getLast? = some (lineAt text range.stop) := by
  have ordered := range.ordered
  have last : range.start + (range.size - 1) = range.stop := by
    unfold LineRange.size
    omega
  have some_ : range.size ≠ 0 := by
    unfold LineRange.size
    omega
  simp [LineRange.numbers, List.getLast?_range', some_]
  congr 1

/-- A selection is shown exactly when its last line is not empty. -/
theorem showsSelection_iff (within : range.stop ≤ (textLines text).length)
    : ShowsSelection text range ↔ lineAt text range.stop ≠ "" := by
  have extracted : extractSourceSlice text range
      = .ok (joinLines (range.numbers.map (lineAt text))) := by
    unfold extractSourceSlice
    rw [if_neg (Nat.not_lt.mpr within), slice_eq within]
  have split_ := textLines_joinLines (fun line => @slice_closed text range line)
  rw [slice_last] at split_
  have length : (range.numbers.map (lineAt text)).length = range.size := by
    simp [LineRange.numbers]
  constructor
  · intro ⟨payload, same, shows_⟩ empty
    cases extracted.symm.trans same
    have rendered := shows_
      ⟨"", range, "", .source, joinLines (range.numbers.map (lineAt text)), [], .other, "",
        none⟩ rfl rfl rfl
    rw [if_pos (congrArg some empty)] at split_
    unfold renderSourceSegment at rendered
    rw [if_pos rfl, split_] at rendered
    have short : (range.numbers.map (lineAt text)).dropLast.length ≠ range.size := by
      rw [List.length_dropLast, length]
      unfold LineRange.size
      omega
    dsimp only at rendered
    rw [if_neg short] at rendered
    cases rendered
  · intro some_
    refine ⟨_, extracted, fun segment kind same payload => ?_⟩
    rw [if_neg (fun empty => some_ (Option.some.inj empty))] at split_
    unfold renderSourceSegment
    rw [if_pos kind, payload, split_, same]
    dsimp only
    rw [if_pos length, numbered_slice]
    rfl

end Selections

theorem blankBehind_ordered : 1 ≤ 2 := Nat.le_succ 1

def blankBehind : LineRange := ⟨1, 2, Nat.one_pos, blankBehind_ordered⟩

theorem showsSelection_first
    : ShowsSelection "a\n\nb" .first ↔ lineAt "a\n\nb" 1 ≠ "" :=
  showsSelection_iff (by decide)

/-- The slice of both lines is split into one, and nothing is rendered. -/
theorem not_showsSelection_blank
    : ¬ ∀ (text : String) (range : LineRange), range.stop ≤ (textLines text).length
      → ShowsSelection text range := by
  intro claimed
  obtain ⟨payload, extracted, shows_⟩ := claimed "a\n\nb" blankBehind (by decide)
  cases extracted
  have rendered := shows_
    ⟨"a.py", blankBehind, "", .source, "a\n", [], .other, "", none⟩ rfl rfl rfl
  have refused : renderSourceSegment
      ⟨"a.py", blankBehind, "", .source, "a\n", [], .other, "", none⟩
      = .error (.lineCount blankBehind 1 2) := rfl
  rw [refused] at rendered
  cases rendered

/-- `count_source_lines` -/
def countSourceLines (text : String) : Nat :=
  if text = "" then 0 else (textLines text).length

/-- A node of a tree-sitter tree with the rows of its two points, counted from zero. -/
structure Node where
  startRow : Nat
  endRow : Nat
  ordered : startRow ≤ endRow

/-- `line_range` -/
def Node.lineRange (node : Node) : LineRange where
  start := node.startRow + 1
  stop := node.endRow + 1
  positive := Nat.succ_pos _
  ordered := Nat.succ_le_succ node.ordered

section Texts

variable {text : String}

theorem countSourceLines_eq : countSourceLines text = (textLines text).length := by
  unfold countSourceLines
  split
  · next empty =>
      rw [empty]
      rfl
  · rfl

end Texts

end Murder.Evidence

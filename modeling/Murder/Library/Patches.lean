import Mathlib.Data.List.TakeWhile
import Mathlib.Data.Nat.Digits.Defs

/-! Unified diffs: hunks, how they are written as lines, and the texts they relate. -/

namespace Library.Patches

/-- A line of a hunk. -/
inductive Edit
  | context (line : String)
  | removed (line : String)
  | added (line : String)

namespace Edit

def line : Edit → String
  | context text => " " ++ text
  | removed text => "-" ++ text
  | added text => "+" ++ text

def old? : Edit → Option String
  | context text => some text
  | removed text => some text
  | added _ => none

def new? : Edit → Option String
  | context text => some text
  | removed _ => none
  | added text => some text

end Edit

/-- Edits behind a number of lines of either text. -/
structure Hunk where
  oldStart : Nat
  newStart : Nat
  edits : List Edit

namespace Hunk

def oldLines (hunk : Hunk) : List String := hunk.edits.filterMap Edit.old?

def newLines (hunk : Hunk) : List String := hunk.edits.filterMap Edit.new?

def rangeText (before count : Nat) : String :=
  if count = 1 then toString (before + 1)
  else toString (if count = 0 then before else before + 1) ++ "," ++ toString count

def header (hunk : Hunk) : String :=
  "@@ -" ++ rangeText hunk.oldStart hunk.oldLines.length
    ++ " +" ++ rangeText hunk.newStart hunk.newLines.length ++ " @@"

def lines (hunk : Hunk) : List String := hunk.header :: hunk.edits.map Edit.line

end Hunk

/-- The hunks turn the first text behind some lines into the second. -/
inductive Applies : Nat → Nat → List Hunk → List String → List String → Prop
  | done (oldAt newAt : Nat) (kept : List String) : Applies oldAt newAt [] kept kept
  | hunk {oldAt newAt : Nat} {hunk : Hunk} {hunks : List Hunk} {kept old new : List String}
    (oldStart : hunk.oldStart = oldAt + kept.length)
    (newStart : hunk.newStart = newAt + kept.length)
    (rest : Applies (hunk.oldStart + hunk.oldLines.length)
      (hunk.newStart + hunk.newLines.length) hunks old new)
    : Applies oldAt newAt (hunk :: hunks) (kept ++ hunk.oldLines ++ old)
        (kept ++ hunk.newLines ++ new)

/-- The character that tells what a line of a diff is. -/
def tag (line : String) : Option Char := line.toList.head?

theorem tag_header (hunk : Hunk) : tag hunk.header = some '@' := by
  simp [tag, Hunk.header]

theorem tag_edit (edit : Edit) : tag edit.line ≠ some '@' := by
  cases edit <;> simp [tag, Edit.line]

theorem length_side {side : Edit → Option String} {other : Char}
    (tagged : ∀ edit, (side edit).isSome = true ↔ tag edit.line ≠ some other)
    (edits : List Edit)
    : (edits.filterMap side).length
      = ((edits.map Edit.line).filter (fun line => tag line ≠ some other)).length := by
  induction edits with
  | nil => rfl
  | cons edit edits ih =>
    have first := tagged edit
    rw [List.filterMap_cons, List.map_cons, List.filter_cons]
    cases found : side edit with
    | none =>
      rw [found] at first
      rw [if_neg (by simpa using first)]
      exact ih
    | some text =>
      rw [found] at first
      rw [if_pos (decide_eq_true (first.mp rfl)), List.length_cons, List.length_cons, ih]

theorem length_oldLines (hunk : Hunk)
    : hunk.oldLines.length
      = ((hunk.edits.map Edit.line).filter (fun line => tag line ≠ some '+')).length :=
  length_side (fun edit => by cases edit <;> simp [Edit.old?, Edit.line, tag]) hunk.edits

theorem length_newLines (hunk : Hunk)
    : hunk.newLines.length
      = ((hunk.edits.map Edit.line).filter (fun line => tag line ≠ some '-')).length :=
  length_side (fun edit => by cases edit <;> simp [Edit.new?, Edit.line, tag]) hunk.edits

theorem toList_toString (number : Nat) : (toString number).toList = Nat.toDigits 10 number := by
  simp [Nat.repr]

theorem toString_inj {number number' : Nat}
    (same : (toString number).toList = (toString number').toList)
    : number = number' := by
  rw [toList_toString, toList_toString] at same
  simpa using congrArg (fun digits => Nat.ofDigitChars 10 digits 0) same

theorem digit_of_mem {number : Nat} {c : Char} (member : c ∈ (toString number).toList)
    : c.isDigit = true := by
  rw [toList_toString] at member
  exact Nat.isDigit_of_mem_toDigits (by decide) (by decide) member

/-- A header's range holds digits and at most one comma. -/
theorem mem_rangeText {before count : Nat} {c : Char}
    (member : c ∈ (Hunk.rangeText before count).toList)
    : c = ',' ∨ c.isDigit = true := by
  unfold Hunk.rangeText at member
  split at member
  · exact .inr (digit_of_mem member)
  · rw [String.toList_append, String.toList_append] at member
    rcases List.mem_append.mp member with inside | inside
    · rcases List.mem_append.mp inside with inside | inside
      · exact .inr (digit_of_mem inside)
      · exact .inl (by simpa using inside)
    · exact .inr (digit_of_mem inside)

/-- What stands behind the first separator is determined by the whole. -/
theorem append_separator_inj {front front' behind behind' : List Char} {separator : Char}
    (free : separator ∉ front) (free' : separator ∉ front')
    (same : front ++ separator :: behind = front' ++ separator :: behind')
    : front = front' ∧ behind = behind' := by
  induction front generalizing front' with
  | nil =>
    cases front' with
    | nil => exact ⟨rfl, (List.cons.inj same).2⟩
    | cons c front' => exact absurd ((List.cons.inj same).1 ▸ List.mem_cons_self) free'
  | cons c front ih =>
    cases front' with
    | nil => exact absurd ((List.cons.inj same).1 ▸ List.mem_cons_self) free
    | cons c' front' =>
      obtain ⟨first, rest⟩ := List.cons.inj same
      obtain ⟨fronts, behinds⟩ := ih (fun inside => free (List.mem_cons_of_mem _ inside))
        (fun inside => free' (List.mem_cons_of_mem _ inside)) rest
      exact ⟨by rw [first, fronts], behinds⟩

theorem rangeText_count {before before' count count' : Nat}
    (same : Hunk.rangeText before count = Hunk.rangeText before' count')
    : count = count' := by
  have free : ∀ number : Nat, ',' ∉ (toString number).toList :=
    fun number inside => absurd (digit_of_mem inside) (by decide)
  have texts := congrArg String.toList same
  unfold Hunk.rangeText at texts
  by_cases one : count = 1
  · by_cases one' : count' = 1
    · rw [one, one']
    · rw [if_pos one, if_neg one'] at texts
      exact absurd (texts ▸ (by simp : ',' ∈ _)) (free (before + 1))
  · by_cases one' : count' = 1
    · rw [if_neg one, if_pos one'] at texts
      exact absurd (texts ▸ (by simp : ',' ∈ _)) (free (before' + 1))
    · rw [if_neg one, if_neg one'] at texts
      simp only [String.toList_append, List.append_assoc] at texts
      obtain ⟨-, counts⟩ := append_separator_inj (free _) (free _) texts
      exact toString_inj counts

/-- A header tells how many lines of either text its hunk has. -/
theorem header_counts {hunk hunk' : Hunk} (same : hunk.header = hunk'.header)
    : hunk.oldLines.length = hunk'.oldLines.length
      ∧ hunk.newLines.length = hunk'.newLines.length := by
  have free : ∀ before count, ' ' ∉ (Hunk.rangeText before count).toList := by
    intro before count inside
    rcases mem_rangeText inside with comma | digit
    · cases comma
    · cases digit
  have texts := congrArg String.toList same
  unfold Hunk.header at texts
  simp only [String.toList_append, List.append_assoc] at texts
  obtain ⟨old, behind⟩ := append_separator_inj (free _ _) (free _ _)
    (List.append_cancel_left texts)
  obtain ⟨new, -⟩ := append_separator_inj (free _ _) (free _ _) (List.cons.inj behind).2
  exact ⟨rangeText_count (String.toList_inj.mp old), rangeText_count (String.toList_inj.mp new)⟩

theorem eq_of_filter {keep counts : String → Bool} {lines left : List String}
    (same : lines.filter keep = left)
    (length : (left.filter counts).length = (lines.filter counts).length)
    : ∀ line ∈ lines, counts line = true → keep line = true := by
  have all : ((lines.filter counts).filter keep).length = (lines.filter counts).length := by
    rw [← length, ← same, List.filter_filter, List.filter_filter]
    simp only [Bool.and_comm]
  intro line member counted
  exact List.length_filter_eq_length_iff.mp all line (List.mem_filter.mpr ⟨member, counted⟩)

/-- The lines of a hunk end where the next header starts. -/
theorem takeWhile_hunk {edits rest : List String} (inner : ∀ line ∈ edits, tag line ≠ some '@')
    (outer : ∀ line ∈ rest.head?, tag line = some '@')
    : (edits ++ rest).takeWhile (fun line => tag line ≠ some '@') = edits
      ∧ (edits ++ rest).dropWhile (fun line => tag line ≠ some '@') = rest := by
  rw [List.takeWhile_append_of_pos (by simpa using inner),
    List.dropWhile_append_of_pos (by simpa using inner)]
  cases rest with
  | nil => simp
  | cons line rest =>
    have first := outer line rfl
    simp [first]

theorem head?_hunks {hunks : List Hunk}
    : ∀ line ∈ (hunks.flatMap Hunk.lines).head?, tag line = some '@' := by
  intro line first
  cases hunks with
  | nil => cases first
  | cons hunk hunks =>
    cases first
    exact tag_header hunk

theorem tag_edits {hunk : Hunk} : ∀ line ∈ hunk.edits.map Edit.line, tag line ≠ some '@' := by
  intro line member
  obtain ⟨edit, -, rfl⟩ := List.mem_map.mp member
  exact tag_edit edit

/-- A patch without some of its lines is none, by induction on the hunks: their headers count
the lines of either text. -/
theorem kept_of_filter {keep : String → Bool} {hunks hunks' : List Hunk}
    (headers : ∀ line, tag line = some '@' → keep line = true)
    (same : (hunks.flatMap Hunk.lines).filter keep = hunks'.flatMap Hunk.lines)
    : ∀ line ∈ hunks.flatMap Hunk.lines, keep line = true := by
  induction hunks generalizing hunks' with
  | nil => simp
  | cons hunk hunks ih =>
    have front : keep hunk.header = true := headers _ (tag_header hunk)
    rw [List.flatMap_cons, Hunk.lines, List.cons_append, List.filter_cons_of_pos front,
      List.filter_append] at same
    cases hunks' with
    | nil => cases same
    | cons hunk' hunks' =>
      rw [List.flatMap_cons, Hunk.lines, List.cons_append] at same
      obtain ⟨sameHeader, lines⟩ := List.cons.inj same
      have inner : ∀ line ∈ (hunk.edits.map Edit.line).filter keep, tag line ≠ some '@' :=
        fun line member => tag_edits line (List.mem_filter.mp member).1
      have outer : ∀ line ∈ ((hunks.flatMap Hunk.lines).filter keep).head?,
          tag line = some '@' := by
        intro line first
        cases hunks with
        | nil => cases first
        | cons next hunks =>
          rw [List.flatMap_cons, Hunk.lines, List.cons_append,
            List.filter_cons_of_pos (headers _ (tag_header next))] at first
          cases first
          exact tag_header next
      obtain ⟨edits, rest⟩ := takeWhile_hunk inner outer
      obtain ⟨edits', rest'⟩ := takeWhile_hunk (@tag_edits hunk') (@head?_hunks hunks')
      rw [lines, edits'] at edits
      rw [lines, rest'] at rest
      obtain ⟨olds, news⟩ := header_counts sameHeader
      rw [length_oldLines, length_oldLines] at olds
      rw [length_newLines, length_newLines] at news
      intro line member
      rw [List.flatMap_cons] at member
      rcases List.mem_append.mp member with inside | behind
      · rcases List.mem_cons.mp inside with same | among
        · rw [same]
          exact front
        · by_cases removed : tag line = some '-'
          · refine eq_of_filter edits.symm olds.symm line among ?_
            rw [removed]
            decide
          · refine eq_of_filter edits.symm news.symm line among ?_
            simpa using removed
      · exact ih rest.symm line behind

/-- Every line of an edit is one of the two texts. -/
theorem Applies.mem {oldAt newAt : Nat} {hunks : List Hunk} {old new : List String}
    (applies : Applies oldAt newAt hunks old new) {hunk : Hunk} (member : hunk ∈ hunks)
    : (∀ text ∈ hunk.oldLines, text ∈ old) ∧ ∀ text ∈ hunk.newLines, text ∈ new := by
  induction applies with
  | done => cases member
  | hunk _ _ _ ih =>
    rcases List.mem_cons.mp member with rfl | later
    · exact ⟨fun text inside => by simp [inside], fun text inside => by simp [inside]⟩
    · obtain ⟨olds, news⟩ := ih later
      exact ⟨fun text inside => by simp [olds text inside],
        fun text inside => by simp [news text inside]⟩

/-- A line of a patch is a header or a tagged line of one of the texts. -/
theorem Applies.line {oldAt newAt : Nat} {hunks : List Hunk} {old new : List String}
    (applies : Applies oldAt newAt hunks old new) {line : String}
    (member : line ∈ hunks.flatMap Hunk.lines)
    : (∃ hunk, line = Hunk.header hunk) ∨ (∃ text ∈ old, line = " " ++ text)
      ∨ (∃ text ∈ old, line = "-" ++ text) ∨ ∃ text ∈ new, line = "+" ++ text := by
  obtain ⟨hunk, listed, inside⟩ := List.mem_flatMap.mp member
  rcases List.mem_cons.mp inside with same | edited
  · exact .inl ⟨hunk, same⟩
  · obtain ⟨edit, among, rfl⟩ := List.mem_map.mp edited
    obtain ⟨olds, news⟩ := applies.mem listed
    cases edit with
    | context text =>
      exact .inr (.inl ⟨text, olds text (List.mem_filterMap.mpr ⟨_, among, rfl⟩), rfl⟩)
    | removed text =>
      exact .inr (.inr (.inl ⟨text, olds text (List.mem_filterMap.mpr ⟨_, among, rfl⟩), rfl⟩))
    | added text =>
      exact .inr (.inr (.inr ⟨text, news text (List.mem_filterMap.mpr ⟨_, among, rfl⟩), rfl⟩))

theorem newline_header (hunk : Hunk) : '\n' ∉ hunk.header.toList := by
  have free : ∀ before count, '\n' ∉ (Hunk.rangeText before count).toList := by
    intro before count inside
    rcases mem_rangeText inside with comma | digit
    · cases comma
    · cases digit
  simp [Hunk.header, free]

end Library.Patches

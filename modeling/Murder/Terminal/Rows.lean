import Murder.Library.Tilings
import Murder.Library.Transactions
import Murder.Terminal.Buffer

/-! What the writes of a row keep: its length, the widths of its cells, and every wide cell in
front of its continuation.
-/

namespace Murder.Terminal

open Library.Tilings Library.Transactions

/-- A row of the screen's width, whose cells have widths up to two. -/
structure SizedRow (columns : Nat) (row : VtRow) : Prop where
  length : row.length = columns
  widths : ∀ cell ∈ row, cell.width ≤ 2

/-- A row of the screen's width in which wide cells and continuations are paired. -/
structure PairedRow (columns : Nat) (row : VtRow) : Prop where
  length : row.length = columns
  tiled : Tiled VtCell.width row

variable {columns : Nat} {row : VtRow}

theorem PairedRow.sized (h : PairedRow columns row)
    : SizedRow columns row :=
  ⟨h.length, fun _ member => h.tiled.width_le member⟩

theorem pairedRow_blankLine (columns : Nat) : PairedRow columns (blankLine columns) :=
  ⟨by simp [blankLine, blankCells],
    @tiled_replicate _ VtCell.width {} rfl columns⟩

variable {start stop : Nat}

section Items

variable {α : Type}

theorem itemAt_of_lt {items : List α} {index : Nat} (less : index < items.length)
    : itemAt items index = .ok items[index] := by
  simp [itemAt, List.getElem?_eq_getElem less]

theorem itemAt_append (left right : List α) (item : α)
    : itemAt (left ++ item :: right) left.length = .ok item := by
  simp [itemAt]

theorem setItem_of_lt {items : List α} {index : Nat} (less : index < items.length) (item : α)
    : setItem items index item = .ok (items.set index item) :=
  if_pos less

theorem setItem_append (left right : List α) (old item : α)
    : setItem (left ++ old :: right) left.length item = .ok (left ++ item :: right) := by
  rw [setItem_of_lt (by simp)]
  simp

theorem length_setSlice {items other : List α} (le : start ≤ stop)
    (fits : stop ≤ items.length) (same : other.length = stop - start)
    : (setSlice items start stop other).length = items.length := by
  simp only [setSlice, List.length_append, List.length_take, List.length_drop, same]
  omega

theorem mem_setSlice {items other : List α} {item : α}
    (member : item ∈ setSlice items start stop other)
    : item ∈ items ∨ item ∈ other := by
  simp only [setSlice, List.mem_append] at member
  rcases member with (front | new) | back
  · exact .inl (List.mem_of_mem_take front)
  · exact .inr new
  · exact .inl (List.mem_of_mem_drop back)

theorem mem_slice {items : List α} {item : α} (member : item ∈ slice items start stop)
    : item ∈ items :=
  List.mem_of_mem_take (List.mem_of_mem_drop member)

theorem mem_sliceTo {items : List α} {count : Nat} {item : α}
    (member : item ∈ sliceTo items count)
    : item ∈ items := by
  unfold sliceTo at member
  split at member
  · cases member
  · exact List.mem_of_mem_take member

end Items

theorem updateRow_of_ok {screen : VtScreen} {y : Nat}
    {change : VtRow → Except VtError VtRow} (less : y < screen.length)
    (changed : change screen[y] = .ok row)
    : updateRow screen y change = .ok (screen.set y row) := by
  unfold updateRow
  rw [itemAt_of_lt less]
  change (change screen[y] >>= fun row => setItem screen y row) = _
  rw [changed]
  exact setItem_of_lt less row

theorem mem_blankCells {count : Nat} {cell : VtCell} (member : cell ∈ blankCells count)
    : cell.width ≤ 2 := by
  rw [(List.mem_replicate.mp member).2]
  decide

theorem SizedRow.set (h : SizedRow columns row) (x : Nat) {cell : VtCell} (width : cell.width ≤ 2)
    : SizedRow columns (row.set x cell) := by
  refine ⟨by rw [List.length_set, h.length], fun other member => ?_⟩
  rcases List.mem_or_eq_of_mem_set member with old | rfl
  · exact h.widths other old
  · exact width

theorem SizedRow.setSlice {other : VtRow} (h : SizedRow columns row)
    (le : start ≤ stop) (fits : stop ≤ columns)
    (same : other.length = stop - start) (widths : ∀ cell ∈ other, cell.width ≤ 2)
    : SizedRow columns (setSlice row start stop other) := by
  refine ⟨?_, fun cell member => ?_⟩
  · rw [length_setSlice le (by rw [h.length]; exact fits) same, h.length]
  · rcases mem_setSlice member with old | new
    · exact h.widths cell old
    · exact widths cell new

/-- Cells in the place of all behind a place. -/
theorem SizedRow.setRest {other : VtRow} (h : SizedRow columns row)
    (le : start ≤ columns) (same : other.length = columns - start)
    (widths : ∀ cell ∈ other, cell.width ≤ 2)
    : SizedRow columns (Terminal.setSlice row start row.length other) := by
  rw [h.length]
  exact h.setSlice le (Nat.le_refl _) same widths

variable {x : Nat}

theorem clearBefore_sized (h : SizedRow columns row) (less : x < columns)
    : ∃ cleared, clearBefore x row = .ok cleared ∧ SizedRow columns cleared := by
  have inside : x < row.length := by rw [h.length]; exact less
  unfold clearBefore
  rw [itemAt_of_lt inside]
  dsimp only [bind, Except.bind]
  split
  · exact ⟨_, setItem_of_lt (by omega) _, h.set _ (by decide)⟩
  · exact ⟨row, rfl, h⟩

theorem clearBehind_sized (h : SizedRow columns row) (less : x < columns)
    : ∃ cleared, clearBehind columns x row = .ok cleared ∧ SizedRow columns cleared := by
  have inside : x < row.length := by rw [h.length]; exact less
  unfold clearBehind
  rw [itemAt_of_lt inside]
  dsimp only [bind, Except.bind]
  split
  · next wide =>
      exact ⟨_, setItem_of_lt (by rw [h.length]; exact wide.2) _, h.set _ (by decide)⟩
  · exact ⟨row, rfl, h⟩

theorem clearHalf_sized (h : SizedRow columns row) (less : x < columns)
    : ∃ cleared, clearHalf columns x row = .ok cleared ∧ SizedRow columns cleared := by
  obtain ⟨middle, before, sized⟩ := clearBefore_sized h less
  obtain ⟨last, behind, sized'⟩ := clearBehind_sized sized less
  exact ⟨last, except_bind_ok.mpr ⟨middle, before, behind⟩, sized'⟩

theorem clearHalf_opened (h : PairedRow columns row) (less : x < columns)
    : ∃ cleared, clearHalf columns x row = .ok cleared ∧ cleared.length = columns
        ∧ Opened VtCell.width x cleared := by
  have placed := h.tiled.placed (by rw [h.length]; exact less)
  have length := h.length
  cases placed with
  | @narrow left cell right same one before behind =>
    subst same
    refine ⟨left ++ cell :: right, ?_, length, ⟨left, cell, right, rfl, rfl, before, behind⟩⟩
    simp [clearHalf, clearBefore, clearBehind, itemAt_append, one, bind, Except.bind]
  | @lead left cell continuation right same two zero before behind =>
    subst same
    have next : left.length + 1 < columns := by
      rw [← length]
      simp
    refine ⟨left ++ cell :: ({} : VtCell) :: right, ?_, by rw [← length]; simp,
      ⟨left, cell, {} :: right, rfl, rfl, before, .narrow rfl behind⟩⟩
    have set := setItem_append (left ++ [cell]) right continuation {}
    simp only [List.append_assoc, List.singleton_append, List.length_append,
      List.length_singleton] at set
    simp [clearHalf, clearBefore, clearBehind, itemAt_append, two, bind, Except.bind, next, set]
  | @continuation left lead cell right same two zero before behind =>
    subst same
    have held := itemAt_append (left ++ [lead]) right cell
    have still := itemAt_append (left ++ [({} : VtCell)]) right cell
    have set := setItem_append left (cell :: right) lead {}
    simp only [List.append_assoc, List.singleton_append, List.length_append,
      List.length_singleton] at held still
    refine ⟨left ++ ({} : VtCell) :: cell :: right, ?_, by rw [← length]; simp,
      ⟨left ++ [{}], cell, right, by simp, by simp, before.append (.narrow rfl .nil), behind⟩⟩
    simp [clearHalf, clearBefore, clearBehind, held, still, set, zero, bind, Except.bind]

theorem clearHalf_next (h : Opened VtCell.width x row)
    (length : row.length = columns) (less : x + 1 < columns)
    : ∃ left first second right,
        clearHalf columns (x + 1) row = .ok (left ++ first :: second :: right)
        ∧ left.length = x ∧ (left ++ first :: second :: right).length = columns
        ∧ Tiled VtCell.width left ∧ Tiled VtCell.width right := by
  obtain ⟨left, cell, right, rfl, rfl, before, behind⟩ := h.parts
  cases behind with
  | nil => simp at length; omega
  | @narrow second right one rest =>
    refine ⟨left, cell, second, right, ?_, rfl, length, before, rest⟩
    have held := itemAt_append (left ++ [cell]) right second
    simp only [List.append_assoc, List.singleton_append, List.length_append,
      List.length_singleton] at held
    simp [clearHalf, clearBefore, clearBehind, held, one, bind, Except.bind]
  | @wide second continuation right two zero rest =>
    have next : left.length + 1 + 1 < columns := by
      rw [← length]
      simp
      omega
    refine ⟨left, cell, second, {} :: right, ?_, rfl, by rw [← length]; simp, before,
      .narrow rfl rest⟩
    have held := itemAt_append (left ++ [cell]) (continuation :: right) second
    have set := setItem_append (left ++ [cell, second]) right continuation {}
    simp only [List.append_assoc, List.length_append, List.cons_append, List.nil_append,
      List.length_cons, List.length_nil] at held set
    simp [clearHalf, clearBefore, clearBehind, held, two, next, set, bind, Except.bind]

theorem SizedRow.tail {cell : VtCell} (h : SizedRow (columns + 1) (cell :: row))
    : SizedRow columns row :=
  ⟨by simpa using h.length, fun other member => h.widths other (List.mem_cons_of_mem _ member)⟩

/-- Repair pairs whatever a row of the right length holds; by induction along the loop. -/
theorem repairFrom_paired {previous : Option Nat}
    (h : SizedRow columns row) (apart : previous ≠ some 2)
    : ∃ repaired, repairFrom previous columns row = .ok repaired
        ∧ PairedRow columns repaired := by
  induction previous, columns, row using repairFrom.induct with
  | case1 previous row =>
    have empty := List.eq_nil_of_length_eq_zero h.length
    subst empty
    exact ⟨[], rfl, rfl, .nil⟩
  | case2 previous columns =>
    have length := h.length
    simp at length
  | case3 previous columns cell rest zero blanked ih =>
    obtain ⟨tail, repaired, paired⟩ := ih h.tail (by simp [blanked, apart])
    have one : blanked.width = 1 := by simp [blanked, apart]
    refine ⟨blanked :: tail, ?_, by simp [paired.length], .narrow one paired.tiled⟩
    unfold repairFrom
    rw [if_pos zero]
    exact except_bind_ok.mpr ⟨tail, repaired, rfl⟩
  | case4 previous cell wide two rest =>
    have length := h.length
    have empty : rest = [] := by simpa using length
    subst empty
    refine ⟨[{}], ?_, rfl, .narrow rfl .nil⟩
    rw [repairFrom, if_neg wide, if_pos two]
  | case5 previous cell wide two columns =>
    have length := h.length
    simp at length
  | case6 previous cell wide two columns other rest ih =>
    obtain ⟨tail, repaired, paired⟩ := ih h.tail.tail (by simp)
    refine ⟨cell :: continuationCell cell.rendition :: tail, ?_, by simp [paired.length],
      .wide two rfl paired.tiled⟩
    rw [repairFrom, if_neg wide, if_pos two]
    exact except_bind_ok.mpr ⟨tail, repaired, rfl⟩
  | case7 previous columns cell rest notZero notTwo ih =>
    have one : cell.width = 1 := by
      have le := h.widths cell List.mem_cons_self
      omega
    obtain ⟨tail, repaired, paired⟩ := ih h.tail (by simp [one])
    refine ⟨cell :: tail, ?_, by simp [paired.length], .narrow one paired.tiled⟩
    unfold repairFrom
    rw [if_neg notZero, if_neg notTwo]
    exact except_bind_ok.mpr ⟨tail, repaired, rfl⟩

theorem repairWideCells_paired (h : SizedRow columns row)
    : ∃ repaired, repairWideCells columns row = .ok repaired ∧ PairedRow columns repaired :=
  repairFrom_paired h (by simp)

end Murder.Terminal

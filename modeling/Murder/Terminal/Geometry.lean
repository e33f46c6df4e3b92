import Murder.Terminal.Rows

/-! What every operation on a buffer keeps: a screen of the terminal's size with paired wide
cells, and the cursor and the scroll region inside it.
-/

namespace Murder.Terminal

open Library.Tilings Library.Transactions

/-- A screen of the terminal's size in which wide cells and continuations are paired. -/
structure ScreenSound (size : VtSize) (cells : VtScreen) : Prop where
  height : cells.length = size.rows
  rows : ∀ row ∈ cells, PairedRow size.columns row

/-- A screen of which one row may have lost its pairs. -/
structure ScreenTorn (size : VtSize) (y : Nat) (cells : VtScreen) : Prop where
  height : cells.length = size.rows
  others : ∀ i row, cells[i]? = some row → i ≠ y → PairedRow size.columns row
  current : ∀ row, cells[y]? = some row → SizedRow size.columns row

/-- The live attributes of a buffer of the terminal's size. -/
structure VtBuffer.Sound (size : VtSize) (buffer : VtBuffer) : Prop where
  screen : ScreenSound size buffer.cells
  x_lt : buffer.x < size.columns
  y_lt : buffer.y < size.rows
  top_le : buffer.scrollTop ≤ buffer.scrollBottom
  bottom_lt : buffer.scrollBottom < size.rows

section Screens

variable {size : VtSize} {y : Nat} {cells : VtScreen}

theorem ScreenSound.torn (h : ScreenSound size cells) (y : Nat) : ScreenTorn size y cells :=
  ⟨h.height, fun _ row held _ => h.rows row (List.mem_of_getElem? held),
    fun row held => (h.rows row (List.mem_of_getElem? held)).sized⟩

theorem ScreenTorn.set (h : ScreenTorn size y cells) {row : VtRow}
    (sized : SizedRow size.columns row)
    : ScreenTorn size y (cells.set y row) := by
  refine ⟨by rw [List.length_set, h.height], fun i other held apart => ?_, fun other held => ?_⟩
  · rw [List.getElem?_set_ne apart.symm] at held
    exact h.others i other held apart
  · rw [List.getElem?_set] at held
    split at held
    · split at held
      · cases held
        exact sized
      · cases held
    · next differs => exact absurd rfl differs

theorem ScreenTorn.repair (h : ScreenTorn size y cells) {row : VtRow}
    (paired : PairedRow size.columns row)
    : ScreenSound size (cells.set y row) := by
  refine ⟨by rw [List.length_set, h.height], fun other member => ?_⟩
  obtain ⟨i, held⟩ := List.mem_iff_getElem?.mp member
  by_cases same : y = i
  · rw [List.getElem?_set, if_pos same] at held
    split at held
    · cases held
      exact paired
    · cases held
  · rw [List.getElem?_set_ne same] at held
    exact h.others i other held (Ne.symm same)

theorem ScreenTorn.updateRow (h : ScreenTorn size y cells) (less : y < size.rows)
    {change : VtRow → Except VtError VtRow}
    (returns
      : ∀ row, SizedRow size.columns row
          → ∃ changed, change row = .ok changed ∧ SizedRow size.columns changed)
    : ∃ updated, updateRow cells y change = .ok updated ∧ ScreenTorn size y updated := by
  have inside : y < cells.length := by rw [h.height]; exact less
  obtain ⟨changed, returned, sized⟩ :=
    returns cells[y] (h.current _ (List.getElem?_eq_getElem inside))
  exact ⟨_, updateRow_of_ok inside returned, h.set sized⟩

theorem ScreenTorn.clearOverlap (h : ScreenTorn size y cells) (less : y < size.rows) (x : Nat)
    : ∃ cleared, clearOverlap size.columns y x cells = .ok cleared
        ∧ ScreenTorn size y cleared := by
  unfold Terminal.clearOverlap
  split
  · exact ⟨cells, rfl, h⟩
  · next inside =>
      exact h.updateRow less (fun row sized => clearHalf_sized sized (by omega))

theorem ScreenTorn.rewriteRow {buffer : VtBuffer} (h : ScreenTorn size buffer.y cells)
    (less : buffer.y < size.rows) {change : VtRow → VtRow}
    (keeps : ∀ row, SizedRow size.columns row → SizedRow size.columns (change row))
    : ∃ rewritten, buffer.rewriteRow size change cells = .ok rewritten
        ∧ ScreenSound size rewritten := by
  have inside : buffer.y < cells.length := by rw [h.height]; exact less
  have sized := keeps cells[buffer.y] (h.current _ (List.getElem?_eq_getElem inside))
  obtain ⟨repaired, returned, paired⟩ := repairWideCells_paired sized
  exact ⟨_, updateRow_of_ok inside returned, h.repair paired⟩

/-- Lines of the screen's width in the place of as many others. -/
theorem ScreenSound.setSlice (h : ScreenSound size cells) {other : VtScreen}
    {start stop : Nat} (le : start ≤ stop) (fits : stop ≤ size.rows)
    (same : other.length = stop - start) (paired : ∀ row ∈ other, PairedRow size.columns row)
    : ScreenSound size (setSlice cells start stop other) := by
  refine ⟨?_, fun row member => ?_⟩
  · rw [length_setSlice le (by rw [h.height]; exact fits) same, h.height]
  · rcases mem_setSlice member with old | new
    · exact h.rows row old
    · exact paired row new

theorem ScreenSound.blankRows (h : ScreenSound size cells) {rows : List Nat}
    (inside : ∀ row ∈ rows, row < size.rows)
    : ∃ blanked, VtBuffer.blankRows size rows cells = .ok blanked ∧ ScreenSound size blanked := by
  induction rows generalizing cells with
  | nil => exact ⟨cells, rfl, h⟩
  | cons row rest ih =>
    have less : row < cells.length := by
      rw [h.height]
      exact inside row List.mem_cons_self
    have first : ScreenSound size (cells.set row (blankLine size.columns)) :=
      (h.torn row).repair (pairedRow_blankLine size.columns)
    obtain ⟨blanked, returned, sound⟩ :=
      ih first (fun other held => inside other (List.mem_cons_of_mem _ held))
    refine ⟨blanked, ?_, sound⟩
    exact except_bind_ok.mpr ⟨_, setItem_of_lt less _, returned⟩

/-- A region that loses lines at one end and gains as many blank ones at the other. -/
theorem ScreenSound.scroll (h : ScreenSound size cells) {start stop count : Nat}
    (le : start < stop) (fits : stop ≤ size.rows) (pos : 0 < count)
    (few : count ≤ stop - start)
    : ScreenSound size (Terminal.setSlice cells start stop
          ((slice cells start stop).drop count
            ++ List.replicate count (blankLine size.columns)))
      ∧ ScreenSound size (Terminal.setSlice cells start stop
          (List.replicate count (blankLine size.columns)
            ++ sliceTo (slice cells start stop) count)) := by
  have length : (slice cells start stop).length = stop - start := by
    simp only [slice, List.length_drop, List.length_take, h.height]
    omega
  have blank : ∀ row ∈ List.replicate count (blankLine size.columns),
      PairedRow size.columns row := by
    intro row member
    rw [(List.mem_replicate.mp member).2]
    exact pairedRow_blankLine size.columns
  constructor
  · refine h.setSlice (by omega) fits (by simp [length]; omega) (fun row member => ?_)
    rcases List.mem_append.mp member with old | new
    · exact h.rows row (mem_slice (List.mem_of_mem_drop old))
    · exact blank row new
  · refine h.setSlice (by omega) fits ?_ (fun row member => ?_)
    · rw [List.length_append, List.length_replicate, sliceTo, if_neg (by omega),
        List.length_take, length]
      omega
    · rcases List.mem_append.mp member with new | old
      · exact blank row new
      · exact h.rows row (mem_slice (mem_sliceTo old))

end Screens

namespace VtBuffer.Sound

variable {size : VtSize} {buffer : VtBuffer}

theorem withCells (h : buffer.Sound size) {cells : VtScreen} (screen : ScreenSound size cells)
    : ({ buffer with cells := cells } : VtBuffer).Sound size :=
  ⟨screen, h.x_lt, h.y_lt, h.top_le, h.bottom_lt⟩

theorem withCursor (h : buffer.Sound size) {x y : Nat} (hx : x < size.columns)
    (hy : y < size.rows)
    : ({ buffer with x := x, y := y } : VtBuffer).Sound size :=
  ⟨h.screen, hx, hy, h.top_le, h.bottom_lt⟩

/-- Attributes beside the cells, the cursor and the region. -/
theorem withPendingWrap (h : buffer.Sound size) (pending : Bool)
    : ({ buffer with pendingWrap := pending } : VtBuffer).Sound size :=
  ⟨h.screen, h.x_lt, h.y_lt, h.top_le, h.bottom_lt⟩

theorem scrollUp (h : buffer.Sound size) (count : Nat)
    : (buffer.scrollUp size count).Sound size := by
  have le := h.top_le
  have lt := h.bottom_lt
  exact h.withCells (h.screen.scroll (by omega) (by omega) (by omega) (by omega)).1

theorem scrollDown (h : buffer.Sound size) (count : Nat)
    : (buffer.scrollDown size count).Sound size := by
  have le := h.top_le
  have lt := h.bottom_lt
  exact h.withCells (h.screen.scroll (by omega) (by omega) (by omega) (by omega)).2

theorem index (h : buffer.Sound size) : (buffer.index size).Sound size := by
  have lt := h.y_lt
  unfold VtBuffer.index
  split
  · exact (h.scrollUp 1).withPendingWrap false
  · exact (h.withCursor h.x_lt (by omega)).withPendingWrap false

theorem reverseIndex (h : buffer.Sound size) : (buffer.reverseIndex size).Sound size := by
  have lt := h.y_lt
  unfold VtBuffer.reverseIndex
  split
  · exact h.scrollDown 1
  · exact h.withCursor h.x_lt (by omega)

theorem insertLines (h : buffer.Sound size) {count : Nat} (pos : 0 < count)
    : (buffer.insertLines size count).Sound size := by
  have lt := h.bottom_lt
  unfold VtBuffer.insertLines
  split
  · exact h
  · next inside =>
      exact h.withCells (h.screen.scroll (by omega) (by omega) (by omega) (by omega)).2

theorem deleteLines (h : buffer.Sound size) {count : Nat} (pos : 0 < count)
    : (buffer.deleteLines size count).Sound size := by
  have lt := h.bottom_lt
  unfold VtBuffer.deleteLines
  split
  · exact h
  · next inside =>
      exact h.withCells (h.screen.scroll (by omega) (by omega) (by omega) (by omega)).1

theorem eraseSpan (h : buffer.Sound size) {start stop : Nat} (le : start ≤ stop)
    (fits : stop ≤ size.columns)
    : ∃ erased, buffer.eraseSpan size start stop = .ok erased ∧ erased.Sound size := by
  obtain ⟨first, cleared, torn⟩ := (h.screen.torn buffer.y).clearOverlap h.y_lt start
  obtain ⟨second, cleared', torn'⟩ := torn.clearOverlap h.y_lt (stop - 1)
  have keeps : ∀ row, SizedRow size.columns row
      → SizedRow size.columns (setSlice row start stop (blankCells (stop - start))) :=
    fun row sized => sized.setSlice le fits (by simp [blankCells])
      (fun cell member => mem_blankCells member)
  obtain ⟨cells, rewritten, screen⟩ := torn'.rewriteRow h.y_lt keeps
  refine ⟨_, ?_, h.withCells screen⟩
  exact except_bind_ok.mpr ⟨first, cleared,
    except_bind_ok.mpr ⟨second, cleared', except_bind_ok.mpr ⟨cells, rewritten, rfl⟩⟩⟩

theorem eraseLine (h : buffer.Sound size) (mode : Nat)
    : ∃ erased, buffer.eraseLine size mode = .ok erased ∧ erased.Sound size := by
  have lt := h.x_lt
  unfold VtBuffer.eraseLine
  split
  · exact h.eraseSpan (by omega) (by omega)
  · split
    · exact h.eraseSpan (by omega) (by omega)
    · exact h.eraseSpan (by omega) (by omega)

theorem eraseChars (h : buffer.Sound size) (count : Nat)
    : ∃ erased, buffer.eraseChars size count = .ok erased ∧ erased.Sound size := by
  have lt := h.x_lt
  exact h.eraseSpan (by omega) (by omega)

theorem eraseDisplay (h : buffer.Sound size) (mode : Nat)
    : ∃ erased, buffer.eraseDisplay size mode = .ok erased ∧ erased.Sound size := by
  have lt := h.y_lt
  unfold VtBuffer.eraseDisplay
  dsimp only
  split
  · obtain ⟨cells, blanked, screen⟩ := h.screen.blankRows
      (fun row member => List.mem_range.mp member)
    exact ⟨_, except_bind_ok.mpr ⟨cells, blanked, rfl⟩, h.withCells screen⟩
  split
  · obtain ⟨above, blanked, screen⟩ := @ScreenSound.blankRows _ _ h.screen
      (List.range buffer.y) (fun row member => by
        have less := List.mem_range.mp member
        omega)
    obtain ⟨first, cleared, torn⟩ := (screen.torn buffer.y).clearOverlap h.y_lt buffer.x
    have keeps : ∀ row, SizedRow size.columns row
        → SizedRow size.columns (setSlice row 0 (buffer.x + 1) (blankCells (buffer.x + 1))) :=
      fun row sized => sized.setSlice (by omega) h.x_lt (by simp [blankCells])
        (fun cell member => mem_blankCells member)
    obtain ⟨cells, rewritten, screen'⟩ := torn.rewriteRow h.y_lt keeps
    refine ⟨_, ?_, h.withCells screen'⟩
    exact except_bind_ok.mpr ⟨above, blanked,
      except_bind_ok.mpr ⟨first, cleared, except_bind_ok.mpr ⟨cells, rewritten, rfl⟩⟩⟩
  · obtain ⟨first, cleared, torn⟩ := (h.screen.torn buffer.y).clearOverlap h.y_lt buffer.x
    have keeps : ∀ row, SizedRow size.columns row
        → SizedRow size.columns (setSlice row buffer.x row.length
            (blankCells (size.columns - buffer.x))) :=
      fun row sized => sized.setRest (Nat.le_of_lt h.x_lt) (by simp [blankCells])
        (fun cell member => mem_blankCells member)
    obtain ⟨cells, rewritten, screen⟩ := torn.rewriteRow h.y_lt keeps
    obtain ⟨below, blanked, screen'⟩ := @ScreenSound.blankRows _ _ screen
      (List.range' (buffer.y + 1) (size.rows - (buffer.y + 1))) (fun row member => by
        have less := List.mem_range'_1.mp member
        omega)
    refine ⟨_, ?_, h.withCells screen'⟩
    exact except_bind_ok.mpr ⟨first, cleared,
      except_bind_ok.mpr ⟨cells, rewritten, except_bind_ok.mpr ⟨below, blanked, rfl⟩⟩⟩

theorem insertChars (h : buffer.Sound size) (count : Nat)
    : ∃ shifted, buffer.insertChars size count = .ok shifted ∧ shifted.Sound size
        ∧ shifted.x = buffer.x := by
  have lt := h.x_lt
  obtain ⟨first, cleared, torn⟩ := (h.screen.torn buffer.y).clearOverlap h.y_lt buffer.x
  have keeps : ∀ row, SizedRow size.columns row
      → SizedRow size.columns (setSlice row buffer.x row.length
          (blankCells (min count (size.columns - buffer.x))
            ++ slice row buffer.x (size.columns - min count (size.columns - buffer.x)))) := by
    intro row sized
    refine sized.setRest (Nat.le_of_lt lt) ?_ (fun cell member => ?_)
    · simp only [slice, blankCells, List.length_append, List.length_replicate,
        List.length_drop, List.length_take, sized.length]
      omega
    · rcases List.mem_append.mp member with new | old
      · exact mem_blankCells new
      · exact sized.widths cell (mem_slice old)
  obtain ⟨cells, rewritten, screen⟩ := torn.rewriteRow h.y_lt keeps
  refine ⟨_, ?_, h.withCells screen, rfl⟩
  exact except_bind_ok.mpr ⟨first, cleared, except_bind_ok.mpr ⟨cells, rewritten, rfl⟩⟩

theorem deleteChars (h : buffer.Sound size) (count : Nat)
    : ∃ shifted, buffer.deleteChars size count = .ok shifted ∧ shifted.Sound size := by
  have lt := h.x_lt
  obtain ⟨first, cleared, torn⟩ := (h.screen.torn buffer.y).clearOverlap h.y_lt buffer.x
  obtain ⟨second, cleared', torn'⟩ := torn.clearOverlap h.y_lt
    (buffer.x + min count (size.columns - buffer.x))
  have keeps : ∀ row, SizedRow size.columns row
      → SizedRow size.columns (setSlice row buffer.x row.length
          (row.drop (buffer.x + min count (size.columns - buffer.x))
            ++ blankCells (min count (size.columns - buffer.x)))) := by
    intro row sized
    refine sized.setRest (Nat.le_of_lt lt) ?_ (fun cell member => ?_)
    · simp only [blankCells, List.length_append, List.length_replicate, List.length_drop,
        sized.length]
      omega
    · rcases List.mem_append.mp member with old | new
      · exact sized.widths cell (List.mem_of_mem_drop old)
      · exact mem_blankCells new
  obtain ⟨cells, rewritten, screen⟩ := torn'.rewriteRow h.y_lt keeps
  refine ⟨_, ?_, h.withCells screen⟩
  exact except_bind_ok.mpr ⟨first, cleared,
    except_bind_ok.mpr ⟨second, cleared', except_bind_ok.mpr ⟨cells, rewritten, rfl⟩⟩⟩

/-- A combining character changes the text of a cell only. -/
theorem combine (h : buffer.Sound size) (char : Char)
    : ∃ combined, buffer.combine char = .ok combined ∧ combined.Sound size := by
  have inside : buffer.y < buffer.cells.length := by
    rw [h.screen.height]
    exact h.y_lt
  have paired := h.screen.rows _ (List.getElem_mem inside)
  have lt := h.x_lt
  unfold VtBuffer.combine
  split
  · next pos =>
      have length := paired.length
      have before : buffer.x - 1 < buffer.cells[buffer.y].length := by omega
      obtain ⟨idx, same⟩ : ∃ idx, idx = (if buffer.cells[buffer.y][buffer.x - 1].width = 0
          ∧ 0 < buffer.x - 1 then buffer.x - 1 - 1 else buffer.x - 1) := ⟨_, rfl⟩
      have less : idx < buffer.cells[buffer.y].length := by
        rw [same]
        split <;> omega
      have tiled : PairedRow size.columns (buffer.cells[buffer.y].set idx
          { buffer.cells[buffer.y][idx] with
            text := buffer.cells[buffer.y][idx].text.push char }) := by
        refine ⟨by rw [List.length_set, length], paired.tiled.of_map_eq ?_⟩
        have still := @List.set_getElem_self _ (buffer.cells[buffer.y].map VtCell.width) idx
          (by simpa using less)
        rw [List.getElem_map] at still
        rw [List.map_set]
        exact still
      refine ⟨_, ?_, h.withCells ((h.screen.torn buffer.y).repair tiled)⟩
      refine except_bind_ok.mpr ⟨_, itemAt_of_lt inside, ?_⟩
      refine except_bind_ok.mpr ⟨_, itemAt_of_lt before, ?_⟩
      dsimp only
      rw [← same]
      refine except_bind_ok.mpr ⟨_, itemAt_of_lt less, ?_⟩
      exact except_bind_ok.mpr ⟨_, updateRow_of_ok inside (setItem_of_lt less _), rfl⟩
  · exact ⟨buffer, rfl, h⟩

theorem clearOverlap_opened (h : buffer.Sound size)
    : ∃ row, clearOverlap size.columns buffer.y buffer.x buffer.cells
          = .ok (buffer.cells.set buffer.y row)
        ∧ row.length = size.columns ∧ Opened VtCell.width buffer.x row := by
  have inside : buffer.y < buffer.cells.length := by
    rw [h.screen.height]
    exact h.y_lt
  obtain ⟨row, cleared, length, opened⟩ :=
    clearHalf_opened (h.screen.rows _ (List.getElem_mem inside)) h.x_lt
  refine ⟨row, ?_, length, opened⟩
  unfold clearOverlap
  rw [if_neg (by have lt := h.x_lt; omega)]
  exact updateRow_of_ok inside cleared

theorem updateRow_set (h : buffer.Sound size) {row changed : VtRow}
    {change : VtRow → Except VtError VtRow} (returned : change row = .ok changed)
    : updateRow (buffer.cells.set buffer.y row) buffer.y change
      = .ok (buffer.cells.set buffer.y changed) := by
  have inside : buffer.y < (buffer.cells.set buffer.y row).length := by
    rw [List.length_set, h.screen.height]
    exact h.y_lt
  have same : (buffer.cells.set buffer.y row)[buffer.y] = row := by simp
  rw [updateRow_of_ok inside (by rw [same]; exact returned), List.set_set]

/-- A narrow character covers the cursor's place. -/
theorem cover_narrow (h : buffer.Sound size) (char : Char)
    : ∃ cleared written, buffer.clearFor size 1 = .ok cleared
        ∧ buffer.writeCell char 1 cleared = .ok written ∧ ScreenSound size written := by
  obtain ⟨row, cleared, length, opened⟩ := h.clearOverlap_opened
  have written := setItem_of_lt (by rw [length]; exact h.x_lt)
    ({ text := String.singleton char, width := 1, rendition := buffer.rendition } : VtCell)
  refine ⟨_, _, except_bind_ok.mpr ⟨_, cleared, rfl⟩,
    except_bind_ok.mpr ⟨_, h.updateRow_set written, rfl⟩, ?_⟩
  exact (h.screen.torn buffer.y).repair ⟨by rw [List.length_set, length], opened.set rfl⟩

/-- A wide character covers the cursor's place and the next one. -/
theorem cover_wide (h : buffer.Sound size) (room : buffer.x + 1 < size.columns) (char : Char)
    : ∃ cleared written, buffer.clearFor size 2 = .ok cleared
        ∧ buffer.writeCell char 2 cleared = .ok written ∧ ScreenSound size written := by
  obtain ⟨row, cleared, length, opened⟩ := h.clearOverlap_opened
  obtain ⟨left, first, second, right, cleared', place, whole, before, behind⟩ :=
    clearHalf_next opened length room
  have next : clearOverlap size.columns buffer.y (buffer.x + 1) (buffer.cells.set buffer.y row)
      = .ok (buffer.cells.set buffer.y (left ++ first :: second :: right)) := by
    unfold clearOverlap
    rw [if_neg (by omega)]
    exact h.updateRow_set cleared'
  obtain ⟨cell, made⟩ : ∃ cell : VtCell, cell
    = { text := String.singleton char, width := 2, rendition := buffer.rendition } := ⟨_, rfl⟩
  have lead := setItem_append left (second :: right) first cell
  have continuation := setItem_append (left ++ [cell]) right second
    (continuationCell buffer.rendition)
  simp only [List.append_assoc, List.singleton_append, List.length_append,
    List.length_singleton] at continuation
  rw [place] at lead continuation
  rw [made] at lead continuation
  refine ⟨_, _, except_bind_ok.mpr ⟨_, cleared, next⟩,
    except_bind_ok.mpr ⟨_, h.updateRow_set lead, h.updateRow_set continuation⟩, ?_⟩
  refine (h.screen.torn buffer.y).repair ⟨?_, before.append (.wide rfl rfl behind)⟩
  rw [← whole]
  simp

/-- In the last column a wide character has no place for its continuation. -/
theorem cover_squeezed (h : buffer.Sound size) (last : buffer.x + 1 = size.columns)
    (char : Char)
    : ∃ cleared, buffer.clearFor size 2 = .ok cleared
        ∧ buffer.writeCell char 2 cleared = .error .indexError := by
  obtain ⟨row, cleared, length, opened⟩ := h.clearOverlap_opened
  have next : clearOverlap size.columns buffer.y (buffer.x + 1) (buffer.cells.set buffer.y row)
      = .ok (buffer.cells.set buffer.y row) := by
    unfold clearOverlap
    rw [if_pos (by omega)]
  obtain ⟨cell, made⟩ : ∃ cell : VtCell, cell
    = { text := String.singleton char, width := 2, rendition := buffer.rendition } := ⟨_, rfl⟩
  have written : setItem row buffer.x cell = .ok (row.set buffer.x cell) :=
    setItem_of_lt (by rw [length]; exact h.x_lt) cell
  have refused : setItem (row.set buffer.x cell) (buffer.x + 1)
      (continuationCell buffer.rendition) = .error .indexError := by
    unfold setItem
    rw [if_neg (by rw [List.length_set]; omega)]
  have inside : buffer.y < (buffer.cells.set buffer.y (row.set buffer.x cell)).length := by
    rw [List.length_set, h.screen.height]
    exact h.y_lt
  rw [made] at written refused inside
  refine ⟨_, except_bind_ok.mpr ⟨_, cleared, next⟩, ?_⟩
  unfold VtBuffer.writeCell
  rw [h.updateRow_set written]
  dsimp only [bind, Except.bind]
  rw [if_pos rfl]
  unfold updateRow
  rw [itemAt_of_lt inside]
  dsimp only [bind, Except.bind]
  rw [List.getElem_set_self, refused]

theorem advance (h : buffer.Sound size) (modes : VtModes) (width : Nat)
    : (buffer.advance size modes width).Sound size := by
  have lt := h.x_lt
  unfold VtBuffer.advance
  split
  · have inside : size.columns - 1 < size.columns := by omega
    exact (h.withCursor inside h.y_lt).withPendingWrap _
  · have inside : buffer.x + width < size.columns := by omega
    exact h.withCursor inside h.y_lt

theorem shiftFor (h : buffer.Sound size) (modes : VtModes) (width : Nat)
    : ∃ shifted, buffer.shiftFor size modes width = .ok shifted ∧ shifted.Sound size
        ∧ shifted.x = buffer.x := by
  unfold VtBuffer.shiftFor
  split
  · exact h.insertChars width
  · exact ⟨buffer, rfl, h, rfl⟩

theorem printCell (h : buffer.Sound size) (modes : VtModes) (char : Char) {width : Nat}
    (fits : width = 1 ∨ width = 2 ∧ buffer.x + 1 < size.columns)
    : ∃ printed, buffer.printCell size modes char width = .ok printed ∧ printed.Sound size := by
  obtain ⟨shifted, returned, sound, same⟩ := h.shiftFor modes width
  have covers : ∃ cleared written, shifted.clearFor size width = .ok cleared
      ∧ shifted.writeCell char width cleared = .ok written ∧ ScreenSound size written := by
    rcases fits with rfl | ⟨rfl, room⟩
    · exact sound.cover_narrow char
    · exact sound.cover_wide (by rw [same]; exact room) char
  obtain ⟨cleared, written, cleared', written', screen⟩ := covers
  refine ⟨_, ?_, (sound.withCells screen).advance modes width⟩
  exact except_bind_ok.mpr ⟨shifted, returned,
    except_bind_ok.mpr ⟨cleared, cleared', except_bind_ok.mpr ⟨written, written', rfl⟩⟩⟩

theorem printCell_squeezed (h : buffer.Sound size) (modes : VtModes) (char : Char)
    (last : buffer.x + 1 = size.columns)
    : buffer.printCell size modes char 2 = .error .indexError := by
  obtain ⟨shifted, returned, sound, same⟩ := h.shiftFor modes 2
  obtain ⟨cleared, cleared', refused⟩ := sound.cover_squeezed (by rw [same]; exact last) char
  unfold VtBuffer.printCell
  rw [returned]
  dsimp only [bind, Except.bind]
  rw [cleared']
  dsimp only
  rw [refused]

theorem wrap (h : buffer.Sound size) : (buffer.wrap size).Sound size :=
  (h.withCursor (Nat.lt_of_le_of_lt (Nat.zero_le _) h.x_lt) h.y_lt).index

end VtBuffer.Sound

@[simp] theorem VtBuffer.index_x (size : VtSize) (buffer : VtBuffer)
    : (buffer.index size).x = buffer.x := by
  unfold VtBuffer.index
  split <;> rfl

@[simp] theorem VtBuffer.wrap_x (size : VtSize) (buffer : VtBuffer)
    : (buffer.wrap size).x = 0 :=
  VtBuffer.index_x size _

section Printing

variable [UnicodeData] {size : VtSize} {buffer : VtBuffer}

/-- A wide character printed on a terminal of one column that wraps around. -/
def Squeezed (size : VtSize) (modes : VtModes) (char : Char) : Prop :=
  size.columns = 1 ∧ modes.wraparound = true ∧ UnicodeData.combining char = 0
    ∧ isWide char = true

/-- Printing raises on a wide character that is squeezed, and on no other character. -/
theorem VtBuffer.Sound.putChar (h : buffer.Sound size) (modes : VtModes) (char : Char)
    (room : ¬ Squeezed size modes char)
    : ∃ printed, buffer.putChar size modes char = .ok printed ∧ printed.Sound size := by
  unfold VtBuffer.putChar
  split
  · exact h.combine char
  · next base =>
      have combining : UnicodeData.combining char = 0 := not_not.mp base
      have wrapped : (if buffer.pendingWrap then buffer.wrap size else buffer).Sound size := by
        split
        · exact h.wrap
        · exact h
      have lt := wrapped.x_lt
      dsimp only
      by_cases edge : (if isWide char then 2 else 1) = 2
          ∧ (if buffer.pendingWrap then buffer.wrap size else buffer).x + 1 = size.columns
      · rw [if_pos edge]
        have wide : isWide char = true := by
          by_contra narrow
          simp [narrow] at edge
        split
        · next around =>
            have many : size.columns ≠ 1 := fun one => room ⟨one, around, combining, wide⟩
            refine wrapped.wrap.printCell modes char (.inr ⟨rfl, ?_⟩)
            rw [VtBuffer.wrap_x]
            omega
        · exact ⟨_, rfl, wrapped⟩
      · rw [if_neg edge]
        refine wrapped.printCell modes char ?_
        cases wide : isWide char with
        | false => exact .inl rfl
        | true =>
          rw [wide] at edge
          have apart : (if buffer.pendingWrap then buffer.wrap size else buffer).x + 1
              ≠ size.columns := fun same => edge ⟨rfl, same⟩
          exact .inr ⟨rfl, by omega⟩

theorem VtBuffer.Sound.putChar_squeezed (h : buffer.Sound size) {modes : VtModes} {char : Char}
    (squeezed : Squeezed size modes char)
    : buffer.putChar size modes char = .error .indexError := by
  obtain ⟨one, around, combining, wide⟩ := squeezed
  have wrapped : (if buffer.pendingWrap then buffer.wrap size else buffer).Sound size := by
    split
    · exact h.wrap
    · exact h
  have lt := wrapped.x_lt
  unfold VtBuffer.putChar
  rw [if_neg (by simp [combining]), wide]
  dsimp only
  rw [if_pos ⟨if_pos rfl, by omega⟩, if_pos around, if_pos rfl]
  exact wrapped.wrap.printCell_squeezed modes char (by rw [VtBuffer.wrap_x, one])

end Printing

end Murder.Terminal

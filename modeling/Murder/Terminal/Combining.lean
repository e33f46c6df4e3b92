import Murder.Terminal.Reached

/-! Where a character is printed, and the cell a combining character behind it attaches to. -/

namespace Murder.Terminal

open Library.Transactions

/-- A character that is no control character. -/
def IsPrintable (char : Char) : Prop := 0x20 ≤ char.toNat ∧ char.toNat ≠ 0x7F

variable {char : Char}

/-- The bytes of a printable character are none the emulator takes for control characters. -/
theorem printable_encode (printable : IsPrintable char) {byte : UInt8}
    (member : byte ∈ String.utf8EncodeChar char)
    : byte ≠ 0x1B ∧ ¬ (byte < 0x20 ∨ byte = 0x7F) := by
  obtain ⟨least, other⟩ := printable
  have value : char.val.toNat = char.toNat := rfl
  have large : (char.toNat ≤ 0x7F ∧ byte.toNat = char.toNat) ∨ 0x80 ≤ byte.toNat := by
    unfold String.utf8EncodeChar at member
    dsimp only at member
    rw [value] at member
    split at member
    · next small =>
        refine .inl ⟨small, ?_⟩
        rw [List.mem_singleton.mp member, UInt8.toNat_ofNat']
        omega
    · refine .inr ?_
      repeat' split at member
      all_goals
        simp only [List.mem_cons, List.not_mem_nil, or_false] at member
        rcases member with rfl | rfl | rfl | rfl <;> rw [UInt8.toNat_ofNat'] <;> omega
  have neither : byte.toNat ≠ 0x1B ∧ ¬ byte.toNat < 0x20 ∧ byte.toNat ≠ 0x7F := by omega
  refine ⟨fun same => neither.1 (by rw [same]; rfl), fun control => ?_⟩
  rcases control with low | same
  · exact neither.2.1 (UInt8.lt_iff_toNat_lt.mp low)
  · exact neither.2.2 (by rw [same]; rfl)

section Encoded

variable [UnicodeData] {emulator : VtEmulator}

/-- Between sequences, and between characters. -/
structure Ground (emulator : VtEmulator) : Prop where
  text : emulator.parser.phase = .text
  whole : emulator.parser.pending = []

def holding (emulator : VtEmulator) (pending : List UInt8) : VtEmulator :=
  { emulator with parser := { emulator.parser with pending := pending } }

theorem feedByte_holding (text : emulator.parser.phase = .text) {pending : List UInt8}
    {byte : UInt8} (printable : byte ≠ 0x1B ∧ ¬ (byte < 0x20 ∨ byte = 0x7F))
    : (holding emulator pending).feedByte byte
      = VtEmulator.putChars (decode pending [byte]).1
          (holding emulator (decode pending [byte]).2) := by
  have phase : (holding emulator pending).parser.phase = .text := text
  unfold VtEmulator.feedByte
  rw [phase]
  dsimp only
  rw [if_neg printable.1, if_neg printable.2]
  rfl

/-- The front of an encoding is held, by induction on its length. -/
theorem feed_front (ground : Ground emulator) (printable : IsPrintable char)
    {count : Nat} (less : count < (String.utf8EncodeChar char).length)
    : emulator.feed ((String.utf8EncodeChar char).take count)
      = .ok (holding emulator ((String.utf8EncodeChar char).take count)) := by
  induction count with
  | zero =>
    have same : holding emulator [] = emulator := by
      unfold holding
      rw [← ground.whole]
    exact congrArg Except.ok same.symm
  | succ count ih =>
    have earlier := ih (Nat.lt_of_succ_lt less)
    have byte := List.getElem_mem (Nat.lt_of_succ_lt less)
    have front := (utf8Front_encode char).2 (count + 1) less
    rw [List.take_succ_eq_append_getElem (Nat.lt_of_succ_lt less)] at front ⊢
    rw [feed_append]
    refine except_bind_ok.mpr ⟨_, earlier, except_bind_ok.mpr ⟨_, ?_, rfl⟩⟩
    rw [feedByte_holding ground.text (printable_encode printable byte),
      decode_of_incomplete front]
    rfl

/-- The bytes of a printable character print it. -/
theorem feed_encode (ground : Ground emulator) (printable : IsPrintable char)
    : emulator.feed (String.utf8EncodeChar char)
      = emulator.tryBuffer (VtBuffer.putChar emulator.size emulator.modes char) := by
  obtain ⟨count, length⟩ : ∃ count, (String.utf8EncodeChar char).length = count + 1 :=
    Nat.exists_eq_succ_of_ne_zero
      (Nat.ne_of_gt (List.length_pos_iff.mpr String.utf8EncodeChar_ne_nil))
  have less : count < (String.utf8EncodeChar char).length := by omega
  have split : String.utf8EncodeChar char
      = (String.utf8EncodeChar char).take count ++ [(String.utf8EncodeChar char)[count]] := by
    rw [← List.take_succ_eq_append_getElem less, ← length, List.take_length]
  have complete := (utf8Front_encode char).1
  have printed : emulator.feed (String.utf8EncodeChar char)
      = (holding emulator ((String.utf8EncodeChar char).take count)).feedByte
          (String.utf8EncodeChar char)[count] := by
    conv_lhs => rw [split, feed_append, feed_front ground printable less]
    change ((holding emulator _).feedByte _ >>= fun after => pure after) = _
    rw [bind_pure]
  rw [split] at complete
  rw [printed, feedByte_holding ground.text
    (printable_encode printable (List.getElem_mem less)), decode_of_char complete,
    Char.ofNat_toNat]
  have same : holding emulator [] = emulator := by
    unfold holding
    rw [← ground.whole]
  dsimp only
  rw [same]
  change (emulator.tryBuffer _ >>= fun after => pure after) = _
  rw [bind_pure]

end Encoded

theorem updateRow_ok {screen next : VtScreen} {y : Nat} {change : VtRow → Except VtError VtRow}
    (updated : updateRow screen y change = .ok next)
    : ∃ row changed, screen[y]? = some row ∧ change row = .ok changed
        ∧ next = screen.set y changed ∧ y < screen.length := by
  obtain ⟨row, found, rest⟩ := except_bind_ok.mp updated
  obtain ⟨changed, ran, stored⟩ := except_bind_ok.mp rest
  unfold itemAt at found
  unfold setItem at stored
  split at found
  · next item held =>
      cases found
      split at stored
      · next less =>
          cases stored
          exact ⟨row, changed, held, ran, rfl, less⟩
      · cases stored
  · cases found

theorem setItem_ok {α : Type} {items next : List α} {index : Nat} {item : α}
    (stored : setItem items index item = .ok next)
    : index < items.length ∧ next = items.set index item := by
  unfold setItem at stored
  split at stored
  · next less =>
      cases stored
      exact ⟨less, rfl⟩
  · cases stored

variable {buffer : VtBuffer}

namespace VtBuffer

/-- A screen has a character's cell at the cursor of the buffer, behind it the continuation of
a wide one.
-/
structure Shows (char : Char) (width : Nat) (buffer : VtBuffer) (cells : VtScreen) : Prop where
  shown : ∃ row, cells[buffer.y]? = some row
    ∧ row[buffer.x]? = some {
        text := String.singleton char
        width := width
        rendition := buffer.rendition
      }
    ∧ (width = 2 → row[buffer.x + 1]? = some (continuationCell buffer.rendition))

theorem writeCell_shows {width : Nat}
    {cells written : VtScreen} (ran : buffer.writeCell char width cells = .ok written)
    : Shows char width buffer written := by
  obtain ⟨middle, first, second⟩ := except_bind_ok.mp ran
  obtain ⟨row, changed, held, stored, rfl, tall⟩ := updateRow_ok first
  obtain ⟨less, rfl⟩ := setItem_ok stored
  split at second
  · next two =>
      obtain ⟨row', changed', held', stored', rfl, _⟩ := updateRow_ok second
      obtain ⟨less', rfl⟩ := setItem_ok stored'
      rw [List.getElem?_set_self tall] at held'
      cases held'
      refine ⟨_, List.getElem?_set_self (by simpa using tall), ?_, fun _ => ?_⟩
      · rw [List.getElem?_set_ne (by omega), List.getElem?_set_self less]
      · exact List.getElem?_set_self less'
  · next narrow =>
      cases second
      exact ⟨_, List.getElem?_set_self tall, List.getElem?_set_self less,
        fun two => absurd two narrow⟩

theorem shiftFor_cells {size : VtSize} {modes : VtModes} {width : Nat} {shifted : VtBuffer}
    (ran : buffer.shiftFor size modes width = .ok shifted)
    : ∃ cells, shifted = { buffer with cells := cells } := by
  unfold VtBuffer.shiftFor at ran
  split at ran
  · obtain ⟨_, _, rest⟩ := except_bind_ok.mp ran
    obtain ⟨cells, _, same⟩ := except_bind_ok.mp rest
    cases same
    exact ⟨cells, rfl⟩
  · cases ran
    exact ⟨buffer.cells, rfl⟩

/-- Printing shows the character at the cursor and moves behind it. -/
theorem printCell_shows {size : VtSize} {modes : VtModes} {width : Nat}
    {printed : VtBuffer} (ran : buffer.printCell size modes char width = .ok printed)
    : Shows char width buffer printed.cells ∧ printed.y = buffer.y
      ∧ printed.x = (if size.columns ≤ buffer.x + width then size.columns - 1
          else buffer.x + width) := by
  obtain ⟨shifted, first, ran⟩ := except_bind_ok.mp ran
  obtain ⟨cleared, _, ran⟩ := except_bind_ok.mp ran
  obtain ⟨written, last, same⟩ := except_bind_ok.mp ran
  cases same
  obtain ⟨cells, rfl⟩ := shiftFor_cells first
  have shows_ := (writeCell_shows last).shown
  unfold VtBuffer.advance
  split
  · exact ⟨⟨shows_⟩, rfl, rfl⟩
  · exact ⟨⟨shows_⟩, rfl, rfl⟩

/-- What a combining character changes, if a cell is before the cursor. -/
theorem combine_at {mark : Char} {row : VtRow} {last cell : VtCell}
    {idx : Nat} (behind : 0 < buffer.x) (held : buffer.cells[buffer.y]? = some row)
    (before : row[buffer.x - 1]? = some last)
    (place : idx = if last.width = 0 ∧ 0 < buffer.x - 1 then buffer.x - 1 - 1 else buffer.x - 1)
    (found : row[idx]? = some cell)
    : buffer.combine mark = .ok { buffer with
        cells := buffer.cells.set buffer.y
          (row.set idx { cell with text := cell.text.push mark }) } := by
  obtain ⟨tall, same⟩ := List.getElem?_eq_some_iff.mp held
  obtain ⟨wide, _⟩ := List.getElem?_eq_some_iff.mp found
  unfold VtBuffer.combine
  rw [if_pos behind]
  refine except_bind_ok.mpr ⟨row, by simp [itemAt, held], ?_⟩
  refine except_bind_ok.mpr ⟨last, by simp [itemAt, before], ?_⟩
  dsimp only
  rw [← place]
  refine except_bind_ok.mpr ⟨cell, by simp [itemAt, found], ?_⟩
  have stored : setItem buffer.cells[buffer.y] idx { cell with text := cell.text.push mark }
      = .ok (row.set idx { cell with text := cell.text.push mark }) := by
    rw [same]
    exact setItem_of_lt wide _
  exact except_bind_ok.mpr ⟨_, updateRow_of_ok tall stored, rfl⟩

/-- A combining character changes no cell from the cursor on. -/
theorem combine_behind {mark : Char} {after : VtBuffer}
    (ran : buffer.combine mark = .ok after) {x : Nat} (behind : buffer.x ≤ x)
    : (after.cells[buffer.y]?).bind (fun row => row[x]?)
      = (buffer.cells[buffer.y]?).bind (fun row => row[x]?) := by
  unfold VtBuffer.combine at ran
  split at ran
  · next pos =>
      obtain ⟨row, _, ran⟩ := except_bind_ok.mp ran
      obtain ⟨last, _, ran⟩ := except_bind_ok.mp ran
      obtain ⟨cell, _, ran⟩ := except_bind_ok.mp ran
      obtain ⟨cells, updated, same⟩ := except_bind_ok.mp ran
      cases same
      obtain ⟨held, changed, found, stored, rfl, tall⟩ := updateRow_ok updated
      obtain ⟨_, rfl⟩ := setItem_ok stored
      dsimp only
      rw [List.getElem?_set_self tall, found, Option.bind_some, Option.bind_some]
      refine List.getElem?_set_ne ?_
      split <;> omega
  · cases ran
    rfl

/-- A combining character behind one that was printed in front of the last column attaches to
it: a wide one is found over its continuation, or under the cursor that could not pass it.
-/
theorem combine_printed {size : VtSize} {modes : VtModes} {char mark : Char} {width : Nat}
    {buffer printed : VtBuffer} (ran : buffer.printCell size modes char width = .ok printed)
    (widths : width = 1 ∨ width = 2) (room : buffer.x + 1 < size.columns)
    : ∃ row cell, printed.cells[buffer.y]? = some row ∧ row[buffer.x]? = some cell
        ∧ cell.text = String.singleton char
        ∧ printed.combine mark = .ok { printed with
            cells := printed.cells.set buffer.y
              (row.set buffer.x { cell with text := cell.text.push mark }) } := by
  obtain ⟨⟨row, held, found, continues⟩, y, x⟩ := printCell_shows ran
  refine ⟨row, _, held, found, rfl, ?_⟩
  rw [← y] at held ⊢
  rcases widths with rfl | rfl
  · rw [if_neg (by omega)] at x
    have before := found
    rw [show buffer.x = printed.x - 1 by omega] at before
    refine combine_at (by omega) held before ?_ found
    rw [if_neg (fun none_ => Nat.one_ne_zero none_.1), x, Nat.add_sub_cancel]
  · split at x
    · -- the cursor stays on the continuation in the last column
      have before := found
      rw [show buffer.x = printed.x - 1 by omega] at before
      refine combine_at (by omega) held before ?_ found
      rw [if_neg (fun none_ => Nat.succ_ne_zero 1 none_.1)]
      omega
    · have before := continues rfl
      rw [show buffer.x + 1 = printed.x - 1 by omega] at before
      refine combine_at (by omega) held before ?_ found
      rw [if_pos ⟨rfl, by omega⟩]
      omega

variable [UnicodeData]

/-- The buffer with the cursor where a character is printed: behind a pending wrap, and on
the next line if a wide one does not fit; without wraparound it is not printed there.
-/
def printBuffer (size : VtSize) (modes : VtModes) (char : Char) (buffer : VtBuffer)
    : Option VtBuffer :=
  let buffer := if buffer.pendingWrap then buffer.wrap size else buffer
  if (if isWide char then 2 else 1) = 2 ∧ buffer.x + 1 = size.columns then
    if modes.wraparound then some (buffer.wrap size) else none
  else
    some buffer

def printPlace (size : VtSize) (modes : VtModes) (char : Char) (buffer : VtBuffer)
    : Option (Nat × Nat) :=
  (buffer.printBuffer size modes char).map (fun buffer => (buffer.y, buffer.x))

theorem putChar_printBuffer {size : VtSize} {modes : VtModes}
    {ready : VtBuffer} (base : UnicodeData.combining char = 0)
    (found : buffer.printBuffer size modes char = some ready)
    : buffer.putChar size modes char
      = ready.printCell size modes char (if isWide char then 2 else 1) := by
  unfold printBuffer at found
  unfold VtBuffer.putChar
  rw [if_neg (by simp [base])]
  dsimp only at found ⊢
  by_cases edge : (if isWide char then 2 else 1) = 2
      ∧ (if buffer.pendingWrap then buffer.wrap size else buffer).x + 1 = size.columns
  · rw [if_pos edge] at found ⊢
    split at found
    · next around =>
        cases found
        rw [if_pos around]
    · cases found
  · rw [if_neg edge] at found ⊢
    cases found
    rfl

end VtBuffer

theorem push_ne (text : String) (char : Char) : text.push char ≠ text := by
  intro same
  have length := congrArg String.length same
  rw [String.length_push] at length
  omega

section Combining

variable [UnicodeData] {columns rows : Int} {emulator : VtEmulator} {base mark : Char}

/-- After a base character and a combining one, the cell in which the first was printed has
both as its text, and no other cell was changed by the second.
-/
def Attaches (emulator : VtEmulator) (base mark : Char) : Prop :=
  ∃ printed after y x row cell,
    emulator.feed (String.utf8EncodeChar base) = .ok printed
    ∧ printed.feed (String.utf8EncodeChar mark) = .ok after
    ∧ emulator.buffer.printPlace emulator.size emulator.modes base = some (y, x)
    ∧ printed.buffer.cells[y]? = some row ∧ row[x]? = some cell
    ∧ cell.text = String.singleton base
    ∧ after.buffer.cells
      = printed.buffer.cells.set y (row.set x { cell with text := cell.text.push mark })

/-- The character starts in front of the last column; a wide one may also go to the next line
of a terminal that wraps around.
-/
def StartsBeforeLast (emulator : VtEmulator) (base : Char) : Prop :=
  (if emulator.buffer.pendingWrap then 0 else emulator.buffer.x) + 1 < emulator.size.columns
  ∨ (isWide base = true ∧ emulator.modes.wraparound = true ∧ 1 < emulator.size.columns)

/-- Where a character is printed that does not start in front of the last column. -/
theorem printBuffer_late {ready : VtBuffer} (late : ¬ StartsBeforeLast emulator base)
    (found : emulator.buffer.printBuffer emulator.size emulator.modes base = some ready)
    : emulator.size.columns ≤ ready.x + 1 := by
  obtain ⟨narrow, wide⟩ := not_or.mp late
  unfold VtBuffer.printBuffer at found
  dsimp only at found
  by_cases edge : (if isWide base then 2 else 1) = 2
      ∧ (if emulator.buffer.pendingWrap then emulator.buffer.wrap emulator.size
        else emulator.buffer).x + 1 = emulator.size.columns
  · rw [if_pos edge] at found
    have isWide_ : isWide base = true := by
      by_contra other
      simp [other] at edge
    split at found
    · next around =>
        have few : ¬ 1 < emulator.size.columns := fun many => wide ⟨isWide_, around, many⟩
        omega
    · cases found
  · rw [if_neg edge] at found
    cases found
    split at narrow
    · next pending =>
        rw [if_pos pending, VtBuffer.wrap_x]
        omega
    · next settled =>
        rw [if_neg settled]
        omega

theorem printBuffer_early (sound : emulator.buffer.Sound emulator.size)
    (starts : StartsBeforeLast emulator base)
    : ∃ ready, emulator.buffer.printBuffer emulator.size emulator.modes base = some ready
        ∧ ready.Sound emulator.size ∧ ready.x + 1 < emulator.size.columns := by
  have wrapped : (if emulator.buffer.pendingWrap then emulator.buffer.wrap emulator.size
      else emulator.buffer).Sound emulator.size := by
    split
    · exact sound.wrap
    · exact sound
  have column : (if emulator.buffer.pendingWrap then emulator.buffer.wrap emulator.size
      else emulator.buffer).x = if emulator.buffer.pendingWrap then 0 else emulator.buffer.x := by
    split
    · exact VtBuffer.wrap_x _ _
    · rfl
  have less := wrapped.x_lt
  unfold VtBuffer.printBuffer
  dsimp only
  by_cases edge : (if isWide base then 2 else 1) = 2
      ∧ (if emulator.buffer.pendingWrap then emulator.buffer.wrap emulator.size
        else emulator.buffer).x + 1 = emulator.size.columns
  · rw [if_pos edge]
    rcases starts with early | wide
    · have last := edge.2
      rw [column] at last
      omega
    · rw [if_pos wide.2.1]
      refine ⟨_, rfl, wrapped.wrap, ?_⟩
      rw [VtBuffer.wrap_x]
      exact wide.2.2
  · rw [if_neg edge]
    refine ⟨_, rfl, wrapped, ?_⟩
    rcases starts with early | wide
    · rwa [column]
    · have apart : (if emulator.buffer.pendingWrap then emulator.buffer.wrap emulator.size
          else emulator.buffer).x + 1 ≠ emulator.size.columns :=
        fun last => edge ⟨if_pos wide.1, last⟩
      omega

/-- Combining characters attach exactly to the characters that are printed in front of the
last column.
-/
theorem attaches_iff (reached : Reached columns rows emulator) (ground : Ground emulator)
    (printable : IsPrintable base) (starts : UnicodeData.combining base = 0)
    (visible : IsPrintable mark) (combines : UnicodeData.combining mark ≠ 0)
    : Attaches emulator base mark ↔ StartsBeforeLast emulator base := by
  have sound := reached.sound
  constructor
  · intro attaches
    obtain ⟨printed, after, y, x, row, cell, first, second, place, held, found, text, changed⟩ :=
      attaches
    rw [feed_encode ground printable] at first
    obtain ⟨buffer, put, same⟩ := except_bind_ok.mp first
    cases same
    have still : Ground { emulator with buffer := buffer } := ⟨ground.text, ground.whole⟩
    rw [feed_encode still visible] at second
    obtain ⟨combined, put', same⟩ := except_bind_ok.mp second
    cases same
    obtain ⟨ready, prepared, same⟩ := Option.map_eq_some_iff.mp place
    cases same
    rw [VtBuffer.putChar_printBuffer starts prepared] at put
    have combine : buffer.combine mark = .ok combined := by
      unfold VtBuffer.putChar at put'
      rwa [if_pos combines] at put'
    obtain ⟨_, row_, column⟩ := VtBuffer.printCell_shows put
    by_contra late
    have last := printBuffer_late late prepared
    have behind : buffer.x ≤ ready.x := by
      have pos : 1 ≤ (if isWide base then 2 else 1) := by split <;> decide
      rw [column, if_pos (by omega)]
      omega
    have kept := VtBuffer.combine_behind combine behind
    have tall : ready.y < buffer.cells.length := (List.getElem?_eq_some_iff.mp held).1
    have inside : ready.x < row.length := (List.getElem?_eq_some_iff.mp found).1
    dsimp only at changed held
    rw [changed, row_, List.getElem?_set_self tall, held, Option.bind_some, Option.bind_some,
      List.getElem?_set_self inside, found] at kept
    exact push_ne cell.text mark (congrArg VtCell.text (Option.some.inj kept))
  · intro early
    have size : emulator.size = ⟨columns.toNat, rows.toNat⟩ := sound.same_size
    have buffer : emulator.buffer.Sound emulator.size := size ▸ sound.buffer
    obtain ⟨ready, prepared, readySound, room⟩ := printBuffer_early buffer early
    have widths : (if isWide base then 2 else 1) = 1 ∨ (if isWide base then 2 else 1) = 2 := by
      split
      · exact .inr rfl
      · exact .inl rfl
    obtain ⟨printed, put, _⟩ := readySound.printCell emulator.modes base
      (widths.imp id (fun two => ⟨two, room⟩))
    obtain ⟨row, cell, held, found, text, combined⟩ :=
      @VtBuffer.combine_printed _ _ _ mark _ _ _ put widths room
    have first : emulator.feed (String.utf8EncodeChar base)
        = .ok { emulator with buffer := printed } := by
      rw [feed_encode ground printable]
      refine except_bind_ok.mpr ⟨printed, ?_, rfl⟩
      rw [VtBuffer.putChar_printBuffer starts prepared, put]
    have still : Ground { emulator with buffer := printed } := ⟨ground.text, ground.whole⟩
    have second := feed_encode still visible
    refine ⟨_, _, ready.y, ready.x, row, cell, first,
      second.trans (except_bind_ok.mpr ⟨{ printed with
        cells := printed.cells.set ready.y
          (row.set ready.x { cell with text := cell.text.push mark }) }, ?_, rfl⟩),
      ?_, held, found, text, rfl⟩
    · unfold VtBuffer.putChar
      rw [if_pos combines, combined]
    · unfold VtBuffer.printPlace
      rw [prepared]
      rfl

end Combining

abbrev acuteAccent : UnicodeData where
  combining := fun char => if char = '\u0301' then 230 else 0
  eastAsianWidth := fun _ => .narrow

def shortTerminal (cells : VtRow) (x : Nat) (pendingWrap : Bool) : VtEmulator where
  size := ⟨2, 1⟩
  buffer := { cells := [cells], x := x, scrollBottom := 0, pendingWrap := pendingWrap }
  primaryState := (blankBuffer ⟨2, 1⟩).state
  alternateState := (blankBuffer ⟨2, 1⟩).state

/-- An accent behind a letter in the first column. -/
theorem attaches_firstColumn
    : @Attaches acuteAccent (shortTerminal [{}, {}] 0 false) 'e' '\u0301' := by
  have reached : @Reached acuteAccent 2 1 (shortTerminal [{}, {}] 0 false) := ⟨_, [], rfl, rfl⟩
  exact (@attaches_iff acuteAccent 2 1 _ 'e' '\u0301' reached ⟨rfl, rfl⟩
    ⟨by decide, by decide⟩ rfl ⟨by decide, by decide⟩ (by decide)).mpr (.inl (by decide))

/-- An accent behind a letter in the last column goes to the letter before it. -/
theorem not_attaches_lastColumn
    : ∃ start after, @Reached acuteAccent 2 1 start ∧ Ground start
        ∧ @VtEmulator.feed acuteAccent
            (String.utf8EncodeChar 'e' ++ String.utf8EncodeChar '\u0301') start = .ok after
        ∧ after.buffer.cells = [[{ text := "A\u0301" }, { text := "e" }]]
        ∧ ¬ @Attaches acuteAccent start 'e' '\u0301' := by
  have led : @VtEmulator.feed acuteAccent [0x41] (shortTerminal [{}, {}] 0 false)
      = .ok (shortTerminal [{ text := "A" }, {}] 1 false) := by decide +kernel
  have printed : @VtEmulator.feed acuteAccent (String.utf8EncodeChar 'e')
      (shortTerminal [{ text := "A" }, {}] 1 false)
      = .ok (shortTerminal [{ text := "A" }, { text := "e" }] 1 true) := by decide +kernel
  have combined : @VtEmulator.feed acuteAccent (String.utf8EncodeChar '\u0301')
      (shortTerminal [{ text := "A" }, { text := "e" }] 1 true)
      = .ok (shortTerminal [{ text := "A\u0301" }, { text := "e" }] 1 true) := by decide +kernel
  refine ⟨_, shortTerminal [{ text := "A\u0301" }, { text := "e" }] 1 true,
    ⟨_, [0x41], rfl, led⟩, ⟨rfl, rfl⟩, ?_, rfl, fun attaches => ?_⟩
  · rw [@feed_append acuteAccent]
    exact except_bind_ok.mpr ⟨_, printed, combined⟩
  · obtain ⟨_, _, y, x, row, cell, first, second, place, held, found, _, changed⟩ := attaches
    cases printed.symm.trans first
    cases combined.symm.trans second
    cases place
    cases held
    cases found
    exact absurd changed (by decide +kernel)

end Murder.Terminal

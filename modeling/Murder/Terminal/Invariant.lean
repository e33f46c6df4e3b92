import Murder.Terminal.Emulator
import Murder.Terminal.Geometry

/-! The geometry of the emulator over every byte stream, and the one character that breaks
it.
-/

namespace Murder.Terminal

open Library.Transactions

/-- Both buffers are sound, and what is retained between bytes is bounded. -/
structure VtEmulator.Sound (size : VtSize) (emulator : VtEmulator) : Prop where
  same_size : emulator.size = size
  buffer : emulator.buffer.Sound size
  primary : emulator.primaryState.restore.Sound size
  alternate : emulator.alternateState.restore.Sound size
  csi_le : emulator.parser.csi.length ≤ 4096
  incomplete : utf8Front emulator.parser.pending = .incomplete

/-- What stands between separators is no longer than the whole. -/
theorem length_of_mem_splitOn {char : Char} {body part : List Char}
    (member : part ∈ body.splitOn char)
    : part.length ≤ body.length := by
  induction body generalizing part with
  | nil =>
    rw [List.splitOn_nil, List.mem_singleton] at member
    rw [member]
  | cons first rest ih =>
    rw [List.splitOn_cons_eq_if_modifyHead] at member
    split at member
    · rcases List.mem_cons.mp member with rfl | later
      · exact Nat.zero_le _
      · exact Nat.le_succ_of_le (ih later)
    · cases parts : rest.splitOn char with
      | nil => simp [parts] at member
      | cons head tail =>
        rw [parts, List.modifyHead_cons] at member
        rcases List.mem_cons.mp member with rfl | later
        · exact Nat.succ_le_succ (ih (parts ▸ List.mem_cons_self))
        · exact Nat.le_succ_of_le (ih (parts ▸ List.mem_cons_of_mem _ later))

/-- A sequence the emulator retains is too short for a parameter that `int` refuses. -/
theorem csiParams_returns {body : List Char} (short : body.length ≤ 4096)
    : ∃ params, csiParams body = .ok params := by
  unfold csiParams
  split
  · exact ⟨[], rfl⟩
  · refine except_mapM_ok (fun part member => ?_)
    have le := length_of_mem_splitOn member
    split
    · exact ⟨_, if_neg (by omega)⟩
    · exact ⟨0, rfl⟩

theorem length_decodeAscii_le (bytes : List UInt8)
    : (decodeAscii bytes).length ≤ bytes.length := by
  unfold decodeAscii
  rw [List.length_map]
  exact List.length_filter_le _ _

theorem paramAt_pos (params : List Nat) (place : Nat) {default_ : Nat} (pos : 0 < default_)
    : 0 < paramAt params place default_ := by
  unfold paramAt
  split
  · exact pos
  · next value differs held =>
      exact Nat.pos_of_ne_zero differs
  · exact pos

namespace VtBuffer.Sound

variable {size : VtSize} {buffer : VtBuffer}

theorem homeTop_lt (h : buffer.Sound size) (modes : VtModes)
    : buffer.homeTop modes < size.rows := by
  have le := h.top_le
  have lt := h.bottom_lt
  unfold VtBuffer.homeTop
  split <;> omega

theorem homeBottom_lt (h : buffer.Sound size) (modes : VtModes)
    : buffer.homeBottom size modes < size.rows := by
  have lt := h.bottom_lt
  unfold VtBuffer.homeBottom
  split <;> omega

/-- A cursor held between the edges of its region. -/
theorem withRow (h : buffer.Sound size) {x y : Nat} (hx : x < size.columns)
    (hy : y < size.rows)
    : ({ buffer with x := x, y := y, pendingWrap := false } : VtBuffer).Sound size :=
  (h.withCursor hx hy).withPendingWrap false

theorem saveCursor (h : buffer.Sound size) : buffer.saveCursor.Sound size :=
  ⟨h.screen, h.x_lt, h.y_lt, h.top_le, h.bottom_lt⟩

theorem restoreCursor (h : buffer.Sound size) : (buffer.restoreCursor size).Sound size := by
  have hx := h.x_lt
  have hy := h.y_lt
  refine ⟨h.screen, ?_, ?_, h.top_le, h.bottom_lt⟩
  · show min buffer.savedX (size.columns - 1) < size.columns
    omega
  · show min buffer.savedY (size.rows - 1) < size.rows
    omega

theorem moveToRow (h : buffer.Sound size) (modes : VtModes) (row : Nat)
    : (buffer.moveToRow size modes row).Sound size :=
  h.withCursor h.x_lt (Nat.lt_of_le_of_lt (Nat.min_le_left _ _) (h.homeBottom_lt modes))

theorem control (h : buffer.Sound size) (byte : UInt8)
    : (VtEmulator.control size byte buffer).Sound size := by
  have lt := h.x_lt
  unfold VtEmulator.control
  split
  · exact h.withRow (by omega) h.y_lt
  split
  · exact h.withRow (by omega) h.y_lt
  split
  · exact h.index
  split
  · exact h.withRow (by omega) h.y_lt
  · exact h

/-- Every control sequence that acts on the buffer. -/
theorem csiBuffer (h : buffer.Sound size) (modes : VtModes) (final : Char)
    (params : List Nat)
    : ∃ after, VtEmulator.csiBuffer size modes final params buffer = .ok after
        ∧ after.Sound size := by
  have hx := h.x_lt
  have hy := h.y_lt
  have top := h.homeTop_lt modes
  have bottom := h.homeBottom_lt modes
  have one : 0 < paramAt params 0 1 := paramAt_pos params 0 Nat.zero_lt_one
  unfold VtEmulator.csiBuffer
  dsimp only
  split
  case h_1 => exact ⟨_, rfl, h.withCursor hx (by omega)⟩
  case h_2 => exact ⟨_, rfl, h.withCursor hx (by omega)⟩
  case h_3 => exact ⟨_, rfl, h.withCursor (by omega) hy⟩
  case h_4 => exact ⟨_, rfl, h.withCursor (by omega) hy⟩
  case h_5 => exact ⟨_, rfl, h.withCursor (by omega) (by omega)⟩
  case h_6 => exact ⟨_, rfl, h.withCursor (by omega) (by omega)⟩
  case h_7 => exact ⟨_, rfl, h.withCursor (by omega) hy⟩
  case h_8 => exact ⟨_, rfl, h.withCursor (by omega) hy⟩
  case h_9 =>
    have moved := h.moveToRow modes (paramAt params 0 1 - 1)
    exact ⟨_, rfl, moved.withCursor (by omega) moved.y_lt⟩
  case h_10 =>
    have moved := h.moveToRow modes (paramAt params 0 1 - 1)
    exact ⟨_, rfl, moved.withCursor (by omega) moved.y_lt⟩
  case h_11 => exact ⟨_, rfl, h.moveToRow modes _⟩
  case h_12 => exact h.eraseDisplay _
  case h_13 => exact h.eraseLine _
  case h_14 => exact h.eraseChars _
  case h_15 =>
    obtain ⟨shifted, returned, sound, -⟩ := h.insertChars (paramAt params 0 1)
    exact ⟨shifted, returned, sound⟩
  case h_16 => exact h.deleteChars _
  case h_17 => exact ⟨_, rfl, h.insertLines one⟩
  case h_18 => exact ⟨_, rfl, h.deleteLines one⟩
  case h_19 => exact ⟨_, rfl, h.scrollUp _⟩
  case h_20 => exact ⟨_, rfl, h.scrollDown _⟩
  case h_21 =>
    have region : (if paramAt params 0 1 - 1 < paramAt params 1 size.rows - 1
          ∧ paramAt params 1 size.rows - 1 < size.rows then
        { buffer with
          scrollTop := paramAt params 0 1 - 1
          scrollBottom := paramAt params 1 size.rows - 1 }
        else buffer).Sound size := by
      split
      · next inside => exact ⟨h.screen, hx, hy, Nat.le_of_lt inside.1, inside.2⟩
      · exact h
    exact ⟨_, rfl, region.withCursor (by omega) (region.homeTop_lt modes)⟩
  case h_22 => exact ⟨_, rfl, h.screen, hx, hy, h.top_le, h.bottom_lt⟩
  case h_23 => exact ⟨_, rfl, h.saveCursor⟩
  case h_24 => exact ⟨_, rfl, h.restoreCursor⟩
  case h_25 => exact ⟨_, rfl, h⟩

end VtBuffer.Sound

namespace VtEmulator.Sound

variable {size : VtSize} {emulator : VtEmulator}

theorem withBuffer (h : emulator.Sound size) {buffer : VtBuffer} (sound : buffer.Sound size)
    : ({ emulator with buffer := buffer } : VtEmulator).Sound size :=
  ⟨h.same_size, sound, h.primary, h.alternate, h.csi_le, h.incomplete⟩

theorem withModes (h : emulator.Sound size) (modes : VtModes)
    : ({ emulator with modes := modes } : VtEmulator).Sound size :=
  ⟨h.same_size, h.buffer, h.primary, h.alternate, h.csi_le, h.incomplete⟩

theorem withParser (h : emulator.Sound size) {parser : VtParser}
    (csi_le : parser.csi.length ≤ 4096) (incomplete : utf8Front parser.pending = .incomplete)
    : ({ emulator with parser := parser } : VtEmulator).Sound size :=
  ⟨h.same_size, h.buffer, h.primary, h.alternate, csi_le, incomplete⟩

theorem tryBuffer (h : emulator.Sound size) {operation : VtBuffer → Except VtError VtBuffer}
    (returns : ∃ buffer, operation emulator.buffer = .ok buffer ∧ buffer.Sound size)
    : ∃ after, emulator.tryBuffer operation = .ok after ∧ after.Sound size := by
  obtain ⟨buffer, returned, sound⟩ := returns
  exact ⟨_, except_bind_ok.mpr ⟨buffer, returned, rfl⟩, h.withBuffer sound⟩

theorem setPhase (h : emulator.Sound size) (phase : ParserPhase)
    : (emulator.setPhase phase).Sound size :=
  h.withParser h.csi_le h.incomplete

/-- The emulator that holds what a byte left undecoded. -/
theorem decoded (h : emulator.Sound size) (byte : UInt8)
    : ({ emulator with
        parser := { emulator.parser with
          pending := (decode emulator.parser.pending [byte]).2 } } : VtEmulator).Sound size :=
  h.withParser h.csi_le (decode_incomplete _ _)

theorem storeActiveState (h : emulator.Sound size) : emulator.storeActiveState.Sound size := by
  unfold VtEmulator.storeActiveState
  split
  · exact ⟨h.same_size, h.buffer, h.primary, h.buffer, h.csi_le, h.incomplete⟩
  · exact ⟨h.same_size, h.buffer, h.buffer, h.alternate, h.csi_le, h.incomplete⟩

theorem enterAlternate (h : emulator.Sound size) : emulator.enterAlternate.Sound size := by
  have stored := h.storeActiveState
  unfold VtEmulator.enterAlternate
  split
  · exact h
  · exact ⟨stored.same_size, stored.alternate, stored.primary, stored.alternate,
      stored.csi_le, stored.incomplete⟩

theorem leaveAlternate (h : emulator.Sound size) : emulator.leaveAlternate.Sound size := by
  have stored := h.storeActiveState
  unfold VtEmulator.leaveAlternate
  split
  · exact ⟨stored.same_size, stored.primary, stored.primary, stored.alternate,
      stored.csi_le, stored.incomplete⟩
  · exact h

theorem setPrivateMode (h : emulator.Sound size) (param : Nat) (enabled : Bool)
    : (emulator.setPrivateMode param enabled).Sound size := by
  have hx := h.buffer.x_lt
  unfold VtEmulator.setPrivateMode
  dsimp only
  split
  case h_1 => exact h.withModes _
  case h_2 =>
    exact (h.withBuffer (h.buffer.withCursor (by omega)
      (h.buffer.homeTop_lt { emulator.modes with origin := enabled }))).withModes _
  case h_3 => exact h.withModes _
  case h_4 =>
    exact h.withBuffer ⟨h.buffer.screen, hx, h.buffer.y_lt, h.buffer.top_le, h.buffer.bottom_lt⟩
  case h_5 =>
    split
    · exact h.enterAlternate
    · exact h.leaveAlternate
  case h_6 =>
    split
    · exact h.enterAlternate
    · exact h.leaveAlternate
  case h_7 =>
    obtain rfl := h.same_size
    split
    · exact (h.withBuffer h.buffer.saveCursor).enterAlternate
    · exact h.leaveAlternate.withBuffer h.leaveAlternate.buffer.restoreCursor
  case h_8 => exact h.withModes _
  case h_9 => exact h.withModes _
  case h_10 => exact h

theorem setModes (h : emulator.Sound size) (params : List Nat) (isPrivate enabled : Bool)
    : (emulator.setModes params isPrivate enabled).Sound size := by
  unfold VtEmulator.setModes
  induction params generalizing emulator with
  | nil => exact h
  | cons param rest ih =>
    rw [List.foldl_cons]
    apply ih
    split
    · exact h.setPrivateMode param enabled
    split
    · exact h.withModes _
    · exact h

theorem reset (h : emulator.Sound size) : emulator.reset.Sound size := by
  obtain rfl := h.same_size
  have pos := Nat.lt_of_le_of_lt (Nat.zero_le _) h.buffer.x_lt
  have tall := Nat.lt_of_le_of_lt (Nat.zero_le _) h.buffer.y_lt
  have home : ({ emulator.buffer with
      rendition := defaultRendition
      scrollTop := 0
      scrollBottom := emulator.size.rows - 1
      x := 0
      y := 0
      cursorVisible := true
      pendingWrap := false } : VtBuffer).Sound emulator.size :=
    ⟨h.buffer.screen, pos, tall, Nat.zero_le _, Nat.sub_one_lt_of_lt tall⟩
  exact ((h.withBuffer home).withModes {}).leaveAlternate

theorem escape (h : emulator.Sound size) (byte : UInt8)
    : (emulator.escape byte).Sound size := by
  obtain rfl := h.same_size
  have text := h.setPhase .text
  unfold VtEmulator.escape
  dsimp only
  split
  case h_1 => exact text.setPhase .csi
  case h_6 => exact text.withBuffer h.buffer.saveCursor
  case h_7 => exact text.withBuffer h.buffer.restoreCursor
  case h_8 => exact text.withBuffer h.buffer.index
  case h_9 => exact text.withBuffer h.buffer.reverseIndex
  case h_10 =>
    have moved := h.buffer.index
    exact text.withBuffer (moved.withCursor (Nat.lt_of_le_of_lt (Nat.zero_le _) moved.x_lt)
      moved.y_lt)
  case h_11 => exact text.withModes _
  case h_12 => exact text.withModes _
  case h_13 => exact text.reset
  case h_14 => exact text
  all_goals exact text.withParser h.csi_le h.incomplete

theorem feedString (h : emulator.Sound size) (byte : UInt8)
    : (emulator.feedString byte).Sound size := by
  unfold VtEmulator.feedString
  dsimp only
  split
  · exact h.withParser h.csi_le h.incomplete
  · exact h.withParser h.csi_le h.incomplete

/-- A complete control sequence returns, and leaves the parser as it was. -/
theorem csiDispatch (h : emulator.Sound size) {body : List UInt8} (short : body.length ≤ 4096)
    (final : UInt8)
    : ∃ after, emulator.csiDispatch body final = .ok after ∧ after.Sound size := by
  obtain rfl := h.same_size
  have le := length_decodeAscii_le body
  have waiting := h.withBuffer (h.buffer.withPendingWrap false)
  unfold VtEmulator.csiDispatch
  dsimp only
  refine except_bind_returns (csiParams_returns ?_) (fun params _ => ?_)
  · split
    · split
      · rw [List.length_tail, List.length_dropLast]
        omega
      · rw [List.length_dropLast]
        omega
    · split
      · rw [List.length_tail]
        omega
      · omega
  split
  · exact ⟨_, rfl, waiting.setModes _ _ _⟩
  split
  · exact ⟨_, rfl, waiting.setModes _ _ _⟩
  split
  · exact ⟨_, rfl, waiting.withBuffer ⟨h.buffer.screen, h.buffer.x_lt, h.buffer.y_lt,
      h.buffer.top_le, h.buffer.bottom_lt⟩⟩
  · exact waiting.tryBuffer (waiting.buffer.csiBuffer _ _ params)

theorem feedCsi (h : emulator.Sound size) (byte : UInt8)
    : ∃ after, emulator.feedCsi byte = .ok after ∧ after.Sound size := by
  unfold VtEmulator.feedCsi
  dsimp only
  split
  · obtain ⟨after, dispatched, sound⟩ := h.csiDispatch h.csi_le byte
    exact ⟨_, except_bind_ok.mpr ⟨after, dispatched, rfl⟩,
      sound.withParser (Nat.zero_le _) h.incomplete⟩
  split
  · next room =>
      refine ⟨_, rfl, h.withParser ?_ h.incomplete⟩
      rw [List.length_append, List.length_singleton]
      omega
  · exact ⟨_, rfl, h.withParser (Nat.zero_le _) h.incomplete⟩

end VtEmulator.Sound

section Text

variable [UnicodeData] {size : VtSize} {emulator : VtEmulator}

/-- Printing returns when no character is squeezed, under modes printing leaves alone. -/
theorem VtEmulator.Sound.putChars (h : emulator.Sound size) {text : List Char}
    (room : ∀ char ∈ text, ¬ Squeezed size emulator.modes char)
    : ∃ after, VtEmulator.putChars text emulator = .ok after ∧ after.Sound size := by
  induction text generalizing emulator with
  | nil => exact ⟨emulator, rfl, h⟩
  | cons char rest ih =>
    obtain rfl := h.same_size
    obtain ⟨buffer, printed, sound⟩ :=
      h.buffer.putChar emulator.modes char (room char List.mem_cons_self)
    obtain ⟨after, behind, last⟩ := ih (h.withBuffer sound)
      (fun other member => room other (.tail _ member))
    refine ⟨after, ?_, last⟩
    exact except_bind_ok.mpr ⟨_, except_bind_ok.mpr ⟨buffer, printed, rfl⟩, behind⟩

/-- A squeezed character among others makes printing raise. -/
theorem VtEmulator.Sound.putChars_squeezed (h : emulator.Sound size) {text : List Char}
    {char : Char} (member : char ∈ text) (squeezed : Squeezed size emulator.modes char)
    : ∃ raised, VtEmulator.putChars text emulator = .error raised := by
  induction text generalizing emulator with
  | nil => cases member
  | cons first rest ih =>
    obtain rfl := h.same_size
    unfold VtEmulator.putChars
    rw [List.foldlM_cons]
    by_cases now : Squeezed emulator.size emulator.modes first
    · refine ⟨.indexError, ?_⟩
      unfold VtEmulator.tryBuffer
      rw [h.buffer.putChar_squeezed now]
      rfl
    · obtain ⟨buffer, printed, sound⟩ := h.buffer.putChar emulator.modes first now
      obtain ⟨raised, later⟩ := ih (h.withBuffer sound)
        ((List.mem_cons.mp member).resolve_left (fun same => now (same ▸ squeezed))) squeezed
      refine ⟨raised, ?_⟩
      unfold VtEmulator.tryBuffer
      rw [printed]
      exact later

def VtEmulator.printed (emulator : VtEmulator) (byte : UInt8) : List Char :=
  if emulator.parser.phase = .text ∧ byte ≠ 0x1B ∧ ¬ (byte < 0x20 ∨ byte = 0x7F) then
    (decode emulator.parser.pending [byte]).1
  else
    []

/-- A byte that completes a wide character on a terminal of one column that wraps around. -/
def VtEmulator.Squeezes (emulator : VtEmulator) (byte : UInt8) : Prop :=
  ∃ char ∈ emulator.printed byte, Squeezed emulator.size emulator.modes char

/-- Retained bytes are the front of a character, so a flush prints nothing. -/
theorem VtEmulator.Sound.flushText (h : emulator.Sound size)
    : emulator.flushText = .ok emulator := by
  unfold VtEmulator.flushText VtEmulator.decodeText
  rw [decode_nil h.incomplete]
  rfl

theorem VtEmulator.Sound.feedByte (h : emulator.Sound size) {byte : UInt8}
    (room : ¬ emulator.Squeezes byte)
    : ∃ after, emulator.feedByte byte = .ok after ∧ after.Sound size := by
  unfold VtEmulator.feedByte
  split
  · exact ⟨_, rfl, h.feedString byte⟩
  · exact ⟨_, rfl, h.escape byte⟩
  · exact h.feedCsi byte
  · next text =>
      obtain rfl := h.same_size
      rw [h.flushText]
      split
      · exact ⟨_, rfl, h.setPhase .esc⟩
      split
      · exact ⟨_, rfl, h.withBuffer (h.buffer.control byte)⟩
      · next printable visible =>
          refine (h.decoded byte).putChars (fun char member squeezed => room ⟨char, ?_, squeezed⟩)
          unfold VtEmulator.printed
          rw [if_pos ⟨text, printable, visible⟩]
          exact member

theorem VtEmulator.Sound.feedByte_squeezed (h : emulator.Sound size) {byte : UInt8}
    (squeezes : emulator.Squeezes byte)
    : ∃ raised, emulator.feedByte byte = .error raised := by
  obtain ⟨char, member, squeezed⟩ := squeezes
  unfold VtEmulator.printed at member
  split at member
  · next cond =>
      obtain rfl := h.same_size
      obtain ⟨text, printable, visible⟩ := cond
      unfold VtEmulator.feedByte
      rw [text]
      dsimp only
      rw [if_neg printable, if_neg visible]
      exact (h.decoded byte).putChars_squeezed member squeezed
  · cases member

/-- No byte of the stream squeezes a character in the state it arrives in. -/
def Roomy : VtEmulator → List UInt8 → Prop
  | _, [] => True
  | emulator, byte :: rest =>
    ¬ emulator.Squeezes byte
    ∧ ∀ after, emulator.feedByte byte = .ok after → Roomy after rest

theorem VtEmulator.Sound.feed (h : emulator.Sound size) {data : List UInt8}
    (room : Roomy emulator data)
    : ∃ after, emulator.feed data = .ok after ∧ after.Sound size := by
  induction data generalizing emulator with
  | nil => exact ⟨emulator, rfl, h⟩
  | cons byte rest ih =>
    obtain ⟨next, fed, sound⟩ := h.feedByte room.1
    obtain ⟨after, behind, last⟩ := ih sound (room.2 next fed)
    exact ⟨after, except_bind_ok.mpr ⟨next, fed, behind⟩, last⟩

/-- A stream that was fed without a raise had room. -/
theorem VtEmulator.Sound.roomy (h : emulator.Sound size) {data : List UInt8}
    {after : VtEmulator} (fed : emulator.feed data = .ok after)
    : Roomy emulator data := by
  induction data generalizing emulator with
  | nil => trivial
  | cons byte rest ih =>
    obtain ⟨next, first, behind⟩ := except_bind_ok.mp fed
    have room : ¬ emulator.Squeezes byte := by
      intro squeezes
      obtain ⟨raised, refused⟩ := h.feedByte_squeezed squeezes
      rw [refused] at first
      cases first
    obtain ⟨other, fed', sound⟩ := h.feedByte room
    refine ⟨room, fun next' first' => ?_⟩
    rw [first] at first' fed'
    cases first'
    cases fed'
    exact ih sound behind

/-- On two columns and more every stream has room. -/
theorem VtEmulator.Sound.roomy_of_columns (h : emulator.Sound size)
    (many : size.columns ≠ 1) (data : List UInt8)
    : Roomy emulator data := by
  induction data generalizing emulator with
  | nil => trivial
  | cons byte rest ih =>
    have room : ¬ emulator.Squeezes byte := by
      intro squeezes
      obtain ⟨char, -, one, -⟩ := squeezes
      rw [h.same_size] at one
      exact many one
    obtain ⟨next, fed, sound⟩ := h.feedByte room
    refine ⟨room, fun next' fed' => ?_⟩
    rw [fed] at fed'
    cases fed'
    exact ih sound

def VtEmulator.feedChunks (chunks : List (List UInt8)) (emulator : VtEmulator)
    : Except VtError VtEmulator :=
  chunks.foldlM (fun emulator chunk => emulator.feed chunk) emulator

/-- How the bytes are cut into chunks does not matter. -/
theorem VtEmulator.feedChunks_eq_feed (chunks : List (List UInt8)) (emulator : VtEmulator)
    : emulator.feedChunks chunks = emulator.feed chunks.flatten := by
  induction chunks generalizing emulator with
  | nil => rfl
  | cons chunk rest ih =>
    unfold VtEmulator.feedChunks VtEmulator.feed
    rw [List.foldlM_cons, List.flatten_cons, List.foldlM_append]
    apply bind_congr
    intro after
    exact ih after

end Text

/-- The cells, the cursor and the scroll region of a buffer of the given dimensions. -/
structure BufferShaped (columns rows : Nat) (buffer : VtBufferSnapshot) : Prop where
  height : buffer.cells.length = rows
  width : ∀ row ∈ buffer.cells, row.length = columns
  x_lt : buffer.cursor.x < columns
  y_lt : buffer.cursor.y < rows
  top_le : buffer.scrollTop ≤ buffer.scrollBottom
  bottom_lt : buffer.scrollBottom < rows
  wide
    : ∀ row ∈ buffer.cells, ∀ x cell, row[x]? = some cell → cell.width = 2
        → ∃ next, row[x + 1]? = some next ∧ next.width = 0
  continuation
    : ∀ row ∈ buffer.cells, ∀ x cell, row[x]? = some cell → cell.width = 0
        → ∃ before lead, x = before + 1 ∧ row[before]? = some lead ∧ lead.width = 2

/-- Both buffers have the dimensions of the terminal. -/
structure SnapshotShaped (columns rows : Nat) (snapshot : VtSnapshot) : Prop where
  dimensions : snapshot.columns = columns ∧ snapshot.rows = rows
  primary : BufferShaped columns rows snapshot.primary
  alternate : BufferShaped columns rows snapshot.alternate

theorem VtBuffer.Sound.shaped {size : VtSize} {state : VtBufferSnapshot}
    (h : state.restore.Sound size)
    : BufferShaped size.columns size.rows state where
  height := h.screen.height
  width := fun row member => (h.screen.rows row member).length
  x_lt := h.x_lt
  y_lt := h.y_lt
  top_le := h.top_le
  bottom_lt := h.bottom_lt
  wide := fun row member _ _ held two => (h.screen.rows row member).tiled.next held two
  continuation := fun row member _ _ held zero =>
    (h.screen.rows row member).tiled.previous held zero

theorem VtEmulator.Sound.shaped {size : VtSize} {emulator : VtEmulator}
    (h : emulator.Sound size)
    : SnapshotShaped size.columns size.rows emulator.snapshot := by
  have stored := h.storeActiveState
  refine ⟨?_, stored.primary.shaped, stored.alternate.shaped⟩
  have same := stored.same_size
  exact ⟨congrArg VtSize.columns same, congrArg VtSize.rows same⟩

theorem sound_blankBuffer {size : VtSize} (wide : 0 < size.columns) (tall : 0 < size.rows)
    : (blankBuffer size).Sound size where
  screen := by
    refine ⟨by simp [blankBuffer, blankScreen], fun row member => ?_⟩
    rw [(List.mem_replicate.mp member).2]
    exact pairedRow_blankLine size.columns
  x_lt := wide
  y_lt := tall
  top_le := Nat.zero_le _
  bottom_lt := Nat.sub_one_lt_of_lt tall

theorem VtEmulator.sound_of_init {columns rows : Int} {emulator : VtEmulator}
    (made : VtEmulator.init columns rows = .ok emulator)
    : emulator.Sound ⟨columns.toNat, rows.toNat⟩ := by
  unfold VtEmulator.init at made
  split at made
  · cases made
  · next positive =>
      have blank : (blankBuffer ⟨columns.toNat, rows.toNat⟩).Sound
          ⟨columns.toNat, rows.toNat⟩ := by
        refine sound_blankBuffer ?_ ?_
        · show 0 < columns.toNat
          omega
        · show 0 < rows.toNat
          omega
      cases made
      exact ⟨rfl, blank, blank, blank, Nat.zero_le _, rfl⟩

theorem VtEmulator.init_returns {columns rows : Int} (wide : 1 ≤ columns) (tall : 1 ≤ rows)
    : ∃ emulator, VtEmulator.init columns rows = .ok emulator := by
  unfold VtEmulator.init
  rw [if_neg (by omega)]
  exact ⟨_, rfl⟩

/-- A blank terminal that takes every chunk without a raise and keeps its shape. -/
def FeedsShaped [UnicodeData] (columns rows : Int) (chunks : List (List UInt8)) : Prop :=
  ∃ start after,
    VtEmulator.init columns rows = .ok start
    ∧ start.feedChunks chunks = .ok after
    ∧ SnapshotShaped columns.toNat rows.toNat after.snapshot

/-- Every stream is fed and keeps the terminal's shape, unless one of its bytes prints a
wide character on one column.
-/
theorem feedsShaped_iff_roomy [UnicodeData] {columns rows : Int} (wide : 1 ≤ columns)
    (tall : 1 ≤ rows) (chunks : List (List UInt8))
    : FeedsShaped columns rows chunks
      ↔ ∀ start, VtEmulator.init columns rows = .ok start → Roomy start chunks.flatten := by
  constructor
  · intro shaped start made
    obtain ⟨other, after, made', fed, -⟩ := shaped
    rw [made] at made'
    cases made'
    rw [VtEmulator.feedChunks_eq_feed] at fed
    exact (VtEmulator.sound_of_init made).roomy fed
  · intro room
    obtain ⟨start, made⟩ := VtEmulator.init_returns wide tall
    obtain ⟨after, fed, sound⟩ := (VtEmulator.sound_of_init made).feed (room start made)
    rw [← VtEmulator.feedChunks_eq_feed] at fed
    exact ⟨start, after, made, fed, sound.shaped⟩

abbrev ideographs : UnicodeData where
  combining := fun _ => 0
  eastAsianWidth := fun char =>
    if 0x4E00 ≤ char.toNat ∧ char.toNat ≤ 0x9FFF then .wide else .narrow

/-- Text that fits keeps the shape. -/
theorem feedsShaped_two_columns
    : @FeedsShaped ideographs 2 1 [[0xE4, 0xB8], [0x96]] := by
  refine (@feedsShaped_iff_roomy ideographs 2 1 (by decide) (by decide) _).mpr ?_
  intro start made
  exact @VtEmulator.Sound.roomy_of_columns ideographs _ _ (VtEmulator.sound_of_init made)
    (by decide) _

/-- An ideograph on a terminal of one column raises. -/
theorem not_feedsShaped_one_column
    : ¬ @FeedsShaped ideographs 1 1 [[0xE4, 0xB8, 0x96]] := by
  intro shaped
  obtain ⟨start, after, made, fed, -⟩ := shaped
  cases made
  have raised : @VtEmulator.feedChunks ideographs [[0xE4, 0xB8, 0x96]]
      { size := ⟨1, 1⟩
        buffer := blankBuffer ⟨1, 1⟩
        primaryState := (blankBuffer ⟨1, 1⟩).state
        alternateState := (blankBuffer ⟨1, 1⟩).state } = .error .indexError := by
    decide +kernel
  cases raised.symm.trans fed

end Murder.Terminal

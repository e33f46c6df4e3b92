import Murder.Terminal.Combining
import Murder.Terminal.Keyframes

/-! What `ESC c` restores: when a terminal behind it is like a fresh one. -/

namespace Murder.Terminal

open Library.Transactions

/-- `ESC c`. -/
def resetSequence : List UInt8 := [0x1B, 0x63]

/-- The screen is blank, and nothing else differs that a reset leaves alone: no cursor and no
rendition is saved, the cursor is a block, and the buffer that is not active is initial.
-/
structure Pristine (emulator : VtEmulator) : Prop where
  cells : emulator.buffer.cells = blankScreen emulator.size.columns emulator.size.rows
  savedX : emulator.buffer.savedX = 0
  savedY : emulator.buffer.savedY = 0
  savedRendition : emulator.buffer.savedRendition = defaultRendition
  cursorShape : emulator.buffer.cursorShape = .block
  idle : if emulator.usingAlternate then
      emulator.primaryState.restore = blankBuffer emulator.size
    else emulator.alternateState = (blankBuffer emulator.size).state

/-- The terminal shows what a blank one does, a pending wrap apart. -/
structure Initial (emulator : VtEmulator) : Prop where
  primary : emulator.usingAlternate = false
  modes : emulator.modes = {}
  buffer : { emulator.buffer with pendingWrap := false } = blankBuffer emulator.size
  alternate : emulator.alternateState = (blankBuffer emulator.size).state

/-- No part of a character is held, and either the emulator stands between sequences and is
pristine, or it stands in a control sequence that `ESC c` ends and is initial.
-/
def Restorable (emulator : VtEmulator) : Prop :=
  emulator.parser.pending = []
  ∧ (emulator.parser.phase = .text ∧ Pristine emulator
    ∨ emulator.parser.phase = .csi ∧ emulator.parser.csi.length < 4096 ∧ Initial emulator)

def freshEmulator (size : VtSize) : VtEmulator where
  size := size
  buffer := blankBuffer size
  primaryState := (blankBuffer size).state
  alternateState := (blankBuffer size).state

variable {size : VtSize} {middle : VtEmulator}

section Reset

variable [UnicodeData] {columns rows : Int} {emulator after : VtEmulator}

/-- After the stream and `ESC c` a terminal shows what a blank one does, now and after every
suffix.
-/
def ResetsAfter (columns rows : Int) (stream : List UInt8) : Prop :=
  ∀ q, shownAfter columns rows (stream ++ resetSequence ++ q) = shownAfter columns rows q

theorem reached_of_fedWith {stream : List UInt8}
    (fed : fedWith columns rows stream = .ok emulator)
    : Reached columns rows emulator := by
  obtain ⟨start, made, led⟩ := except_bind_ok.mp fed
  exact ⟨start, stream, made, led⟩

omit [UnicodeData] in
theorem init_fresh {start : VtEmulator} (made : VtEmulator.init columns rows = .ok start)
    : start = freshEmulator ⟨columns.toNat, rows.toNat⟩ := by
  unfold VtEmulator.init at made
  split at made
  · cases made
  · cases made
    rfl

/-- A terminal behind the stream and `ESC c` is compared with a fresh one. -/
theorem resetsAfter_iff {stream : List UInt8} (fed : fedWith columns rows stream = .ok emulator)
    : ResetsAfter columns rows stream
      ↔ ∀ q, ((emulator.feed resetSequence) >>= fun middle => middle.feed q).map
            VtEmulator.snapshot
          = ((freshEmulator emulator.size).feed q).map VtEmulator.snapshot := by
  obtain ⟨start, made, _⟩ := except_bind_ok.mp fed
  have size : emulator.size = ⟨columns.toNat, rows.toNat⟩ :=
    (reached_of_fedWith fed).sound.same_size
  have fresh : start = freshEmulator emulator.size := size ▸ init_fresh made
  have blank : ∀ q, fedWith columns rows q = (freshEmulator emulator.size).feed q := by
    intro q
    unfold fedWith
    rw [made, fresh]
    rfl
  have behind : ∀ q, fedWith columns rows (stream ++ resetSequence ++ q)
      = (emulator.feed resetSequence) >>= fun middle => middle.feed q := by
    intro q
    rw [fedWith_append, fedWith_append, fed]
    rfl
  refine forall_congr' (fun q => ?_)
  unfold shownAfter
  rw [behind q, blank q]

omit [UnicodeData] in
/-- What `_reset` makes of the active buffer. -/
theorem reset_eq (emulator : VtEmulator)
    : emulator.reset = VtEmulator.leaveAlternate { emulator with
        buffer := { blankBuffer emulator.size with
          cells := emulator.buffer.cells
          savedX := emulator.buffer.savedX
          savedY := emulator.buffer.savedY
          savedRendition := emulator.buffer.savedRendition
          cursorShape := emulator.buffer.cursorShape }
        modes := {} } := rfl

/-- Between sequences `ESC c` is a reset. -/
theorem feed_reset (sound : emulator.Sound size) (text : emulator.parser.phase = .text)
    : emulator.feed resetSequence = .ok emulator.reset := by
  have escaped : emulator.feedByte 0x1B = .ok (emulator.setPhase .esc) := by
    unfold VtEmulator.feedByte
    rw [text]
    dsimp only
    rw [if_pos rfl, sound.flushText]
    rfl
  have back : (emulator.setPhase .esc).setPhase .text = emulator := by
    unfold VtEmulator.setPhase
    rw [← text]
  refine except_bind_ok.mpr ⟨_, escaped, except_bind_ok.mpr ⟨emulator.reset, ?_, rfl⟩⟩
  change Except.ok ((emulator.setPhase .esc).setPhase .text).reset = _
  rw [back]

omit [UnicodeData] in
/-- A sequence with the final byte `c` does nothing but settle the wrap. -/
theorem csiDispatch_unknown (emulator : VtEmulator) {body : List UInt8}
    (short : body.length ≤ 4096)
    : emulator.csiDispatch body 0x63
      = .ok { emulator with buffer := { emulator.buffer with pendingWrap := false } } := by
  have le := length_decodeAscii_le body
  obtain ⟨params, read⟩ : ∃ params, csiParams
      (if ((decodeAscii body).head? == some '?') = true then (decodeAscii body).tail
        else decodeAscii body) = .ok params := by
    refine csiParams_returns ?_
    split
    · rw [List.length_tail]
      omega
    · omega
  refine except_bind_ok.mpr ⟨params, read, rfl⟩

/-- In a control sequence that has room, `ESC c` ends the sequence. -/
theorem feed_reset_csi (phase : emulator.parser.phase = .csi)
    (room : emulator.parser.csi.length < 4096)
    : emulator.feed resetSequence = .ok { emulator with
        buffer := { emulator.buffer with pendingWrap := false }
        parser := { emulator.parser with phase := .text, csi := [] } } := by
  have held : emulator.feedByte 0x1B = .ok { emulator with
      parser := { emulator.parser with csi := emulator.parser.csi ++ [0x1B] } } := by
    unfold VtEmulator.feedByte VtEmulator.feedCsi
    rw [phase]
    dsimp only
    rw [if_neg (by decide), if_pos room]
  have short : (emulator.parser.csi ++ [0x1B]).length ≤ 4096 := by
    rw [List.length_append, List.length_singleton]
    omega
  refine except_bind_ok.mpr ⟨_, held, except_bind_ok.mpr ⟨_, ?_, rfl⟩⟩
  unfold VtEmulator.feedByte VtEmulator.feedCsi
  dsimp only
  rw [phase]
  dsimp only
  rw [if_pos (by decide)]
  exact except_bind_ok.mpr ⟨_, csiDispatch_unknown _ short, rfl⟩

/-- Behind an `ESC` that starts nothing the `c` is a letter. -/
theorem feed_reset_letter (first : emulator.feedByte 0x1B = .ok after)
    (text : after.parser.phase = .text)
    : emulator.feed resetSequence = after.decodeText [0x63] := by
  have letter : after.feedByte 0x63 = after.decodeText [0x63] := by
    unfold VtEmulator.feedByte
    rw [text]
    dsimp only
    rw [if_neg (by decide), if_neg (by decide)]
  unfold VtEmulator.feed resetSequence
  rw [List.foldlM_cons, first]
  change (after.feedByte 0x63 >>= fun last => pure last) = _
  rw [bind_pure, letter]

/-- In a control sequence that is full, the `c` is printed. -/
theorem feed_reset_full (phase : emulator.parser.phase = .csi)
    (full : ¬ emulator.parser.csi.length < 4096)
    : emulator.feed resetSequence
      = { emulator with
          parser := { emulator.parser with phase := .text, csi := [] } }.decodeText [0x63] := by
  have dropped : emulator.feedByte 0x1B = .ok { emulator with
      parser := { emulator.parser with phase := .text, csi := [] } } := by
    unfold VtEmulator.feedByte VtEmulator.feedCsi
    rw [phase]
    dsimp only
    rw [if_neg (by decide), if_neg full]
  exact feed_reset_letter dropped rfl

/-- Behind an escape the `c` is printed. -/
theorem feed_reset_esc (phase : emulator.parser.phase = .esc)
    : emulator.feed resetSequence = (emulator.setPhase .text).decodeText [0x63] := by
  have ignored : emulator.feedByte 0x1B = .ok (emulator.setPhase .text) := by
    unfold VtEmulator.feedByte
    rw [phase]
    rfl
  exact feed_reset_letter ignored rfl

/-- In a string `ESC c` is text of the string. -/
theorem feed_reset_string (phase : emulator.parser.phase = .string)
    : emulator.feed resetSequence
      = .ok { emulator with parser := { emulator.parser with stringEsc := false } } := by
  have first : emulator.feedByte 0x1B
      = .ok { emulator with parser := { emulator.parser with stringEsc := true } } := by
    unfold VtEmulator.feedByte VtEmulator.feedString
    rw [phase]
    dsimp only
    rw [if_neg (by simp)]
    rfl
  refine except_bind_ok.mpr ⟨_, first, except_bind_ok.mpr ⟨_, ?_, rfl⟩⟩
  unfold VtEmulator.feedByte VtEmulator.feedString
  dsimp only
  rw [phase]
  rfl

/-- A terminal like a fresh one behaves like it. -/
theorem resumes_of_alike (alike : emulator.Alike (freshEmulator size)) (q : List UInt8)
    : (emulator.feed q).map VtEmulator.snapshot
      = ((freshEmulator size).feed q).map VtEmulator.snapshot :=
  (alike.feed q).map_eq (fun _ _ next => next.snapshot)

omit [UnicodeData] in
/-- A settled parser between sequences that holds nothing is initial. -/
theorem parser_initial {parser : VtParser} (settled : parser.Settled)
    (text : parser.phase = .text) (whole : parser.pending = [])
    : parser = {} := by
  have csi := settled.csi (by rw [text]; decide)
  have stringEsc := settled.stringEsc (by rw [text]; decide)
  obtain ⟨phase, held, esc, pending⟩ := parser
  cases text
  cases whole
  cases csi
  cases stringEsc
  rfl

omit [UnicodeData] in
theorem reset_alike (settled : emulator.parser.Settled) (text : emulator.parser.phase = .text)
    (whole : emulator.parser.pending = []) (pristine : Pristine emulator)
    : emulator.reset.Alike (freshEmulator emulator.size) := by
  have parser := parser_initial settled text whole
  obtain ⟨cells, savedX, savedY, savedRendition, cursorShape, idle⟩ := pristine
  rw [reset_eq, cells, savedX, savedY, savedRendition, cursorShape]
  unfold VtEmulator.leaveAlternate VtEmulator.storeActiveState
  cases active : emulator.usingAlternate with
  | true =>
    rw [active, if_pos rfl] at idle
    exact ⟨rfl, idle, rfl, rfl, parser, fun other => (nomatch other), fun _ => rfl⟩
  | false =>
    rw [active, if_neg Bool.false_ne_true] at idle
    exact ⟨rfl, rfl, rfl, rfl, parser, fun other => (nomatch other), fun _ => idle⟩

omit [UnicodeData] in
theorem ended_alike (settled : emulator.parser.Settled) (phase : emulator.parser.phase = .csi)
    (whole : emulator.parser.pending = []) (initial : Initial emulator)
    : ({ emulator with
        buffer := { emulator.buffer with pendingWrap := false }
        parser := { emulator.parser with phase := .text, csi := [] } } : VtEmulator).Alike
          (freshEmulator emulator.size) := by
  have stringEsc := settled.stringEsc (by rw [phase]; decide)
  have parser : (⟨.text, [], emulator.parser.stringEsc, emulator.parser.pending⟩ : VtParser)
      = {} := by
    rw [whole, stringEsc]
  exact ⟨rfl, initial.buffer, initial.modes, initial.primary, parser,
    fun other => absurd (other.symm.trans initial.primary) (by decide),
    fun _ => initial.alternate⟩

/-- From a restorable emulator `ESC c` leads to one like a fresh one. -/
theorem resets_of_restorable (reached : Reached columns rows emulator)
    (restorable : Restorable emulator)
    : ∃ middle, emulator.feed resetSequence = .ok middle
        ∧ middle.Alike (freshEmulator emulator.size) := by
  obtain ⟨whole, phases⟩ := restorable
  rcases phases with between | inside
  · obtain ⟨text, pristine⟩ := between
    exact ⟨_, feed_reset reached.sound text, reset_alike reached.settled text whole pristine⟩
  · obtain ⟨phase, room, initial⟩ := inside
    exact ⟨_, feed_reset_csi phase room, ended_alike reached.settled phase whole initial⟩

/-- What the tables say of ASCII and of the replacement character: nothing is wide and
nothing combines.
-/
def PlainText : Prop :=
  ∀ char : Char, char.toNat < 0x80 ∨ char = '\uFFFD' →
    UnicodeData.combining char = 0 ∧ isWide char = false

omit [UnicodeData] in
theorem alike_of_shown {first second : VtEmulator} (shown : first.snapshot = second.snapshot)
    : VtEmulator.Alike { first with parser := second.parser } second := by
  have same : ({ first with parser := second.parser } : VtEmulator).snapshot
      = first.snapshot := by
    unfold VtEmulator.snapshot VtEmulator.storeActiveState
    dsimp only
    split <;> rfl
  exact VtEmulator.alike_of_snapshot (same.trans shown) rfl

def cornerText (cells : VtScreen) : Option String :=
  ((cells[0]?).bind (fun row => row[0]?)).map VtCell.text

omit [UnicodeData] in
theorem cornerText_blank (wide : 0 < size.columns) (tall : 0 < size.rows)
    : cornerText (blankScreen size.columns size.rows) = some " " := by
  simp [cornerText, blankScreen, blankLine, blankCells, wide, tall]

/-- A character printed on a blank screen stands in its corner, or nowhere. -/
theorem cornerText_putChar (wide : 0 < size.columns) (tall : 0 < size.rows)
    {char : Char} {buffer : VtBuffer} (put : (blankBuffer size).putChar size {} char = .ok buffer)
    : UnicodeData.combining char ≠ 0 ∧ buffer = blankBuffer size
      ∨ cornerText buffer.cells = some (String.singleton char) := by
  have sound := sound_blankBuffer wide tall
  unfold VtBuffer.putChar at put
  by_cases base : UnicodeData.combining char ≠ 0
  · refine .inl ⟨base, ?_⟩
    rw [if_pos base] at put
    exact (Except.ok.inj put).symm
  · refine .inr ?_
    rw [if_neg base] at put
    dsimp only at put
    by_cases edge : (if isWide char then 2 else 1) = 2
        ∧ (if (blankBuffer size).pendingWrap then (blankBuffer size).wrap size
          else blankBuffer size).x + 1 = size.columns
    · rw [if_pos edge, if_pos rfl, edge.1] at put
      have one : size.columns = 1 := edge.2.symm
      have squeezed := sound.wrap.printCell_squeezed {} char (by rw [VtBuffer.wrap_x, one])
      cases squeezed.symm.trans put
    · rw [if_neg edge] at put
      obtain ⟨row, found, shown, _⟩ := (VtBuffer.printCell_shows put).1.shown
      change buffer.cells[0]? = some row at found
      change row[0]? = some _ at shown
      unfold cornerText
      rw [found, Option.bind_some, shown]
      rfl

/-- A terminal on which `ESC c` acted as on a fresh one. -/
structure Renewed (middle : VtEmulator) (size : VtSize) : Prop where
  same_size : middle.size = size
  buffer : middle.buffer = blankBuffer size
  modes : middle.modes = {}
  primary : middle.usingAlternate = false
  alternate : middle.alternateState = (blankBuffer size).state
  resumes : ∀ q, (middle.feed q).map VtEmulator.snapshot
    = ((freshEmulator size).feed q).map VtEmulator.snapshot

/-- What the reset leads to shows what a fresh terminal does. -/
theorem renewed_of_resets
    (resets : ∀ q, ((emulator.feed resetSequence) >>= fun middle => middle.feed q).map
        VtEmulator.snapshot
      = ((freshEmulator emulator.size).feed q).map VtEmulator.snapshot)
    : ∃ middle, emulator.feed resetSequence = .ok middle ∧ Renewed middle emulator.size := by
  cases fed : emulator.feed resetSequence with
  | error raised =>
    have first := resets []
    rw [fed] at first
    cases first
  | ok middle =>
    rw [fed] at resets
    have alike := alike_of_shown (Except.ok.inj (resets []))
    exact ⟨middle, rfl, alike.size, alike.buffer, alike.modes, alike.usingAlternate,
      alike.alternate alike.usingAlternate, resets⟩

/-- A character that stands alone on a fresh terminal. -/
theorem fresh_prints (plain : PlainText) {size : VtSize} (wide : 0 < size.columns)
    (tall : 0 < size.rows) {char : Char} (ordinary : char.toNat < 0x80 ∨ char = '\uFFFD')
    {byte : UInt8} (printable : byte ≠ 0x1B ∧ ¬ (byte < 0x20 ∨ byte = 0x7F))
    (decoded : decode [] [byte] = ([char], []))
    : ∃ after, (freshEmulator size).feed [byte] = .ok after
        ∧ cornerText after.buffer.cells = some (String.singleton char) := by
  obtain ⟨base, narrow⟩ := plain char ordinary
  have room : ¬ Squeezed size {} char := by
    intro squeezed
    rw [squeezed.2.2.2] at narrow
    cases narrow
  obtain ⟨buffer, put, _⟩ := (sound_blankBuffer wide tall).putChar {} char room
  have corner : cornerText buffer.cells = some (String.singleton char) := by
    rcases cornerText_putChar wide tall put with combines | stands
    · exact absurd base combines.1
    · exact stands
  refine ⟨{ freshEmulator size with buffer := buffer }, ?_, corner⟩
  refine except_bind_ok.mpr ⟨_, ?_, rfl⟩
  have step := @feedByte_holding _ (freshEmulator size) rfl [] byte printable
  rw [decoded] at step
  exact step.trans (except_bind_ok.mpr ⟨_, except_bind_ok.mpr ⟨buffer, put, rfl⟩, rfl⟩)

/-- Where a suffix of one byte shows a character on a fresh terminal, it does so here. -/
theorem Renewed.corner (renewed : Renewed middle size)
    {byte : UInt8} {text : Option String} {after : VtEmulator}
    (fresh : (freshEmulator size).feed [byte] = .ok after)
    (corner : cornerText after.buffer.cells = text)
    : ∃ shown, middle.feedByte byte = .ok shown ∧ cornerText shown.buffer.cells = text := by
  have same := renewed.resumes [byte]
  rw [fresh] at same
  cases fed : middle.feed [byte] with
  | error raised =>
    rw [fed] at same
    cases same
  | ok shown =>
    rw [fed] at same
    refine ⟨shown, ?_, ?_⟩
    · obtain ⟨next, first, last⟩ := except_bind_ok.mp fed
      cases last
      exact first
    · rw [← corner, ← (alike_of_shown (Except.ok.inj same)).buffer]

omit [UnicodeData] in
theorem decode_continuation {byte : UInt8} (large : 0x80 ≤ byte.toNat ∧ byte.toNat < 0xC0)
    : decode [] [byte] = (['\uFFFD'], []) := by
  have front : utf8Front [byte] = .invalid [] := by
    have above : ¬ byte < 0x80 := by
      simpa [UInt8.lt_iff_toNat_lt] using large.1
    have below : byte < 0xC2 := by
      simp only [UInt8.lt_iff_toNat_lt, UInt8.reduceToNat]
      omega
    simp [utf8Front, above, below]
  unfold decode
  rw [List.nil_append, List.length_singleton, decodeRounds, front]
  rfl

omit [UnicodeData] in
/-- A character whose last bits are zero is not the replacement character. -/
theorem ofNat_ne_replacement {value : Nat} (zero : value % 64 = 0)
    : Char.ofNat value ≠ '\uFFFD' := by
  intro same
  have number : (Char.ofNat value).toNat = 0xFFFD := congrArg Char.toNat same
  by_cases valid : value.isValidChar
  · have back : (Char.ofNat value).toNat = value := by
      rw [Char.ofNat, dif_pos valid]
      rfl
    omega
  · have none_ : Char.ofNat value = Char.ofNat 0 := by
      rw [Char.ofNat, dif_neg valid]
      rfl
    rw [none_] at number
    exact absurd number (by decide)

/-- Nothing is held: a byte that a held character accepts is replaced on a fresh terminal. -/
theorem Renewed.whole (renewed : Renewed middle size)
    (plain : PlainText) (wide : 0 < size.columns) (tall : 0 < size.rows)
    (text : middle.parser.phase = .text)
    (incomplete : utf8Front middle.parser.pending = .incomplete)
    : middle.parser.pending = [] := by
  by_contra held
  obtain ⟨byte, continues, front⟩ := utf8Front_continued held incomplete
  have large : 0x80 ≤ byte.toNat ∧ byte.toNat < 0xC0 := by
    simpa [isContinuation, UInt8.lt_iff_toNat_lt, UInt8.le_iff_toNat_le] using continues
  have printable : byte ≠ 0x1B ∧ ¬ (byte < 0x20 ∨ byte = 0x7F) := by
    simp only [UInt8.lt_iff_toNat_lt, ← UInt8.toNat_inj, UInt8.reduceToNat, ne_eq]
    omega
  obtain ⟨after, fresh, corner⟩ :=
    fresh_prints plain wide tall (.inr rfl) printable (decode_continuation large)
  obtain ⟨shown, fed, replaced⟩ := renewed.corner fresh corner
  have step := @feedByte_holding _ middle text middle.parser.pending byte printable
  have blank := cornerText_blank wide tall
  rcases front with more | complete
  · rw [decode_of_incomplete more] at step
    have shown_ : shown = holding middle (middle.parser.pending ++ [byte]) :=
      Except.ok.inj (fed.symm.trans step)
    have cells : shown.buffer.cells = blankScreen size.columns size.rows := by
      rw [shown_]
      exact congrArg VtBuffer.cells renewed.buffer
    rw [cells, blank] at replaced
    exact absurd replaced (by decide)
  · obtain ⟨value, front, zero⟩ := complete
    rw [decode_of_char front] at step
    obtain ⟨next, printed, last⟩ := except_bind_ok.mp (step.symm.trans fed)
    cases last
    obtain ⟨buffer, put, same⟩ := except_bind_ok.mp printed
    cases same
    change middle.buffer.putChar middle.size middle.modes _ = _ at put
    rw [renewed.buffer, renewed.same_size, renewed.modes] at put
    rcases cornerText_putChar wide tall put with combines | stands
    · have cells := congrArg VtBuffer.cells combines.2
      change cornerText buffer.cells = _ at replaced
      rw [cells] at replaced
      exact absurd (blank.symm.trans replaced) (by decide)
    · change cornerText buffer.cells = _ at replaced
      have same := Option.some.inj (stands.symm.trans replaced)
      exact ofNat_ne_replacement zero (by simpa using congrArg String.toList same)

/-- Between sequences the reset leaves what it should have restored. -/
theorem pristine_of_renewed (same_size : emulator.size = size)
    (renewed : Renewed emulator.reset size)
    : Pristine emulator := by
  subst same_size
  have buffer := renewed.buffer
  have alternate := renewed.alternate
  rw [reset_eq] at buffer alternate
  unfold VtEmulator.leaveAlternate VtEmulator.storeActiveState at buffer alternate
  cases active : emulator.usingAlternate with
  | true =>
    rw [active] at buffer alternate
    have live := VtBuffer.state_injective alternate
    refine ⟨?_, ?_, ?_, ?_, ?_, ?_⟩
    · exact congrArg VtBuffer.cells live
    · exact congrArg VtBuffer.savedX live
    · exact congrArg VtBuffer.savedY live
    · exact congrArg VtBuffer.savedRendition live
    · exact congrArg VtBuffer.cursorShape live
    · rw [active, if_pos rfl]
      exact buffer
  | false =>
    rw [active] at buffer alternate
    refine ⟨?_, ?_, ?_, ?_, ?_, ?_⟩
    · exact congrArg VtBuffer.cells buffer
    · exact congrArg VtBuffer.savedX buffer
    · exact congrArg VtBuffer.savedY buffer
    · exact congrArg VtBuffer.savedRendition buffer
    · exact congrArg VtBuffer.cursorShape buffer
    · rw [active, if_neg Bool.false_ne_true]
      exact alternate

/-- Where the `c` is printed, the screen is not blank. -/
theorem not_renewed_of_printed (plain : PlainText) {size : VtSize} {middle : VtEmulator}
    (incomplete : utf8Front emulator.parser.pending = .incomplete)
    (printed : emulator.decodeText [0x63] = .ok middle)
    : ¬ Renewed middle size := by
  intro renewed
  obtain ⟨text, decoded⟩ := decode_ascii incomplete (show (0x63 : UInt8) < 0x80 by decide)
  unfold VtEmulator.decodeText at printed
  rw [decoded] at printed
  change List.foldlM _ _ (text ++ ['c']) = _ at printed
  rw [List.foldlM_append] at printed
  obtain ⟨before, _, last⟩ := except_bind_ok.mp printed
  obtain ⟨next, step, same⟩ := except_bind_ok.mp last
  cases same
  obtain ⟨buffer, put, same⟩ := except_bind_ok.mp step
  cases same
  obtain ⟨base, narrow⟩ := plain 'c' (.inl (by decide))
  have blank := renewed.buffer
  have place : before.buffer.printBuffer before.size before.modes 'c'
      = some (if before.buffer.pendingWrap then before.buffer.wrap before.size
          else before.buffer) := by
    unfold VtBuffer.printBuffer
    dsimp only
    rw [narrow, if_neg (by simp)]
  rw [VtBuffer.putChar_printBuffer base place] at put
  obtain ⟨row, found, shown, _⟩ := (VtBuffer.printCell_shows put).1.shown
  have cells : buffer.cells = blankScreen size.columns size.rows :=
    congrArg VtBuffer.cells blank
  rw [cells] at found
  have line := List.mem_of_getElem? found
  rw [(List.mem_replicate.mp line).2] at shown
  have cell := (List.mem_replicate.mp (List.mem_of_getElem? shown)).2
  have letter : String.singleton 'c' = " " := congrArg VtCell.text cell
  exact absurd letter (by decide)

/-- A terminal that `ESC c` renews was restorable; by the phase of the parser. -/
theorem restorable_of_renewed (plain : PlainText) (reached : Reached columns rows emulator)
    (fed : emulator.feed resetSequence = .ok middle) (renewed : Renewed middle emulator.size)
    : Restorable emulator := by
  have sound := reached.sound
  have wide : 0 < emulator.size.columns :=
    Nat.zero_lt_of_lt (sound.same_size ▸ sound.buffer.x_lt)
  have tall : 0 < emulator.size.rows :=
    Nat.zero_lt_of_lt (sound.same_size ▸ sound.buffer.y_lt)
  cases phase : emulator.parser.phase with
  | text =>
    cases (feed_reset sound phase).symm.trans fed
    have parser : emulator.reset.parser = emulator.parser := by
      rw [reset_eq]
      unfold VtEmulator.leaveAlternate VtEmulator.storeActiveState
      dsimp only
      split <;> rfl
    have whole := renewed.whole plain wide tall (by rw [parser, phase])
      (by rw [parser]; exact sound.incomplete)
    rw [parser] at whole
    exact ⟨whole, .inl ⟨phase, pristine_of_renewed rfl renewed⟩⟩
  | esc =>
    rw [feed_reset_esc phase] at fed
    exact absurd renewed
      (@not_renewed_of_printed _ (emulator.setPhase .text) plain _ _ sound.incomplete fed)
  | csi =>
    by_cases room : emulator.parser.csi.length < 4096
    · cases (feed_reset_csi phase room).symm.trans fed
      have whole := renewed.whole plain wide tall rfl sound.incomplete
      exact ⟨whole, .inr ⟨phase, room, renewed.primary, renewed.modes, renewed.buffer,
        renewed.alternate⟩⟩
    · rw [feed_reset_full phase room] at fed
      exact absurd renewed (not_renewed_of_printed plain (by exact sound.incomplete) fed)
  | string =>
    cases (feed_reset_string phase).symm.trans fed
    obtain ⟨after, fresh, corner⟩ := @fresh_prints _ plain _ wide tall 'A' (.inl (by decide))
      0x41 (by decide) rfl
    obtain ⟨shown, swallowed, stands⟩ := renewed.corner fresh corner
    unfold VtEmulator.feedByte at swallowed
    dsimp only at swallowed
    rw [phase] at swallowed
    cases swallowed
    have cells : emulator.buffer.cells = blankScreen emulator.size.columns emulator.size.rows :=
      congrArg VtBuffer.cells renewed.buffer
    have blank := cornerText_blank wide tall
    rw [← cells] at blank
    exact absurd (blank.symm.trans stands) (by decide)

/-- `ESC c` resets a terminal in full exactly where it was restorable. -/
theorem resetsAfter_iff_restorable (plain : PlainText) (wide : 1 ≤ columns) (tall : 1 ≤ rows)
    (stream : List UInt8)
    : ResetsAfter columns rows stream
      ↔ ∃ emulator, fedWith columns rows stream = .ok emulator ∧ Restorable emulator := by
  constructor
  · intro resets
    cases fed : fedWith columns rows stream with
    | error raised =>
      obtain ⟨start, made⟩ := VtEmulator.init_returns wide tall
      have first := resets []
      unfold shownAfter at first
      rw [fedWith_append, fedWith_append, fed] at first
      unfold fedWith at first
      rw [made] at first
      cases first
    | ok emulator =>
      obtain ⟨middle, led, renewed⟩ := renewed_of_resets ((resetsAfter_iff fed).mp resets)
      exact ⟨emulator, rfl,
        restorable_of_renewed plain (reached_of_fedWith fed) led renewed⟩
  · intro restorable
    obtain ⟨emulator, fed, restorable⟩ := restorable
    obtain ⟨middle, led, alike⟩ := resets_of_restorable (reached_of_fedWith fed) restorable
    refine (resetsAfter_iff fed).mpr (fun q => ?_)
    rw [led]
    exact resumes_of_alike alike q

end Reset

theorem plainText_narrowOnly : @PlainText narrowOnly := by
  intro char ordinary
  have small : char.toNat < 0x1F300 := by
    rcases ordinary with ascii | same
    · omega
    · rw [same]
      decide
  exact ⟨rfl, by simpa [isWide] using small⟩

/-- A terminal that was asked for bold text and has shown none. -/
def boldEmulator : VtEmulator :=
  { freshEmulator ⟨2, 1⟩ with
    buffer := { blankBuffer ⟨2, 1⟩ with rendition := { bold := true } } }

/-- A rendition is reset. -/
theorem resetsAfter_bold : @ResetsAfter narrowOnly 2 1 [0x1B, 0x5B, 0x31, 0x6D] := by
  have fed : @fedWith narrowOnly 2 1 [0x1B, 0x5B, 0x31, 0x6D] = .ok boldEmulator := by
    decide +kernel
  exact (@resetsAfter_iff_restorable narrowOnly 2 1 plainText_narrowOnly (by decide) (by decide)
    _).mpr ⟨boldEmulator, fed, rfl, .inl ⟨rfl, rfl, rfl, rfl, rfl, rfl, rfl⟩⟩

/-- `ESC c` does not erase the screen. -/
theorem not_resetsAfter_letter : ¬ @ResetsAfter narrowOnly 2 1 [0x41] := by
  intro resets
  have blank := resets []
  exact absurd blank (by decide +kernel)

end Murder.Terminal

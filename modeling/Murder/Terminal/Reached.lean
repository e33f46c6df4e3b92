import Murder.Terminal.Invariant

/-! The emulators that streams of bytes lead to, the screens a byte leaves alone, and the round trip
through the alternate screen.
-/

namespace Murder.Terminal

open Library.Transactions

/-- The size, the active buffer and what is stored of both are the same. -/
structure SameScreens (start stop : VtEmulator) : Prop where
  size : stop.size = start.size
  usingAlternate : stop.usingAlternate = start.usingAlternate
  primaryState : stop.primaryState = start.primaryState
  alternateState : stop.alternateState = start.alternateState

def isSwitch (param : Nat) : Bool := param == 47 || param == 1047 || param == 1049

/-- The byte completes a sequence that sets or resets a switching mode. -/
def VtParser.switches (parser : VtParser) (byte : UInt8) : Prop :=
  parser.phase = .csi ∧ (Char.ofNat byte.toNat = 'h' ∨ Char.ofNat byte.toNat = 'l')
    ∧ (decodeAscii parser.csi).head? = some '?'
    ∧ ∃ params, csiParams (decodeAscii parser.csi).tail = .ok params ∧ params.any isSwitch = true

def VtParser.resets (parser : VtParser) (byte : UInt8) : Prop :=
  parser.phase = .esc ∧ Char.ofNat byte.toNat = 'c'

namespace SameScreens

variable {start middle stop : VtEmulator}

theorem refl (emulator : VtEmulator) : SameScreens emulator emulator := ⟨rfl, rfl, rfl, rfl⟩

theorem trans (hl : SameScreens start middle) (hr : SameScreens middle stop)
    : SameScreens start stop :=
  ⟨hr.size.trans hl.size, hr.usingAlternate.trans hl.usingAlternate,
    hr.primaryState.trans hl.primaryState, hr.alternateState.trans hl.alternateState⟩

theorem onBuffer (operation : VtBuffer → VtBuffer) (emulator : VtEmulator)
    : SameScreens emulator (emulator.onBuffer operation) := ⟨rfl, rfl, rfl, rfl⟩

theorem tryBuffer {operation : VtBuffer → Except VtError VtBuffer}
    (ran : start.tryBuffer operation = .ok stop)
    : SameScreens start stop ∧ stop.parser = start.parser := by
  obtain ⟨buffer, _, same⟩ := except_bind_ok.mp ran
  cases same
  exact ⟨⟨rfl, rfl, rfl, rfl⟩, rfl⟩

theorem setPrivateMode (emulator : VtEmulator) {param : Nat} (enabled : Bool)
    (stays : isSwitch param = false)
    : SameScreens emulator (emulator.setPrivateMode param enabled) := by
  unfold VtEmulator.setPrivateMode
  dsimp only
  split
  case h_5 => cases stays
  case h_6 => cases stays
  case h_7 => cases stays
  all_goals exact ⟨rfl, rfl, rfl, rfl⟩

theorem setModes (emulator : VtEmulator) {params : List Nat} {isPrivate : Bool} (enabled : Bool)
    (stays : isPrivate = true → params.any isSwitch = false)
    : SameScreens emulator (emulator.setModes params isPrivate enabled) := by
  unfold VtEmulator.setModes
  induction params generalizing emulator with
  | nil => exact .refl emulator
  | cons param rest ih =>
    rw [List.foldl_cons]
    have later : isPrivate = true → rest.any isSwitch = false :=
      fun own => (Bool.or_eq_false_iff.mp (stays own)).2
    refine trans ?_ (ih _ later)
    split
    · next own => exact setPrivateMode emulator enabled (Bool.or_eq_false_iff.mp (stays own)).1
    split
    · exact ⟨rfl, rfl, rfl, rfl⟩
    · exact .refl emulator

/-- A complete control sequence that switches no buffer. -/
theorem csiDispatch {body : List UInt8} {final : UInt8}
    (stays : ¬ (⟨.csi, body, false, []⟩ : VtParser).switches final)
    (ran : start.csiDispatch body final = .ok stop)
    : SameScreens start stop := by
  unfold VtEmulator.csiDispatch at ran
  dsimp only at ran
  obtain ⟨params, read, ran⟩ := except_bind_ok.mp ran
  have plain : ∀ last, Char.ofNat final.toNat = last → last ≠ 'q' →
      (Char.ofNat final.toNat == 'q' && (decodeAscii body).getLast? == some ' ') = false := by
    intro last same other
    simp [same, other]
  have quiet : ∀ last, Char.ofNat final.toNat = last → last ≠ 'q' → (last = 'h' ∨ last = 'l') →
      ((decodeAscii body).head? == some '?') = true → params.any isSwitch = false := by
    intro last same other mode own
    rw [plain last same other, if_neg Bool.false_ne_true, if_pos own] at read
    refine Bool.eq_false_iff.mpr (fun switch => stays ⟨rfl, same ▸ mode, ?_, params, read, switch⟩)
    simpa using own
  split at ran
  · next last =>
      cases ran
      rw [plain 'h' last (by decide), if_neg Bool.false_ne_true]
      exact (onBuffer _ start).trans (setModes _ true (quiet 'h' last (by decide) (.inl rfl)))
  split at ran
  · next last =>
      cases ran
      rw [plain 'l' last (by decide), if_neg Bool.false_ne_true]
      exact (onBuffer _ start).trans (setModes _ false (quiet 'l' last (by decide) (.inr rfl)))
  split at ran
  · cases ran
    exact ⟨rfl, rfl, rfl, rfl⟩
  · exact (onBuffer _ start).trans (tryBuffer ran).1

theorem escape (emulator : VtEmulator) {byte : UInt8}
    (stays : Char.ofNat byte.toNat ≠ 'c')
    : SameScreens emulator (emulator.escape byte) := by
  unfold VtEmulator.escape
  dsimp only
  split
  case h_13 => contradiction
  all_goals exact ⟨rfl, rfl, rfl, rfl⟩

variable [UnicodeData]

theorem putChars {text : List Char} (ran : VtEmulator.putChars text start = .ok stop)
    : SameScreens start stop ∧ stop.parser = start.parser := by
  induction text generalizing start with
  | nil =>
    cases ran
    exact ⟨.refl _, rfl⟩
  | cons char rest ih =>
    obtain ⟨next, first, behind⟩ := except_bind_ok.mp ran
    obtain ⟨same, parser⟩ := tryBuffer first
    obtain ⟨later, kept⟩ := ih behind
    exact ⟨same.trans later, kept.trans parser⟩

theorem decodeText {data : List UInt8} (ran : start.decodeText data = .ok stop)
    : SameScreens start stop
      ∧ stop.parser = { start.parser with pending := (decode start.parser.pending data).2 } := by
  obtain ⟨same, parser⟩ := putChars ran
  exact ⟨⟨same.size, same.usingAlternate, same.primaryState, same.alternateState⟩, parser⟩

/-- A byte that switches no buffer and resets nothing leaves both screens where they are. -/
theorem feedByte {byte : UInt8} (stays : ¬ start.parser.switches byte)
    (keeps : ¬ start.parser.resets byte) (ran : start.feedByte byte = .ok stop)
    : SameScreens start stop := by
  unfold VtEmulator.feedByte at ran
  split at ran
  · cases ran
    unfold VtEmulator.feedString
    dsimp only
    split <;> exact ⟨rfl, rfl, rfl, rfl⟩
  · next phase =>
      cases ran
      exact escape start (fun reset => keeps ⟨phase, reset⟩)
  · next phase =>
      unfold VtEmulator.feedCsi at ran
      dsimp only at ran
      split at ran
      · obtain ⟨middle, dispatched, same⟩ := except_bind_ok.mp ran
        cases same
        have quiet : ¬ (⟨.csi, start.parser.csi, false, []⟩ : VtParser).switches byte := by
          intro switch
          exact stays ⟨phase, switch.2⟩
        exact (csiDispatch quiet dispatched).trans ⟨rfl, rfl, rfl, rfl⟩
      split at ran
      · cases ran
        exact ⟨rfl, rfl, rfl, rfl⟩
      · cases ran
        exact ⟨rfl, rfl, rfl, rfl⟩
  · split at ran
    · obtain ⟨middle, flushed, same⟩ := except_bind_ok.mp ran
      cases same
      exact (decodeText flushed).1.trans ⟨rfl, rfl, rfl, rfl⟩
    split at ran
    · obtain ⟨middle, flushed, same⟩ := except_bind_ok.mp ran
      cases same
      exact (decodeText flushed).1.trans ⟨rfl, rfl, rfl, rfl⟩
    · exact (decodeText ran).1

end SameScreens

theorem parser_reset (emulator : VtEmulator) : emulator.reset.parser = emulator.parser := by
  unfold VtEmulator.reset VtEmulator.leaveAlternate VtEmulator.storeActiveState
  dsimp only
  repeat' split
  all_goals rfl

/-- What a parser holds for a sequence or a string it is not in is initial. -/
structure VtParser.Settled (parser : VtParser) : Prop where
  csi : parser.phase ≠ .csi → parser.csi = []
  stringEsc : parser.phase ≠ .string → parser.stringEsc = false

theorem settled_escape {emulator : VtEmulator} (settled : emulator.parser.Settled)
    (phase : emulator.parser.phase = .esc) (byte : UInt8)
    : (emulator.escape byte).parser.Settled := by
  have csi := settled.csi (by rw [phase]; decide)
  have stringEsc := settled.stringEsc (by rw [phase]; decide)
  unfold VtEmulator.escape
  dsimp only
  split
  case h_13 =>
    rw [parser_reset]
    exact ⟨fun _ => csi, fun _ => stringEsc⟩
  case h_2 => exact ⟨fun _ => csi, fun _ => rfl⟩
  case h_3 => exact ⟨fun _ => csi, fun _ => rfl⟩
  case h_4 => exact ⟨fun _ => csi, fun _ => rfl⟩
  case h_5 => exact ⟨fun _ => csi, fun _ => rfl⟩
  all_goals exact ⟨fun _ => csi, fun _ => stringEsc⟩

section Reached

variable [UnicodeData] {columns rows : Int} {emulator start stop : VtEmulator}

/-- A stream of bytes led to the emulator from a blank terminal. -/
def Reached (columns rows : Int) (emulator : VtEmulator) : Prop :=
  ∃ start data, VtEmulator.init columns rows = .ok start ∧ start.feed data = .ok emulator

theorem feed_append (first second : List UInt8) (emulator : VtEmulator)
    : emulator.feed (first ++ second)
      = emulator.feed first >>= fun middle => middle.feed second := by
  unfold VtEmulator.feed
  rw [List.foldlM_append]

theorem Reached.feed (reached : Reached columns rows emulator) {data : List UInt8}
    (fed : emulator.feed data = .ok stop)
    : Reached columns rows stop := by
  obtain ⟨start, before, made, led⟩ := reached
  refine ⟨start, before ++ data, made, ?_⟩
  rw [feed_append]
  exact except_bind_ok.mpr ⟨emulator, led, fed⟩

theorem Reached.sound (reached : Reached columns rows emulator)
    : emulator.Sound ⟨columns.toNat, rows.toNat⟩ := by
  obtain ⟨start, data, made, led⟩ := reached
  have sound := VtEmulator.sound_of_init made
  obtain ⟨after, fed, kept⟩ := sound.feed (sound.roomy led)
  rw [led] at fed
  cases fed
  exact kept

theorem settled_feedByte (settled : start.parser.Settled) {byte : UInt8}
    (ran : start.feedByte byte = .ok stop)
    : stop.parser.Settled := by
  unfold VtEmulator.feedByte at ran
  split at ran
  · next phase =>
      cases ran
      have csi := settled.csi (by rw [phase]; decide)
      unfold VtEmulator.feedString
      dsimp only
      split
      · exact ⟨fun _ => csi, fun _ => rfl⟩
      · exact ⟨fun _ => csi, fun outside => absurd phase outside⟩
  · next phase =>
      cases ran
      exact settled_escape settled phase byte
  · next phase =>
      have stringEsc := settled.stringEsc (by rw [phase]; decide)
      unfold VtEmulator.feedCsi at ran
      dsimp only at ran
      split at ran
      · obtain ⟨middle, dispatched, same⟩ := except_bind_ok.mp ran
        cases same
        exact ⟨fun _ => rfl, fun _ => stringEsc⟩
      split at ran
      · cases ran
        exact ⟨fun outside => absurd phase outside, fun _ => stringEsc⟩
      · cases ran
        exact ⟨fun _ => rfl, fun _ => stringEsc⟩
  · next phase =>
      have csi := settled.csi (by rw [phase]; decide)
      have stringEsc := settled.stringEsc (by rw [phase]; decide)
      split at ran
      · obtain ⟨middle, flushed, same⟩ := except_bind_ok.mp ran
        cases same
        have parser := (SameScreens.decodeText flushed).2
        unfold VtEmulator.setPhase
        rw [parser]
        exact ⟨fun _ => csi, fun _ => stringEsc⟩
      split at ran
      · obtain ⟨middle, flushed, same⟩ := except_bind_ok.mp ran
        cases same
        have parser := (SameScreens.decodeText flushed).2
        unfold VtEmulator.onBuffer
        rw [parser]
        exact ⟨fun _ => csi, fun _ => stringEsc⟩
      · rw [(SameScreens.decodeText ran).2]
        exact ⟨fun _ => csi, fun _ => stringEsc⟩

theorem settled_feed (settled : start.parser.Settled) {data : List UInt8}
    (ran : start.feed data = .ok stop)
    : stop.parser.Settled := by
  induction data generalizing start with
  | nil =>
    cases ran
    exact settled
  | cons byte rest ih =>
    obtain ⟨next, first, behind⟩ := except_bind_ok.mp ran
    exact ih (settled_feedByte settled first) behind

theorem Reached.settled (reached : Reached columns rows emulator) : emulator.parser.Settled := by
  obtain ⟨start, data, made, led⟩ := reached
  have blank : start.parser.Settled := by
    unfold VtEmulator.init at made
    split at made
    · cases made
    · cases made
      exact ⟨fun _ => rfl, fun _ => rfl⟩
  exact settled_feed blank led

def isInside (byte : UInt8) : Bool := ¬ (0x40 ≤ byte ∧ byte ≤ 0x7E)

/-- The bytes of a control sequence are held, by induction on them. -/
theorem feed_inside {emulator : VtEmulator} (phase : emulator.parser.phase = .csi)
    {body : List UInt8} (inside : body.all isInside = true)
    (short : emulator.parser.csi.length + body.length ≤ 4096)
    : emulator.feed body = .ok { emulator with
        parser := { emulator.parser with csi := emulator.parser.csi ++ body } } := by
  induction body generalizing emulator with
  | nil =>
    rw [List.append_nil]
    rfl
  | cons byte rest ih =>
    obtain ⟨first, later⟩ := Bool.and_eq_true_iff.mp inside
    rw [List.length_cons] at short
    have goes : ¬ (0x40 ≤ byte ∧ byte ≤ 0x7E) := of_decide_eq_true first
    have held : emulator.feedByte byte = .ok { emulator with
        parser := { emulator.parser with csi := emulator.parser.csi ++ [byte] } } := by
      unfold VtEmulator.feedByte VtEmulator.feedCsi
      simp only [phase]
      rw [if_neg goes, if_pos (by omega)]
    have rest_ : ({ emulator with parser := { emulator.parser with
        csi := emulator.parser.csi ++ [byte] } } : VtEmulator).feed rest = _ :=
      ih phase later (by
        rw [List.length_append, List.length_singleton]
        omega)
    refine except_bind_ok.mpr ⟨_, held, rest_.trans ?_⟩
    simp

theorem feed_sequence {size : VtSize} (sound : emulator.Sound size)
    (settled : emulator.parser.Settled) (ground : emulator.parser.phase = .text) {body : List UInt8}
    (inside : body.all isInside = true) (short : body.length ≤ 4096) {final : UInt8}
    (ends : 0x40 ≤ final ∧ final ≤ 0x7E) {after : VtEmulator}
    (dispatched : ({ emulator with
      parser := { emulator.parser with phase := .csi, csi := body } } : VtEmulator).csiDispatch
        body final = .ok after)
    : emulator.feed (0x1B :: 0x5B :: (body ++ [final]))
      = .ok { after with parser := { emulator.parser with phase := .text, csi := [] } } := by
  have empty := settled.csi (by rw [ground]; decide)
  have escaped : emulator.feedByte 0x1B = .ok (emulator.setPhase .esc) := by
    unfold VtEmulator.feedByte
    simp only [ground]
    rw [sound.flushText]
    rfl
  have opened : (emulator.setPhase .esc).feedByte 0x5B = .ok (emulator.setPhase .csi) := rfl
  have held := @feed_inside _ (emulator.setPhase .csi) rfl body inside (by
    show emulator.parser.csi.length + body.length ≤ 4096
    rw [empty]
    simpa using short)
  refine except_bind_ok.mpr ⟨_, escaped, except_bind_ok.mpr ⟨_, opened, ?_⟩⟩
  change (emulator.setPhase .csi).feed (body ++ [final]) = _
  rw [feed_append]
  refine except_bind_ok.mpr ⟨_, held, except_bind_ok.mpr ⟨_, ?_, rfl⟩⟩
  change VtEmulator.feedCsi final _ = _
  unfold VtEmulator.feedCsi
  dsimp only
  rw [if_pos ends]
  refine except_bind_ok.mpr ⟨after, ?_, rfl⟩
  change VtEmulator.csiDispatch (emulator.parser.csi ++ body) final { emulator with
    parser := { emulator.parser with
      phase := .csi
      csi := emulator.parser.csi ++ body } } = .ok after
  rwa [empty, List.nil_append]

end Reached

/-- The bytes of `?1049`, between the introducer and the final byte. -/
def mode1049 : List UInt8 := [0x3F, 0x31, 0x30, 0x34, 0x39]

/-- `ESC [ ? 1 0 4 9 h`. -/
def enterSequence : List UInt8 := 0x1B :: 0x5B :: (mode1049 ++ [0x68])

/-- `ESC [ ? 1 0 4 9 l`. -/
def leaveSequence : List UInt8 := 0x1B :: 0x5B :: (mode1049 ++ [0x6C])

section RoundTrip

variable [UnicodeData] {columns rows : Int} {emulator middle : VtEmulator}

/-- No byte of the stream completes a buffer switch or a reset in the state it arrives in. -/
def Calm : VtEmulator → List UInt8 → Prop
  | _, [] => True
  | emulator, byte :: rest =>
    (¬ emulator.parser.switches byte ∧ ¬ emulator.parser.resets byte)
    ∧ ∀ after, emulator.feedByte byte = .ok after → Calm after rest

/-- A calm stream leaves both screens where they are, by induction on its bytes. -/
theorem SameScreens.feed {data : List UInt8} (calm : Calm emulator data)
    (fed : emulator.feed data = .ok middle)
    : SameScreens emulator middle := by
  induction data generalizing emulator with
  | nil =>
    cases fed
    exact .refl _
  | cons byte rest ih =>
    obtain ⟨quiet, later⟩ := calm
    obtain ⟨next, first, behind⟩ := except_bind_ok.mp fed
    exact (SameScreens.feedByte quiet.1 quiet.2 first).trans (ih (later next first) behind)

omit [UnicodeData] in
theorem csiDispatch_mode1049 (enabled : Bool) (emulator : VtEmulator)
    : emulator.csiDispatch mode1049 (if enabled then 0x68 else 0x6C)
      = .ok ((emulator.onBuffer (fun buffer =>
          { buffer with pendingWrap := false })).setPrivateMode 1049 enabled) := by
  cases enabled <;> rfl

omit [UnicodeData] in
/-- Entering stores the primary buffer with its cursor and rendition saved. -/
theorem setPrivateMode_enter (primary : emulator.usingAlternate = false)
    : (emulator.setPrivateMode 1049 true).usingAlternate = true
      ∧ (emulator.setPrivateMode 1049 true).primaryState = emulator.buffer.saveCursor.state := by
  simp [VtEmulator.setPrivateMode, VtEmulator.onBuffer, VtEmulator.enterAlternate,
    VtEmulator.storeActiveState, primary]

omit [UnicodeData] in
/-- Leaving brings the stored buffer back with its saved cursor. -/
theorem setPrivateMode_leave (alternate : emulator.usingAlternate = true)
    : (emulator.setPrivateMode 1049 false).usingAlternate = false
      ∧ (emulator.setPrivateMode 1049 false).buffer
        = emulator.primaryState.restore.restoreCursor emulator.size := by
  simp [VtEmulator.setPrivateMode, VtEmulator.onBuffer, VtEmulator.leaveAlternate,
    VtEmulator.storeActiveState, alternate]

/-- A mode 1049 sequence, fed to an emulator between sequences. -/
theorem feed_mode1049 (reached : Reached columns rows emulator)
    (ground : emulator.parser.phase = .text) (enabled : Bool)
    : ∃ held last : VtParser, emulator.feed
          (0x1B :: 0x5B :: (mode1049 ++ [if enabled then 0x68 else 0x6C]))
        = .ok { ({ emulator with
            buffer := { emulator.buffer with pendingWrap := false }
            parser := held } : VtEmulator).setPrivateMode 1049 enabled with
          parser := last } := by
  have ends : (0x40 : UInt8) ≤ (if enabled then 0x68 else 0x6C)
      ∧ (if enabled then 0x68 else 0x6C) ≤ (0x7E : UInt8) := by cases enabled <;> decide
  exact ⟨_, _, feed_sequence reached.sound reached.settled ground (by decide) (by decide) ends
    (csiDispatch_mode1049 enabled _)⟩

/-- Between `?1049h` and `?1049l` a stream may do anything but switch buffers and reset: if
it leaves no sequence unfinished, the primary buffer is back with its cells, its cursor and
its rendition.
-/
theorem alternateScreen_roundTrip (reached : Reached columns rows emulator)
    (primary : emulator.usingAlternate = false) (ground : emulator.parser.phase = .text)
    : ∃ entered, emulator.feed enterSequence = .ok entered
        ∧ ∀ data middle, Calm entered data → entered.feed data = .ok middle →
          middle.parser.phase = .text →
            ∃ after, middle.feed leaveSequence = .ok after
              ∧ after.usingAlternate = false ∧ after.buffer.cells = emulator.buffer.cells
              ∧ after.buffer.x = emulator.buffer.x ∧ after.buffer.y = emulator.buffer.y
              ∧ after.buffer.rendition = emulator.buffer.rendition := by
  obtain ⟨first, _, enters⟩ := feed_mode1049 reached ground true
  refine ⟨_, enters, fun data middle calm fed ended => ?_⟩
  have same := SameScreens.feed calm fed
  obtain ⟨alternate, stored⟩ := @setPrivateMode_enter { emulator with
    buffer := { emulator.buffer with pendingWrap := false }
    parser := first } primary
  obtain ⟨second, _, leaves⟩ := feed_mode1049 ((reached.feed enters).feed fed) ended false
  obtain ⟨left, restored⟩ := @setPrivateMode_leave { middle with
    buffer := { middle.buffer with pendingWrap := false }
    parser := second } (same.usingAlternate.trans alternate)
  have back : middle.primaryState = _ := same.primaryState.trans stored
  have size : middle.size = ⟨columns.toNat, rows.toNat⟩ :=
    ((reached.feed enters).feed fed).sound.same_size
  have inside := reached.sound.buffer
  have x_le : emulator.buffer.x ≤ columns.toNat - 1 := Nat.le_sub_one_of_lt inside.x_lt
  have y_le : emulator.buffer.y ≤ rows.toNat - 1 := Nat.le_sub_one_of_lt inside.y_lt
  refine ⟨_, leaves, left, ?_⟩
  dsimp only at restored ⊢
  rw [restored, back, size]
  exact ⟨rfl, Nat.min_eq_left x_le, Nat.min_eq_left y_le, rfl⟩

end RoundTrip

def letterTerminal (letter : String) : VtEmulator where
  size := ⟨2, 1⟩
  buffer := { cells := [[{ text := letter }, {}]], x := 1, scrollBottom := 0 }
  primaryState := (blankBuffer ⟨2, 1⟩).state
  alternateState := (blankBuffer ⟨2, 1⟩).state

def alternateOf (terminal : VtEmulator) : VtEmulator :=
  { terminal with
    buffer := blankBuffer terminal.size
    usingAlternate := true
    primaryState := terminal.buffer.saveCursor.state }

/-- A letter is printed, the alternate screen entered, and there another letter printed or the
way back swallowed by a string.
-/
theorem letterTerminal_feeds
    : @VtEmulator.feed ideographs [0x41] {
          size := ⟨2, 1⟩
          buffer := blankBuffer ⟨2, 1⟩
          primaryState := (blankBuffer ⟨2, 1⟩).state
          alternateState := (blankBuffer ⟨2, 1⟩).state } = .ok (letterTerminal "A")
      ∧ @VtEmulator.feed ideographs enterSequence (letterTerminal "A")
        = .ok (alternateOf (letterTerminal "A"))
      ∧ @VtEmulator.feed ideographs [0x42] (alternateOf (letterTerminal "A"))
        = .ok { alternateOf (letterTerminal "A") with buffer := (letterTerminal "B").buffer }
      ∧ @VtEmulator.feed ideographs ([0x1B, 0x5D] ++ leaveSequence)
          (alternateOf (letterTerminal "A"))
        = .ok { alternateOf (letterTerminal "A") with parser := { phase := .string } }
      ∧ (alternateOf (letterTerminal "A")).buffer.cells ≠ (letterTerminal "A").buffer.cells := by
  decide +kernel

theorem letterTerminal_reached : @Reached ideographs 2 1 (letterTerminal "A") :=
  ⟨_, [0x41], rfl, letterTerminal_feeds.1⟩

/-- A letter is printed on the alternate screen, and the one before it comes back. -/
theorem alternateScreen_letter
    : ∃ after,
        @VtEmulator.feed ideographs (enterSequence ++ [0x42] ++ leaveSequence)
            (letterTerminal "A") = .ok after
          ∧ after.usingAlternate = false
          ∧ after.buffer.cells = [[{ text := "A" }, {}]] := by
  obtain ⟨entered, enters, back⟩ :=
    @alternateScreen_roundTrip ideographs 2 1 _ letterTerminal_reached rfl rfl
  obtain ⟨-, same, printed, -, -⟩ := letterTerminal_feeds
  cases same.symm.trans enters
  have outside : (alternateOf (letterTerminal "A")).parser.phase = .text := rfl
  have calm : @Calm ideographs (alternateOf (letterTerminal "A")) [0x42] := by
    refine ⟨⟨fun switch => ?_, fun reset => ?_⟩, fun _ _ => trivial⟩
    · exact absurd switch.1 (by decide)
    · exact absurd reset.1 (by decide)
  obtain ⟨after, leaves, left, cells, _⟩ := back [0x42] _ calm printed rfl
  refine ⟨after, ?_, left, cells⟩
  rw [@feed_append ideographs, @feed_append ideographs, same]
  exact except_bind_ok.mpr ⟨_, printed, leaves⟩

/-- An unfinished string swallows the way back: the alternate screen stays. -/
theorem alternateScreen_unfinished
    : ∃ before entered after, @Reached ideographs 2 1 before
        ∧ before.usingAlternate = false ∧ before.parser.phase = .text
        ∧ @VtEmulator.feed ideographs enterSequence before = .ok entered
        ∧ @Calm ideographs entered [0x1B, 0x5D]
        ∧ @VtEmulator.feed ideographs ([0x1B, 0x5D] ++ leaveSequence) entered = .ok after
        ∧ after.usingAlternate = true
        ∧ after.buffer.cells ≠ before.buffer.cells := by
  have calm : @Calm ideographs (alternateOf (letterTerminal "A")) [0x1B, 0x5D] := by
    refine ⟨⟨fun switch => absurd switch.1 (by decide), fun reset => absurd reset.1 (by decide)⟩,
      fun escaped fed => ⟨⟨fun switch => ?_, fun reset => ?_⟩, fun _ _ => trivial⟩⟩
    · cases fed
      exact absurd switch.1 (by decide)
    · exact absurd reset.2 (by decide)
  obtain ⟨-, same, -, swallowed, kept⟩ := letterTerminal_feeds
  exact ⟨letterTerminal "A", alternateOf (letterTerminal "A"),
    { alternateOf (letterTerminal "A") with parser := { phase := .string } },
    letterTerminal_reached, rfl, rfl, same, calm, swallowed, rfl, kept⟩

end Murder.Terminal

import Murder.Library.Transactions
import Murder.Terminal.Emulator

/-! What a snapshot leaves out: the parser alone decides how the emulator goes on. -/

namespace Murder.Terminal

open Library.Agreement

/-- Emulators that differ in the stale state of the active buffer only. -/
structure VtEmulator.Alike (first second : VtEmulator) : Prop where
  size : first.size = second.size
  buffer : first.buffer = second.buffer
  modes : first.modes = second.modes
  usingAlternate : first.usingAlternate = second.usingAlternate
  parser : first.parser = second.parser
  primary : first.usingAlternate = true → first.primaryState = second.primaryState
  alternate : first.usingAlternate = false → first.alternateState = second.alternateState

namespace VtEmulator.Alike

variable {first second : VtEmulator}

theorem onBuffer (h : first.Alike second) (operation : VtBuffer → VtBuffer)
    : (first.onBuffer operation).Alike (second.onBuffer operation) := by
  unfold VtEmulator.onBuffer
  rw [h.buffer]
  exact ⟨h.size, rfl, h.modes, h.usingAlternate, h.parser, h.primary, h.alternate⟩

/-- An operation that reads the terminal's size. -/
theorem onSized (h : first.Alike second) (operation : VtSize → VtBuffer → VtBuffer)
    : (first.onBuffer (operation first.size)).Alike
        (second.onBuffer (operation second.size)) := by
  rw [h.size]
  exact h.onBuffer _

theorem tryBuffer (h : first.Alike second) (operation : VtBuffer → Except VtError VtBuffer)
    : Agree Alike (first.tryBuffer operation) (second.tryBuffer operation) := by
  unfold VtEmulator.tryBuffer
  rw [h.buffer]
  cases operation second.buffer with
  | error raised => exact .error raised
  | ok buffer =>
    exact .ok ⟨h.size, rfl, h.modes, h.usingAlternate, h.parser, h.primary, h.alternate⟩

theorem withModes (h : first.Alike second) (change : VtModes → VtModes)
    : Alike { first with modes := change first.modes }
        { second with modes := change second.modes } := by
  rw [h.modes]
  exact ⟨h.size, h.buffer, rfl, h.usingAlternate, h.parser, h.primary, h.alternate⟩

theorem setParser (h : first.Alike second) (parser : VtParser)
    : Alike { first with parser := parser } { second with parser := parser } :=
  ⟨h.size, h.buffer, h.modes, h.usingAlternate, rfl, h.primary, h.alternate⟩

theorem withParser (h : first.Alike second) (change : VtParser → VtParser)
    : Alike { first with parser := change first.parser }
        { second with parser := change second.parser } := by
  rw [h.parser]
  exact h.setParser _

theorem storeActiveState (h : first.Alike second)
    : first.storeActiveState = second.storeActiveState := by
  obtain ⟨size, buffer, modes, alternating, primary, alternate, parser⟩ := first
  obtain ⟨size', buffer', modes', alternating', primary', alternate', parser'⟩ := second
  obtain ⟨rfl, rfl, rfl, rfl, rfl, samePrimary, sameAlternate⟩ := h
  unfold VtEmulator.storeActiveState
  cases alternating with
  | true =>
    obtain rfl := samePrimary rfl
    rfl
  | false =>
    obtain rfl := sameAlternate rfl
    rfl

theorem refl (emulator : VtEmulator) : emulator.Alike emulator :=
  ⟨rfl, rfl, rfl, rfl, rfl, fun _ => rfl, fun _ => rfl⟩

theorem enterAlternate (h : first.Alike second)
    : first.enterAlternate.Alike second.enterAlternate := by
  unfold VtEmulator.enterAlternate
  rw [← h.usingAlternate]
  split
  · exact h
  · rw [h.storeActiveState]
    exact .refl _

theorem leaveAlternate (h : first.Alike second)
    : first.leaveAlternate.Alike second.leaveAlternate := by
  unfold VtEmulator.leaveAlternate
  rw [← h.usingAlternate]
  split
  · rw [h.storeActiveState]
    exact .refl _
  · exact h

theorem setPrivateMode (h : first.Alike second) (param : Nat) (enabled : Bool)
    : (first.setPrivateMode param enabled).Alike (second.setPrivateMode param enabled) := by
  unfold VtEmulator.setPrivateMode
  dsimp only
  split
  case h_1 => exact h.withModes (fun modes => { modes with applicationCursor := enabled })
  case h_2 =>
    rw [h.modes, h.buffer]
    exact ⟨h.size, rfl, rfl, h.usingAlternate, h.parser, h.primary, h.alternate⟩
  case h_3 => exact h.withModes (fun modes => { modes with wraparound := enabled })
  case h_4 => exact h.onBuffer (fun buffer => { buffer with cursorVisible := enabled })
  case h_5 =>
    split
    · exact h.enterAlternate
    · exact h.leaveAlternate
  case h_6 =>
    split
    · exact h.enterAlternate
    · exact h.leaveAlternate
  case h_7 =>
    split
    · exact (h.onBuffer _).enterAlternate
    · rw [h.size]
      exact h.leaveAlternate.onBuffer _
  case h_8 => exact h.withModes (fun modes => { modes with bracketedPaste := enabled })
  case h_9 => exact h.withModes (fun modes => { modes with synchronizedUpdates := enabled })
  case h_10 => exact h

theorem setModes (h : first.Alike second) (params : List Nat) (isPrivate enabled : Bool)
    : (first.setModes params isPrivate enabled).Alike
        (second.setModes params isPrivate enabled) := by
  unfold VtEmulator.setModes
  induction params generalizing first second with
  | nil => exact h
  | cons param rest ih =>
    rw [List.foldl_cons, List.foldl_cons]
    apply ih
    split
    · exact h.setPrivateMode param enabled
    split
    · exact h.withModes (fun modes => { modes with insert := enabled })
    · exact h

theorem csiDispatch (h : first.Alike second) (body : List UInt8) (final : UInt8)
    : Agree Alike (first.csiDispatch body final) (second.csiDispatch body final) := by
  unfold VtEmulator.csiDispatch
  dsimp only
  cases csiParams _ with
  | error raised => exact .error raised
  | ok params =>
    have waiting := h.onBuffer (fun buffer => { buffer with pendingWrap := false })
    dsimp only [bind, Except.bind]
    split
    · exact .ok (waiting.setModes params _ true)
    split
    · exact .ok (waiting.setModes params _ false)
    split
    · exact .ok (waiting.onBuffer _)
    · rw [waiting.size, waiting.modes]
      exact waiting.tryBuffer _

theorem reset (h : first.Alike second) : first.reset.Alike second.reset := by
  have home := h.onSized (fun size buffer => { buffer with
    rendition := defaultRendition
    scrollTop := 0
    scrollBottom := size.rows - 1
    x := 0
    y := 0
    cursorVisible := true
    pendingWrap := false })
  exact (home.withModes (fun _ => {})).leaveAlternate

theorem escape (h : first.Alike second) (byte : UInt8)
    : (first.escape byte).Alike (second.escape byte) := by
  have text : (first.setPhase .text).Alike (second.setPhase .text) :=
    h.withParser (fun parser => { parser with phase := .text })
  unfold VtEmulator.escape
  dsimp only
  split
  case h_1 => exact text.withParser (fun parser => { parser with phase := .csi })
  case h_6 => exact text.onBuffer _
  case h_7 => exact text.onSized VtBuffer.restoreCursor
  case h_8 => exact text.onSized VtBuffer.index
  case h_9 => exact text.onSized VtBuffer.reverseIndex
  case h_10 => exact text.onSized (fun size buffer => { buffer.index size with x := 0 })
  case h_11 => exact text.withModes (fun modes => { modes with applicationKeypad := true })
  case h_12 => exact text.withModes (fun modes => { modes with applicationKeypad := false })
  case h_13 => exact text.reset
  case h_14 => exact text
  all_goals
    exact text.withParser (fun parser => { parser with phase := .string, stringEsc := false })

theorem feedString (h : first.Alike second) (byte : UInt8)
    : (first.feedString byte).Alike (second.feedString byte) := by
  unfold VtEmulator.feedString
  dsimp only
  rw [← h.parser]
  split
  · exact h.setParser _
  · exact h.setParser _

theorem feedCsi (h : first.Alike second) (byte : UInt8)
    : Agree Alike (first.feedCsi byte) (second.feedCsi byte) := by
  unfold VtEmulator.feedCsi
  dsimp only
  rw [← h.parser]
  split
  · exact (h.csiDispatch _ byte).bind (fun a b next => .ok (next.setParser _))
  split
  · exact .ok (h.setParser _)
  · exact .ok (h.setParser _)

section Feed

variable [UnicodeData]

theorem putChars (h : first.Alike second) (text : List Char)
    : Agree Alike (first.putChars text) (second.putChars text) := by
  refine Agree.foldlM (fun char a b next => ?_) text h
  rw [next.size, next.modes]
  exact next.tryBuffer _

theorem decodeText (h : first.Alike second) (data : List UInt8)
    : Agree Alike (first.decodeText data) (second.decodeText data) := by
  unfold VtEmulator.decodeText
  rw [← h.parser]
  exact (h.setParser _).putChars _

theorem feedByte (h : first.Alike second) (byte : UInt8)
    : Agree Alike (first.feedByte byte) (second.feedByte byte) := by
  unfold VtEmulator.feedByte
  rw [← h.parser]
  split
  · exact .ok (h.feedString byte)
  · exact .ok (h.escape byte)
  · exact h.feedCsi byte
  split
  · exact (h.decodeText []).bind (fun a b next =>
      .ok (next.withParser (fun parser => { parser with phase := .esc })))
  split
  · refine (h.decodeText []).bind (fun a b next => ?_)
    exact .ok (next.onSized (fun size => VtEmulator.control size byte))
  · exact h.decodeText [byte]

theorem feed (h : first.Alike second) (data : List UInt8)
    : Agree Alike (first.feed data) (second.feed data) :=
  Agree.foldlM (fun byte _ _ next => next.feedByte byte) data h

end Feed

theorem snapshot (h : first.Alike second) : first.snapshot = second.snapshot := by
  unfold VtEmulator.snapshot
  rw [h.storeActiveState]

end VtEmulator.Alike

theorem VtBuffer.state_injective {first second : VtBuffer} (same : first.state = second.state)
    : first = second :=
  congrArg VtBufferSnapshot.restore same

/-- A snapshot and the parser determine an emulator up to its stale state. -/
theorem VtEmulator.alike_of_snapshot {first second : VtEmulator}
    (same : first.snapshot = second.snapshot) (parser : first.parser = second.parser)
    : first.Alike second := by
  obtain ⟨⟨columns, rows⟩, buffer, modes, alternating, primary, alternate, _⟩ := first
  obtain ⟨⟨columns', rows'⟩, buffer', modes', alternating', primary', alternate', _⟩ := second
  cases alternating with
  | true =>
    cases alternating' with
    | true =>
      obtain ⟨rfl, rfl, samePrimary, state, -, rfl⟩ := VtSnapshot.mk.inj same
      exact ⟨rfl, VtBuffer.state_injective state, rfl, rfl, parser, fun _ => samePrimary,
        fun primary => nomatch primary⟩
    | false => cases (VtSnapshot.mk.inj same).2.2.2.2.1
  | false =>
    cases alternating' with
    | true => cases (VtSnapshot.mk.inj same).2.2.2.2.1
    | false =>
      obtain ⟨rfl, rfl, state, sameAlternate, -, rfl⟩ := VtSnapshot.mk.inj same
      exact ⟨rfl, VtBuffer.state_injective state, rfl, rfl, parser,
        fun alternate => (nomatch alternate), fun _ => sameAlternate⟩

section Streams

variable [UnicodeData]

def fedWith (columns rows : Int) (stream : List UInt8) : Except VtError VtEmulator := do
  let emulator ← VtEmulator.init columns rows
  emulator.feed stream

def shownAfter (columns rows : Int) (stream : List UInt8) : Except VtError VtSnapshot :=
  (fedWith columns rows stream).map VtEmulator.snapshot

def retainedAfter (columns rows : Int) (stream : List UInt8) : Except VtError VtParser :=
  (fedWith columns rows stream).map VtEmulator.parser

/-- A snapshot two streams share decides what both show after any suffix. -/
def SnapshotResumes (columns rows : Int) (a b : List UInt8) : Prop :=
  shownAfter columns rows a = shownAfter columns rows b
    → ∀ q, shownAfter columns rows (a ++ q) = shownAfter columns rows (b ++ q)

theorem fedWith_append (columns rows : Int) (stream q : List UInt8)
    : fedWith columns rows (stream ++ q)
      = fedWith columns rows stream >>= fun emulator => emulator.feed q := by
  unfold fedWith VtEmulator.feed
  cases VtEmulator.init columns rows with
  | error raised => rfl
  | ok emulator => exact List.foldlM_append

/-- A keyframe is a sufficient resume state between streams that leave the parser alike. -/
theorem snapshotResumes_of_retained {columns rows : Int} {a b : List UInt8}
    (retained : retainedAfter columns rows a = retainedAfter columns rows b)
    : SnapshotResumes columns rows a b := by
  intro shown q
  unfold shownAfter at shown ⊢
  unfold retainedAfter at retained
  rw [fedWith_append, fedWith_append]
  cases first : fedWith columns rows a with
  | error raised =>
    rw [first] at shown
    cases second : fedWith columns rows b with
    | error raised' =>
      rw [second] at shown
      cases shown
      rfl
    | ok emulator =>
      rw [second] at shown
      cases shown
  | ok emulator =>
    rw [first] at shown retained
    cases second : fedWith columns rows b with
    | error raised =>
      rw [second] at shown
      cases shown
    | ok emulator' =>
      rw [second] at shown retained
      have alike := VtEmulator.alike_of_snapshot (Except.ok.inj shown)
        (Except.ok.inj retained)
      exact (alike.feed q).map_eq (fun _ _ next => next.snapshot)

end Streams

/-- Characters of one place, none of which combines. -/
abbrev narrowOnly : UnicodeData where
  combining := fun _ => 0
  eastAsianWidth := fun _ => .narrow

/-- Streams that end between sequences. -/
theorem snapshotResumes_after_text
    : @SnapshotResumes narrowOnly 2 1 [0x41] [0x1B, 0x5B, 0x6D, 0x41] :=
  @snapshotResumes_of_retained narrowOnly 2 1 _ _ (by decide +kernel)

/-- An escape that was fed already is no part of the snapshot. -/
theorem not_snapshotResumes_after_escape
    : ¬ @SnapshotResumes narrowOnly 2 1 [] [0x1B] := by
  intro resumes
  have shown : @shownAfter narrowOnly 2 1 [] = @shownAfter narrowOnly 2 1 [0x1B] := by
    decide +kernel
  have apart : @shownAfter narrowOnly 2 1 [0x41] ≠ @shownAfter narrowOnly 2 1 [0x1B, 0x41] := by
    decide +kernel
  exact apart (resumes shown [0x41])

end Murder.Terminal

import Mathlib.Data.List.Basic
import Murder.Library.Transactions
import Murder.Terminal.Output

/-! What a raw stream delivers: sequences in order, jumps announced and recovered, and
nothing lost, for every interleaving with the publishers of its output.
-/

namespace Murder.Terminal

open Library.Runs Library.Transactions

----------------------------------------
-- Sent messages
----------------------------------------

def StreamMessage.sequence? : StreamMessage → Option Nat
  | .attached => none
  | .gap _ _ => none
  | .chunk sequence _ => some sequence
  | .keyframe frame => some frame.sequence
  | .resynced frame => some frame.sequence

def sentSequences (sent : List StreamMessage) : List Nat := sent.filterMap (·.sequence?)

def lastSent (sent : List StreamMessage) : Nat := (sentSequences sent).getLast?.getD 0

/-- Sequences increase one by one, except where a gap and a keyframe behind it jump. -/
structure Ordered (sent : List StreamMessage) : Prop where
  increasing : (sentSequences sent).Pairwise (· < ·)
  consecutive
    : ∀ before message after sequence, sent = before ++ message :: after
        → message.sequence? = some sequence → sentSequences before ≠ []
        → sequence = lastSent before + 1
          ∨ (∃ frame, message = .keyframe frame)
            ∧ ∃ expected next, before.getLast? = some (.gap expected next)
  announced
    : ∀ before expected next after, sent = before ++ .gap expected next :: after
        → expected = lastSent before + 1 ∧ expected ≤ next
          ∧ (after = [] ∨ ∃ frame later, after = .keyframe frame :: later ∧ next ≤ frame.sequence)

/-- An update was sent, or a keyframe with a larger sequence was. -/
def Delivered (sent : List StreamMessage) (sequence : Nat) : Prop :=
  sequence ∈ sentSequences sent
  ∨ ∃ frame, (.keyframe frame ∈ sent ∨ .resynced frame ∈ sent) ∧ sequence < frame.sequence

/-- No gap waits for its keyframe. -/
def Settled (sent : List StreamMessage) : Prop :=
  ∀ expected next, sent.getLast? ≠ some (.gap expected next)

theorem sentSequences_snoc (sent : List StreamMessage) (message : StreamMessage)
    : sentSequences (sent ++ [message]) = sentSequences sent ++ message.sequence?.toList := by
  unfold sentSequences
  rw [List.filterMap_append]
  cases same : message.sequence? with
  | none => simp [same]
  | some sequence => simp [same]

variable {sent : List StreamMessage} {message : StreamMessage} {sequence : Nat}

theorem lastSent_snoc (carries : message.sequence? = some sequence)
    : lastSent (sent ++ [message]) = sequence := by
  simp [lastSent, sentSequences_snoc, carries]

theorem lastSent_snoc_none (bare : message.sequence? = none)
    : lastSent (sent ++ [message]) = lastSent sent := by
  simp [lastSent, sentSequences_snoc, bare]

theorem settled_snoc (other : ∀ expected next, message ≠ .gap expected next)
    : Settled (sent ++ [message]) := by
  intro expected next same
  rw [List.getLast?_concat] at same
  exact other expected next (Option.some.inj same)

theorem eq_append_cons_of_snoc {α : Type} {items before after : List α} {item last : α}
    (same : items ++ [last] = before ++ item :: after)
    : (after = [] ∧ item = last ∧ before = items)
      ∨ ∃ rest, after = rest ++ [last] ∧ items = before ++ item :: rest := by
  rcases List.eq_nil_or_concat' after with rfl | ⟨rest, final, rfl⟩
  · obtain ⟨rfl, rfl⟩ := List.append_inj' same rfl |>.imp id List.singleton_inj.mp
    exact .inl ⟨rfl, rfl, rfl⟩
  · rw [← List.cons_append, ← List.append_assoc] at same
    obtain ⟨rfl, equal⟩ := List.append_inj' same rfl
    rw [List.singleton_inj.mp equal]
    exact .inr ⟨rest, rfl, rfl⟩

/-- Increasing sequences lie below the last one. -/
theorem Ordered.le_lastSent (h : Ordered sent) (member : sequence ∈ sentSequences sent)
    : sequence ≤ lastSent sent := by
  have increasing := h.increasing
  unfold lastSent
  rcases List.eq_nil_or_concat' (sentSequences sent) with none_ | ⟨front, last, same⟩
  · rw [none_] at member
    cases member
  · rw [same] at increasing member ⊢
    rw [List.getLast?_concat, Option.getD_some]
    rcases List.mem_append.mp member with early | final
    · exact Nat.le_of_lt ((List.pairwise_append.mp increasing).2.2 _ early _ List.mem_cons_self)
    · exact Nat.le_of_eq (List.mem_singleton.mp final)

theorem ordered_nil : Ordered [] where
  increasing := .nil
  consecutive := by
    intro before message after sequence same
    simp at same
  announced := by
    intro before expected next after same
    simp at same

/-- One more message keeps the order when it continues it, or is the keyframe of a gap. -/
theorem Ordered.snoc (h : Ordered sent)
    (above : ∀ sequence, message.sequence? = some sequence → lastSent sent < sequence)
    (continues
      : ∀ sequence, message.sequence? = some sequence → sentSequences sent ≠ []
          → sequence = lastSent sent + 1
            ∨ (∃ frame, message = .keyframe frame)
              ∧ ∃ expected next, sent.getLast? = some (.gap expected next))
    (gap : ∀ expected next, message = .gap expected next
      → expected = lastSent sent + 1 ∧ expected ≤ next)
    (recovers : ∀ expected next, sent.getLast? = some (.gap expected next)
      → ∃ frame, message = .keyframe frame ∧ next ≤ frame.sequence)
    : Ordered (sent ++ [message]) where
  increasing := by
    rw [sentSequences_snoc]
    refine List.pairwise_append.mpr ⟨h.increasing, ?_, fun early member late held => ?_⟩
    · cases message.sequence? with
      | none => exact .nil
      | some sequence => exact List.pairwise_singleton _ _
    · have carries := Option.mem_toList.mp held
      exact Nat.lt_of_le_of_lt (h.le_lastSent member) (above late carries)
  consecutive := by
    intro before item after sequence same carries some_
    rcases eq_append_cons_of_snoc same with ⟨rfl, rfl, rfl⟩ | ⟨rest, rfl, earlier⟩
    · exact continues sequence carries some_
    · exact h.consecutive before item rest sequence earlier carries some_
  announced := by
    intro before expected next after same
    rcases eq_append_cons_of_snoc same with ⟨rfl, held, rfl⟩ | ⟨rest, rfl, earlier⟩
    · obtain ⟨continued, le⟩ := gap expected next held.symm
      exact ⟨continued, le, .inl rfl⟩
    · obtain ⟨continued, le, behind⟩ := h.announced before expected next rest earlier
      refine ⟨continued, le, .inr ?_⟩
      rcases behind with rfl | ⟨frame, later, rfl, below⟩
      · obtain ⟨frame, rfl, below⟩ := recovers expected next (by simp [earlier])
        exact ⟨frame, [], rfl, below⟩
      · exact ⟨frame, later ++ [message], rfl, below⟩

/-- A message of a settled stream that carries no sequence and is no gap. -/
theorem Ordered.snoc_next (h : Ordered sent) (settled : Settled sent)
    (carries : message.sequence? = some (lastSent sent + 1))
    : Ordered (sent ++ [message]) := by
  refine h.snoc (fun sequence held => ?_) (fun sequence held _ => ?_) (fun expected next same => ?_)
    (fun expected next waits => absurd waits (settled expected next))
  · rw [carries] at held
    have := Option.some.inj held
    omega
  · rw [carries] at held
    exact .inl (Option.some.inj held).symm
  · rw [same] at carries
    cases carries

theorem Ordered.snoc_gap (h : Ordered sent)
    (settled : Settled sent) {next : Nat} (above : lastSent sent < next)
    : Ordered (sent ++ [.gap (lastSent sent + 1) next]) := by
  refine h.snoc (fun _ held => nomatch held) (fun _ held => nomatch held)
    (fun expected other same => ?_)
    (fun expected next waits => absurd waits (settled expected next))
  cases same
  exact ⟨rfl, above⟩

theorem Ordered.snoc_keyframe (h : Ordered sent) {frame : TerminalKeyframe} {expected next : Nat}
    (waits : sent.getLast? = some (.gap expected next)) (le : next ≤ frame.sequence)
    (above : lastSent sent < frame.sequence)
    : Ordered (sent ++ [.keyframe frame]) := by
  refine h.snoc (fun sequence held => ?_) (fun sequence held _ => ?_)
    (fun _ _ same => nomatch same) (fun expected' next' waits' => ?_)
  · cases held
    exact above
  · exact .inr ⟨⟨frame, rfl⟩, expected, next, waits⟩
  · rw [waits] at waits'
    cases waits'
    exact ⟨frame, rfl, le⟩

theorem Ordered.snoc_bare (h : Ordered sent)
    (settled : Settled sent) (bare : message.sequence? = none)
    (other : ∀ expected next, message ≠ .gap expected next)
    : Ordered (sent ++ [message]) := by
  refine h.snoc (fun _ held => ?_) (fun _ held => ?_)
    (fun expected next same => absurd same (other expected next))
    (fun expected next waits => absurd waits (settled expected next))
  · rw [bare] at held
    cases held
  · rw [bare] at held
    cases held

theorem Ordered.snoc_first (h : Ordered sent)
    (settled : Settled sent) (none_ : sentSequences sent = [])
    (carries : message.sequence? = some sequence) (pos : 0 < sequence)
    : Ordered (sent ++ [message]) := by
  refine h.snoc (fun other held => ?_) (fun _ _ some_ => absurd none_ some_)
    (fun expected next same => ?_)
    (fun expected next waits => absurd waits (settled expected next))
  · rw [carries] at held
    cases held
    simpa [lastSent, none_] using pos
  · rw [same] at carries
    cases carries

theorem lastSent_of_none (none_ : sentSequences sent = [])
    : lastSent sent = 0 := by
  simp [lastSent, none_]

theorem sequence_messageOf (update : TerminalOutputUpdate)
    : (RawStream.messageOf update).sequence? = some update.sequence := by
  cases update <;> rfl

theorem messageOf_ne_gap (update : TerminalOutputUpdate) (expected next : Nat)
    : RawStream.messageOf update ≠ .gap expected next := by
  cases update <;> exact fun same => nomatch same

----------------------------------------
-- Retained updates
----------------------------------------

/-- The retained updates are the newest ones, numbered without a hole. -/
structure Retained (output : TmuxTerminalOutput) : Prop where
  le : output.updates.length ≤ output.sequence
  numbered
    : output.updates.map (·.sequence)
      = List.range' (output.sequence + 1 - output.updates.length) output.updates.length
  newest : output.sequence ≠ 0 → output.updates ≠ []

theorem Retained.publish {output : TmuxTerminalOutput} (h : Retained output)
    {update : TerminalOutputUpdate} (next : update.sequence = output.sequence + 1)
    {emulator : VtEmulator} {closed : Bool}
    : Retained {
        emulator := emulator
        sequence := output.sequence + 1
        updates := appendBounded retainedUpdates output.updates update
        closed := closed } := by
  have le := h.le
  have pos : 0 < retainedUpdates := by decide
  generalize retainedUpdates = limit at pos ⊢
  have length : (appendBounded limit output.updates update).length
      = output.updates.length + 1 - (output.updates.length + 1 - limit) := by
    simp [appendBounded]
  refine ⟨?_, ?_, fun _ none_ => ?_⟩
  · show (appendBounded limit output.updates update).length ≤ output.sequence + 1
    omega
  · show (appendBounded limit output.updates update).map (·.sequence) = _
    have whole : (output.updates ++ [update]).map (·.sequence)
        = List.range' (output.sequence + 1 - output.updates.length)
            (output.updates.length + 1) := by
      rw [List.map_append, h.numbered, List.map_singleton, next, List.range'_concat]
      congr 2
      omega
    dsimp only
    rw [length]
    unfold appendBounded
    rw [List.map_drop, whole, List.drop_range']
    congr 1
    omega
  · rw [show appendBounded limit output.updates update = [] from none_] at length
    simp only [List.length_nil] at length
    omega

theorem Retained.publishKeyframe {output : TmuxTerminalOutput} (h : Retained output)
    : Retained output.publishKeyframe :=
  h.publish rfl

theorem Retained.publishChunk [UnicodeData] {output after : TmuxTerminalOutput}
    (h : Retained output) {data : List UInt8} (published : output.publishChunk data = .ok after)
    : Retained after ∧ output.sequence ≤ after.sequence ∧ after.closed = output.closed := by
  unfold TmuxTerminalOutput.publishChunk at published
  split at published
  · cases published
    exact ⟨h, Nat.le_refl _, rfl⟩
  · obtain ⟨emulator, -, rest⟩ := except_bind_ok.mp published
    cases rest
    exact ⟨h.publish rfl, Nat.le_succ _, rfl⟩

theorem Retained.sequences {output : TmuxTerminalOutput} (h : Retained output)
    : (output.updates.map (·.sequence)).Pairwise (· < ·)
      ∧ ∀ update ∈ output.updates, update.sequence ≤ output.sequence := by
  constructor
  · rw [h.numbered]
    exact List.pairwise_lt_range'
  · intro update member
    have held : update.sequence ∈ output.updates.map (·.sequence) := List.mem_map_of_mem member
    rw [h.numbered, List.mem_range'_1] at held
    have := h.le
    omega

/-- Updates behind a sequence, in order and published. -/
structure Ahead (output : TmuxTerminalOutput) (sequence : Nat)
    (updates : List TerminalOutputUpdate) : Prop where
  increasing : (sequence :: updates.map (·.sequence)).Pairwise (· < ·)
  published : ∀ update ∈ updates, update.sequence ≤ output.sequence

theorem Retained.updatesAfter {output : TmuxTerminalOutput} (h : Retained output)
    (sequence : Nat)
    : Ahead output sequence (output.updatesAfter sequence) := by
  obtain ⟨increasing, published⟩ := h.sequences
  unfold TmuxTerminalOutput.updatesAfter
  split
  · next first last front back =>
      split
      · next lost =>
          have member := List.mem_of_getLast? back
          refine ⟨?_, fun update held => ?_⟩
          · rw [List.map_singleton, List.pairwise_pair]
            obtain ⟨rest, same⟩ := List.head?_eq_some_iff.mp front
            rw [same] at member increasing
            rcases List.mem_cons.mp member with rfl | later
            · omega
            · have less : first.sequence < last.sequence :=
                (List.pairwise_cons.mp increasing).1 _ (List.mem_map_of_mem later)
              omega
          · rw [List.mem_singleton.mp held]
            exact published last member
      · refine ⟨List.pairwise_cons.mpr ⟨fun other held => ?_, ?_⟩, fun update held => ?_⟩
        · obtain ⟨update, kept, rfl⟩ := List.mem_map.mp held
          exact of_decide_eq_true (List.mem_filter.mp kept).2
        · exact increasing.sublist (List.filter_sublist.map _)
        · exact published update (List.mem_filter.mp held).1
  · exact ⟨List.pairwise_singleton _ _, fun _ held => nomatch held⟩

theorem Retained.waitForUpdate {output : TmuxTerminalOutput} (h : Retained output)
    {found : Option TerminalOutputUpdate} (woken : output.waitForUpdate sequence = some found)
    : found = none ∧ output.closed = true
      ∨ ∃ update, found = some update ∧ Ahead output sequence [update] := by
  unfold TmuxTerminalOutput.waitForUpdate at woken
  split at woken
  · next closed =>
      cases woken
      exact .inl ⟨rfl, closed⟩
  · split at woken
    · next less =>
        cases woken
        right
        have some_ := h.newest (by omega)
        obtain ⟨update, found⟩ : ∃ update,
            output.updates.find? (sequence < ·.sequence) = some update := by
          rw [← Option.isSome_iff_exists, List.find?_isSome]
          have last : output.sequence ∈ output.updates.map (·.sequence) := by
            rw [h.numbered, List.mem_range'_1]
            have := List.length_pos_iff.mpr some_
            have := h.le
            omega
          obtain ⟨update, member, same⟩ := List.mem_map.mp last
          exact ⟨update, member, decide_eq_true (by rw [same]; exact less)⟩
        have above : sequence < update.sequence := by
          have held := List.find?_some found
          exact of_decide_eq_true held
        refine ⟨update, found, ?_, fun other held => ?_⟩
        · simpa using above
        · rw [List.mem_singleton.mp held]
          exact h.sequences.2 update (List.mem_of_find?_eq_some found)
    · cases woken

----------------------------------------
-- The stream between two awaits
----------------------------------------

/-- What holds at each place of `_run_raw`. -/
def PhaseSound (output : TmuxTerminalOutput) (stream : RawStream) : Prop :=
  match stream.phase with
  | .attaching => stream.sent = []
  | .opened => sentSequences stream.sent = [] ∧ Settled stream.sent
  | .gapping frame =>
    sentSequences stream.sent = [] ∧ Settled stream.sent
    ∧ stream.resync = false ∧ 0 < frame.sequence ∧ frame.sequence ≤ output.sequence
  | .presenting frame =>
    sentSequences stream.sent = [] ∧ 0 < frame.sequence ∧ frame.sequence ≤ output.sequence
    ∧ (if stream.resync then Settled stream.sent
        else stream.sent.getLast? = some (.gap 1 frame.sequence))
  | .polling => Settled stream.sent
  | .waiting => Settled stream.sent
  | .sending updates => Settled stream.sent ∧ Ahead output stream.sequence updates
  | .replacing =>
    ∃ expected next, stream.sent.getLast? = some (.gap expected next)
      ∧ next ≤ output.sequence
  | .replaced frame =>
    stream.sequence < frame.sequence ∧ frame.sequence ≤ output.sequence
    ∧ ∃ expected next, stream.sent.getLast? = some (.gap expected next)
      ∧ next ≤ frame.sequence
  | .returned => output.closed = true
  | .raised => True

/-- A stream of an output: what it sent is in order and complete up to its sequence. -/
structure StreamSound (output : TmuxTerminalOutput) (stream : RawStream) : Prop where
  retained : Retained output
  ordered : Ordered stream.sent
  last : lastSent stream.sent = stream.sequence
  le : stream.sequence ≤ output.sequence
  complete : ∀ sequence, 0 < sequence → sequence ≤ stream.sequence
    → Delivered stream.sent sequence
  phase : PhaseSound output stream

theorem Delivered.snoc (h : Delivered sent sequence) (message : StreamMessage)
    : Delivered (sent ++ [message]) sequence := by
  rcases h with held | ⟨frame, member, less⟩
  · refine .inl ?_
    rw [sentSequences_snoc]
    exact List.mem_append_left _ held
  · exact .inr ⟨frame, member.imp (List.mem_append_left _) (List.mem_append_left _), less⟩

theorem delivered_snoc_self (carries : message.sequence? = some sequence)
    : Delivered (sent ++ [message]) sequence := by
  refine .inl ?_
  rw [sentSequences_snoc, carries]
  exact List.mem_append_right _ List.mem_cons_self

theorem Ordered.delivered_le (h : Ordered sent) (delivered : Delivered sent sequence)
    : sequence ≤ lastSent sent := by
  rcases delivered with held | ⟨frame, member, less⟩
  · exact h.le_lastSent held
  · have held : frame.sequence ∈ sentSequences sent := by
      rcases member with kept | kept
      · exact List.mem_filterMap.mpr ⟨_, kept, rfl⟩
      · exact List.mem_filterMap.mpr ⟨_, kept, rfl⟩
    exact Nat.le_trans (Nat.le_of_lt less) (h.le_lastSent held)

theorem Ahead.mono {output after : TmuxTerminalOutput}
    {updates : List TerminalOutputUpdate} (h : Ahead output sequence updates)
    (le : output.sequence ≤ after.sequence)
    : Ahead after sequence updates :=
  ⟨h.increasing, fun update member => Nat.le_trans (h.published update member) le⟩

/-- Publishing leaves a stream where it stands. -/
theorem PhaseSound.mono {output after : TmuxTerminalOutput} {stream : RawStream}
    (h : PhaseSound output stream) (le : output.sequence ≤ after.sequence)
    (closed : output.closed = true → after.closed = true)
    : PhaseSound after stream := by
  unfold PhaseSound at h ⊢
  split at h
  case h_1 => exact h
  case h_2 => exact h
  case h_3 =>
    obtain ⟨none_, settled, fresh, pos, below⟩ := h
    exact ⟨none_, settled, fresh, pos, Nat.le_trans below le⟩
  case h_4 =>
    obtain ⟨none_, pos, below, waits⟩ := h
    exact ⟨none_, pos, Nat.le_trans below le, waits⟩
  case h_5 => exact h
  case h_6 => exact h
  case h_7 => exact ⟨h.1, h.2.mono le⟩
  case h_8 =>
    obtain ⟨expected, next, waits, below⟩ := h
    exact ⟨expected, next, waits, Nat.le_trans below le⟩
  case h_9 => exact ⟨h.1, Nat.le_trans h.2.1 le, h.2.2⟩
  case h_10 => exact closed h
  case h_11 => trivial

theorem RawStream.advance_output {output after : TmuxTerminalOutput} {stream next : RawStream}
    (moved : stream.advance output = some (after, next))
    : after = output ∨ after = output.publishKeyframe := by
  unfold RawStream.advance at moved
  split at moved
  case h_2 =>
    cases moved
    exact .inr rfl
  case h_9 =>
    cases moved
    exact .inr rfl
  case h_5 => split at moved <;> cases moved <;> exact .inl rfl
  case h_6 => split at moved <;> cases moved <;> exact .inl rfl
  case h_8 => split at moved <;> cases moved <;> exact .inl rfl
  all_goals
    cases moved
    try exact .inl rfl

namespace StreamSound

variable {output after : TmuxTerminalOutput} {stream : RawStream}

theorem publish (h : StreamSound output stream) (retained : Retained after)
    (le : output.sequence ≤ after.sequence)
    (closed : output.closed = true → after.closed = true)
    : StreamSound after stream :=
  ⟨retained, h.ordered, h.last, Nat.le_trans h.le le, h.complete, h.phase.mono le closed⟩

/-- A step that sends nothing. -/
theorem move (h : StreamSound output stream) {phase : RawPhase}
    (sound : PhaseSound output { stream with phase := phase })
    : StreamSound output { stream with phase := phase } :=
  ⟨h.retained, h.ordered, h.last, h.le, h.complete, sound⟩

/-- A message without a sequence. -/
theorem send (h : StreamSound output stream) {phase : RawPhase}
    (bare : message.sequence? = none) (ordered : Ordered (stream.sent ++ [message]))
    (sound : PhaseSound output (stream.send message phase))
    : StreamSound output (stream.send message phase) where
  retained := h.retained
  ordered := ordered
  last := (lastSent_snoc_none bare).trans h.last
  le := h.le
  complete := fun sequence pos below => (h.complete sequence pos below).snoc message
  phase := sound

/-- A message that continues the stream's sequence or covers what lies below its own. -/
theorem deliver (h : StreamSound output stream) {phase : RawPhase}
    (carries : message.sequence? = some sequence)
    (ordered : Ordered (stream.sent ++ [message])) (le : sequence ≤ output.sequence)
    (covers
      : sequence = stream.sequence + 1
        ∨ ∃ frame, frame.sequence = sequence
            ∧ (message = .keyframe frame ∨ message = .resynced frame))
    (sound : PhaseSound output (stream.deliver message sequence phase))
    : StreamSound output (stream.deliver message sequence phase) where
  retained := h.retained
  ordered := ordered
  last := lastSent_snoc carries
  le := le
  complete := by
    intro other pos below
    have below : other ≤ sequence := below
    rcases Nat.lt_or_eq_of_le below with less | same
    · rcases covers with next | ⟨frame, same, carried⟩
      · exact (h.complete other pos (by rw [next] at less; omega)).snoc message
      · refine .inr ⟨frame, ?_, by rw [same]; exact less⟩
        rcases carried with rfl | rfl
        · exact .inl (List.mem_append_right _ List.mem_cons_self)
        · exact .inr (List.mem_append_right _ List.mem_cons_self)
    · rw [same]
      exact delivered_snoc_self carries
  phase := sound

theorem publishKeyframe (h : StreamSound output stream)
    : StreamSound output.publishKeyframe stream :=
  h.publish h.retained.publishKeyframe (Nat.le_succ _) id

/-- Every step of `_run_raw` leaves a sound stream, whatever it does to the output. -/
theorem advance (h : StreamSound output stream) {next : RawStream}
    (moved : stream.advance output = some (after, next))
    : StreamSound after next := by
  have sound := h.phase
  have last := h.last
  unfold RawStream.advance at moved
  unfold PhaseSound at sound
  split at moved
  case h_1 phase =>
    rw [phase] at sound
    have fresh : Settled stream.sent := by
      rw [sound]
      exact fun _ _ same => nomatch same
    cases moved
    split
    · exact h.move ⟨by rw [sound]; rfl, fresh⟩
    · refine h.send rfl (h.ordered.snoc_bare fresh rfl (fun _ _ same => nomatch same)) ⟨?_, ?_⟩
      · show sentSequences (stream.sent ++ [.attached]) = []
        rw [sound]
        rfl
      · exact settled_snoc (fun _ _ same => nomatch same)
  case h_2 phase =>
    rw [phase] at sound
    obtain ⟨none_, settled⟩ := sound
    cases moved
    refine h.publishKeyframe.move ?_
    by_cases resync : stream.resync = true
    · rw [if_pos resync]
      refine ⟨none_, Nat.succ_pos _, Nat.le_refl _, ?_⟩
      rw [if_pos resync]
      exact settled
    · rw [if_neg resync]
      exact ⟨none_, settled, Bool.eq_false_iff.mpr resync, Nat.succ_pos _, Nat.le_refl _⟩
  case h_3 frame phase =>
    rw [phase] at sound
    obtain ⟨none_, settled, fresh, pos, below⟩ := sound
    have zero := lastSent_of_none none_
    have gap := h.ordered.snoc_gap settled (show lastSent stream.sent < frame.sequence by omega)
    rw [zero] at gap
    cases moved
    refine h.send rfl gap ⟨?_, pos, below, ?_⟩
    · show sentSequences (stream.sent ++ [.gap 1 frame.sequence]) = []
      rw [sentSequences_snoc, none_]
      rfl
    · rw [show (stream.send (.gap 1 frame.sequence) (.presenting frame)).resync = false from fresh]
      exact List.getLast?_concat
  case h_4 frame phase =>
    rw [phase] at sound
    obtain ⟨none_, pos, below, waits⟩ := sound
    have zero := lastSent_of_none none_
    cases moved
    by_cases resync : stream.resync = true
    · rw [if_pos resync] at waits ⊢
      exact h.deliver rfl (h.ordered.snoc_first waits none_ rfl pos) below
        (.inr ⟨frame, rfl, .inr rfl⟩) (settled_snoc (fun _ _ same => nomatch same))
    · rw [if_neg resync] at waits ⊢
      exact h.deliver rfl (h.ordered.snoc_keyframe waits (Nat.le_refl _) (by omega)) below
        (.inr ⟨frame, rfl, .inl rfl⟩) (settled_snoc (fun _ _ same => nomatch same))
  case h_5 phase =>
    rw [phase] at sound
    split at moved
    · cases moved
      exact h.move sound
    · cases moved
      exact h.move ⟨sound, h.retained.updatesAfter _⟩
  case h_6 phase =>
    rw [phase] at sound
    split at moved
    · cases moved
    · next woken =>
        cases moved
        rcases h.retained.waitForUpdate woken with ⟨-, closed⟩ | ⟨update, clash, -⟩
        · exact h.move closed
        · cases clash
    · next update woken =>
        cases moved
        rcases h.retained.waitForUpdate woken with ⟨clash, -⟩ | ⟨other, same, ahead⟩
        · cases clash
        · cases same
          exact h.move ⟨sound, ahead⟩
  case h_7 phase =>
    rw [phase] at sound
    cases moved
    exact h.move sound.1
  case h_8 update rest phase =>
    rw [phase] at sound
    obtain ⟨settled, ahead⟩ := sound
    obtain ⟨above, increasing⟩ := List.pairwise_cons.mp ahead.increasing
    have below := ahead.published update List.mem_cons_self
    split at moved
    · cases moved
      have less := above update.sequence List.mem_cons_self
      have gap := h.ordered.snoc_gap settled (show lastSent stream.sent < update.sequence by omega)
      rw [last] at gap
      exact h.send rfl gap ⟨_, _, List.getLast?_concat, below⟩
    · next same =>
        have next := not_not.mp same
        cases moved
        have carries := sequence_messageOf update
        refine h.deliver carries (h.ordered.snoc_next settled ?_) below (.inl next) ⟨?_, ?_⟩
        · rw [carries, next, last]
        · exact settled_snoc (messageOf_ne_gap update)
        · exact ⟨increasing, fun other held => ahead.published other (.tail _ held)⟩
  case h_9 phase =>
    rw [phase] at sound
    obtain ⟨expected, other, waits, below⟩ := sound
    cases moved
    exact h.publishKeyframe.move ⟨Nat.lt_succ_of_le h.le, Nat.le_refl _, expected, other, waits,
      Nat.le_succ_of_le below⟩
  case h_10 frame phase =>
    rw [phase] at sound
    obtain ⟨above, below, expected, other, waits, le⟩ := sound
    cases moved
    exact h.deliver rfl (h.ordered.snoc_keyframe waits le (by omega)) below
      (.inr ⟨frame, rfl, .inl rfl⟩) (settled_snoc (fun _ _ same => nomatch same))
  case h_11 => cases moved
  case h_12 => cases moved

theorem returned (h : StreamSound output stream) {next : RawStream}
    (moved : stream.advance output = some (after, next)) (ended : next.phase = .returned)
    : stream.phase = .waiting ∧ output.closed = true ∧ next = { stream with phase := .returned }
      ∧ after = output := by
  unfold RawStream.advance at moved
  split at moved
  case h_6 phase =>
    split at moved
    · cases moved
    · next woken =>
        cases moved
        rcases h.retained.waitForUpdate woken with ⟨-, closed⟩ | ⟨update, clash, -⟩
        · exact ⟨phase, closed, rfl, rfl⟩
        · cases clash
    · cases moved
      cases ended
  case h_1 =>
    cases moved
    split at ended <;> cases ended
  case h_2 =>
    cases moved
    dsimp only at ended
    split at ended <;> cases ended
  case h_5 => split at moved <;> cases moved <;> cases ended
  case h_8 => split at moved <;> cases moved <;> cases ended
  all_goals
    cases moved
    try cases ended

end StreamSound

----------------------------------------
-- Runs
----------------------------------------

/-- What a stream owes its client in every state: order, announced jumps, nothing left out
so far, and nothing published before the close left out when it returns.
-/
structure StreamDelivers (system : StreamSystem) : Prop where
  ordered : Ordered system.stream.sent
  complete
    : ∀ sequence, 0 < sequence → sequence ≤ lastSent system.stream.sent
        → Delivered system.stream.sent sequence
  ended
    : system.stream.phase = .returned
        → system.output.closed = true
          ∧ ∀ sequence, 0 < sequence → sequence ≤ system.beforeClose
              → Delivered system.stream.sent sequence

/-- The stream waits on an output that published something new before it closed. -/
structure Overtaken (system : StreamSystem) : Prop where
  waiting : system.stream.phase = .waiting
  closed : system.output.closed = true
  unseen : system.stream.sequence < system.beforeClose

structure StreamSystem.Sound (system : StreamSystem) : Prop where
  stream : StreamSound system.output system.stream
  before : system.beforeClose ≤ system.output.sequence

/-- A stream that returned without its last updates. -/
structure Lost (system : StreamSystem) : Prop where
  returned : system.stream.phase = .returned
  unseen : system.stream.sequence < system.beforeClose

theorem StreamSystem.sound_of_start {system : StreamSystem} (h : StreamStart system)
    : system.Sound := by
  obtain ⟨emulator, resync, rfl⟩ := h
  refine ⟨⟨⟨Nat.le_refl _, rfl, fun some_ => absurd rfl some_⟩, ordered_nil, rfl, Nat.le_refl _,
    fun sequence pos below => ?_, rfl⟩, Nat.le_refl _⟩
  exact absurd below (Nat.not_le.mpr pos)

theorem StreamSystem.Sound.close {system : StreamSystem} (h : system.Sound)
    : system.close.Sound := by
  unfold StreamSystem.close
  split
  · exact h
  · have retained := h.stream.retained
    exact ⟨h.stream.publish ⟨retained.le, retained.numbered, retained.newest⟩ (Nat.le_refl _)
      (fun _ => rfl), Nat.le_refl _⟩

def Seen (system : StreamSystem) : Prop :=
  system.stream.phase = .returned → system.beforeClose ≤ system.stream.sequence

theorem StreamSystem.Sound.delivers {system : StreamSystem} (h : system.Sound)
    (seen : Seen system)
    : StreamDelivers system where
  ordered := h.stream.ordered
  complete := by
    rw [h.stream.last]
    exact h.stream.complete
  ended := by
    intro returned
    have sound := h.stream.phase
    unfold PhaseSound at sound
    rw [returned] at sound
    exact ⟨sound, fun sequence pos below =>
      h.stream.complete sequence pos (Nat.le_trans below (seen returned))⟩

/-- A stream that returned unseen updates never delivers them. -/
theorem StreamSystem.Sound.not_delivers {system : StreamSystem} (h : system.Sound)
    (lost : Lost system)
    : ¬ StreamDelivers system := by
  intro delivers
  have unseen := lost.unseen
  have delivered := (delivers.ended lost.returned).2 system.beforeClose (by omega) (Nat.le_refl _)
  have le := h.stream.ordered.delivered_le delivered
  rw [h.stream.last] at le
  omega

section Runs

variable [UnicodeData] {system next : StreamSystem} {event : StreamEvent}

theorem StreamSystem.Sound.step (h : system.Sound) (moved : StreamStep system event next)
    : next.Sound := by
  cases moved with
  | chunk published =>
    obtain ⟨retained, le, closed⟩ := h.stream.retained.publishChunk published
    exact ⟨h.stream.publish retained le (fun was => closed.trans was), Nat.le_trans h.before le⟩
  | keyframe => exact ⟨h.stream.publishKeyframe, Nat.le_succ_of_le h.before⟩
  | refuse partly refused =>
    have retained := h.close.stream.retained
    exact ⟨h.close.stream.publish ⟨retained.le, retained.numbered, retained.newest⟩
      (Nat.le_refl _) id, h.close.before⟩
  | close => exact h.close
  | advance moved =>
    refine ⟨h.stream.advance moved, Nat.le_trans h.before ?_⟩
    rcases RawStream.advance_output moved with rfl | rfl
    · exact Nat.le_refl _
    · exact Nat.le_succ _
  | drop running => exact ⟨h.stream.move trivial, h.before⟩

theorem StreamSystem.Sound.still (h : system.Sound) (moved : StreamStep system event next)
    (returned : system.stream.phase = .returned)
    : next.stream = system.stream ∧ next.beforeClose = system.beforeClose := by
  have closed : system.output.closed = true := by
    have sound := h.stream.phase
    unfold PhaseSound at sound
    rw [returned] at sound
    exact sound
  have again : system.close = system := if_pos closed
  cases moved with
  | chunk => exact ⟨rfl, rfl⟩
  | keyframe => exact ⟨rfl, rfl⟩
  | refuse => rw [again]; exact ⟨rfl, rfl⟩
  | close => rw [again]; exact ⟨rfl, rfl⟩
  | advance moved =>
    unfold RawStream.advance at moved
    rw [returned] at moved
    cases moved
  | drop running => exact absurd returned running

def CarefulStep (system : StreamSystem) (event : StreamEvent) (next : StreamSystem) : Prop :=
  StreamStep system event next ∧ ¬ (event = .advance ∧ Overtaken system)

theorem Seen.step (seen : Seen system) (h : system.Sound)
    (moved : CarefulStep system event next)
    : Seen next := by
  obtain ⟨moved, careful⟩ := moved
  intro returned
  by_cases already : system.stream.phase = .returned
  · obtain ⟨same, before⟩ := h.still moved already
    rw [same, before]
    exact seen already
  · cases moved with
    | chunk => exact absurd returned already
    | keyframe => exact absurd returned already
    | refuse =>
      unfold StreamSystem.close at returned
      split at returned <;> exact absurd returned already
    | close =>
      unfold StreamSystem.close at returned
      split at returned <;> exact absurd returned already
    | advance moved =>
      obtain ⟨waiting, closed, rfl, rfl⟩ := h.stream.returned moved returned
      by_contra unseen
      exact careful ⟨rfl, waiting, closed, Nat.lt_of_not_le unseen⟩
    | drop => cases returned

theorem Lost.step (lost : Lost system) (h : system.Sound) (moved : StreamStep system event next)
    : Lost next := by
  obtain ⟨same, before⟩ := h.still moved lost.returned
  refine ⟨by rw [same]; exact lost.returned, ?_⟩
  rw [same, before]
  exact lost.unseen

/-- An overtaken stream returns without what it did not see. -/
theorem Overtaken.lost (overtaken : Overtaken system) (moved : StreamStep system .advance next)
    : Lost next := by
  cases moved with
  | advance moved =>
    unfold RawStream.advance TmuxTerminalOutput.waitForUpdate at moved
    rw [overtaken.waiting] at moved
    dsimp only at moved
    rw [if_pos overtaken.closed] at moved
    cases moved
    exact ⟨rfl, overtaken.unseen⟩

/-- A run delivers exactly when its stream was never overtaken. -/
theorem careful_of_delivers {events : List StreamEvent}
    (steps : Steps StreamStep system events next) (h : system.Sound)
    (delivers : StreamDelivers next)
    : Steps CarefulStep system events next := by
  induction steps with
  | nil => exact .nil _
  | @cons start middle stop event rest first later ih =>
    refine .cons ⟨first, fun hasty => ?_⟩ (ih (h.step first) delivers)
    obtain ⟨rfl, overtaken⟩ := hasty
    have keeps : ∀ state event after, state.Sound ∧ Lost state
        → StreamStep state event after → after.Sound ∧ Lost after :=
      fun state event after kept moved => ⟨kept.1.step moved, kept.2.step kept.1 moved⟩
    have gone := later.invariant keeps ⟨h.step first, overtaken.lost first⟩
    exact gone.1.not_delivers gone.2 delivers

/-- In every interleaving the stream delivers exactly when it is never overtaken. -/
theorem streamDelivers_iff {events : List StreamEvent} {stop : StreamSystem}
    (run : Run StreamStart StreamStep events stop)
    : StreamDelivers stop ↔ Run StreamStart CarefulStep events stop := by
  constructor
  · intro delivers
    obtain ⟨start, initial, steps⟩ := run
    exact ⟨start, initial,
      careful_of_delivers steps (StreamSystem.sound_of_start initial) delivers⟩
  · intro careful
    have initially : ∀ state, StreamStart state → state.Sound ∧ Seen state := by
      intro state initial
      refine ⟨StreamSystem.sound_of_start initial, fun returned => ?_⟩
      obtain ⟨emulator, resync, rfl⟩ := initial
      cases returned
    have keeps : ∀ state event after, state.Sound ∧ Seen state
        → CarefulStep state event after → after.Sound ∧ Seen after :=
      fun state event after holds moved => ⟨holds.1.step moved.1, holds.2.step holds.1 moved⟩
    have kept := careful.invariant initially keeps
    exact kept.1.delivers kept.2

end Runs

----------------------------------------
-- A chunk before the close
----------------------------------------

namespace LastChunk

def emulator : VtEmulator where
  size := ⟨1, 1⟩
  buffer := blankBuffer ⟨1, 1⟩
  primaryState := (blankBuffer ⟨1, 1⟩).state
  alternateState := (blankBuffer ⟨1, 1⟩).state

abbrev tables : UnicodeData where
  combining := fun _ => 0
  eastAsianWidth := fun _ => .narrow

def waiting : StreamSystem where
  output := ({ emulator := emulator } : TmuxTerminalOutput).publishKeyframe
  stream := {
    resync := false
    phase := .waiting
    sequence := 1
    sent := [.attached, .gap 1 1, .keyframe ⟨1, emulator.snapshot⟩] }

def events : List StreamEvent := [.advance, .advance, .advance, .advance, .advance]

theorem careful_waiting : Run StreamStart (@CarefulStep tables) events waiting := by
  refine ⟨_, ⟨emulator, false, rfl⟩, ?_⟩
  have idle : ∀ {system : StreamSystem}, system.stream.phase ≠ .waiting
      → ¬ (StreamEvent.advance = .advance ∧ Overtaken system) :=
    fun apart hasty => apart hasty.2.waiting
  refine .cons ⟨@StreamStep.advance tables _ _ _ rfl, idle nofun⟩ ?_
  refine .cons ⟨@StreamStep.advance tables _ _ _ rfl, idle nofun⟩ ?_
  refine .cons ⟨@StreamStep.advance tables _ _ _ rfl, idle nofun⟩ ?_
  refine .cons ⟨@StreamStep.advance tables _ _ _ rfl, idle nofun⟩ ?_
  refine .cons ⟨@StreamStep.advance tables _ _ _ rfl, idle nofun⟩ ?_
  exact .nil _

theorem run_waiting : Run StreamStart (@StreamStep tables) events waiting := by
  obtain ⟨start, initial, steps⟩ := careful_waiting
  exact ⟨start, initial, steps.imp (fun _ _ _ moved => moved.1)⟩

/-- A stream that was not overtaken delivers. -/
theorem delivers_waiting : StreamDelivers waiting :=
  (@streamDelivers_iff tables _ _ run_waiting).mpr careful_waiting

/-- A chunk that is published between the last poll and the close is lost. -/
theorem chunk_before_close_lost
    : ¬ ∀ events stop, Run StreamStart (@StreamStep tables) events stop
          → StreamDelivers stop := by
  intro delivers
  obtain ⟨fed, returned⟩
    : ∃ fed, @VtEmulator.feed tables [0x41] waiting.output.emulator = .ok fed := by
    have succeeds : (@VtEmulator.feed tables [0x41] waiting.output.emulator).isOk = true := by
      decide +kernel
    cases same : @VtEmulator.feed tables [0x41] waiting.output.emulator with
    | error raised =>
      rw [same] at succeeds
      cases succeeds
    | ok fed => exact ⟨fed, rfl⟩
  have published : @TmuxTerminalOutput.publishChunk tables [0x41] waiting.output
      = .ok {
          emulator := fed
          sequence := 2
          updates := [.keyframe ⟨1, emulator.snapshot⟩, .chunk 2 [0x41]] } := by
    unfold TmuxTerminalOutput.publishChunk
    rw [if_neg (by decide)]
    exact except_bind_ok.mpr ⟨fed, returned, rfl⟩
  have closed := (run_waiting.snoc (@StreamStep.chunk tables _ _ _ published)).snoc
    (@StreamStep.close tables _)
  obtain ⟨stop, last⟩ : ∃ stop, @StreamStep tables (StreamSystem.close { waiting with output := {
      emulator := fed
      sequence := 2
      updates := [.keyframe ⟨1, emulator.snapshot⟩, .chunk 2 [0x41]] } }) .advance stop :=
    ⟨_, @StreamStep.advance tables _ _ _ rfl⟩
  have run := closed.snoc last
  have sound := run.invariant (fun _ initial => StreamSystem.sound_of_start initial)
    (fun _ _ _ held moved => @StreamSystem.Sound.step tables _ _ _ held moved)
  have lost := @Overtaken.lost tables _ _ ⟨rfl, rfl, Nat.lt_succ_self 1⟩ last
  exact sound.not_delivers lost (delivers _ _ run)

end LastChunk

end Murder.Terminal

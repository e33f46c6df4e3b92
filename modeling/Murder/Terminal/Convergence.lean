import Murder.Terminal.Keyframes
import Murder.Terminal.Published

/-! When a terminal client converges to the screen of its server.
It does as long as no re-created output hides behind an old sequence, and no chunk continues a
keyframe that was taken inside a sequence.
-/

namespace Murder.Terminal

open Library.Runs

----------------------------------------
-- Messages on their way
----------------------------------------

variable {log more : List Published} {sequence : Nat}

namespace Delivery

def sequence? (delivery : Delivery) : Option Nat := delivery.message.sequence?

/-- The last update received once this message is. -/
def next (position : Option (Nat × Nat)) (delivery : Delivery) : Option (Nat × Nat) :=
  match delivery.sequence? with
  | some sequence => some (delivery.generation, sequence)
  | none => position

/-- The update of a message was published by the output of its stream. -/
def Recorded (log : List Published) (delivery : Delivery) : Prop :=
  match delivery.message with
  | .attached => True
  | .gap _ _ => True
  | .chunk sequence data => Terminal.Recorded log delivery.generation (.chunk sequence data)
  | .keyframe frame => Terminal.Recorded log delivery.generation (.keyframe frame)
  | .resynced frame => Terminal.Recorded log delivery.generation (.keyframe frame)

/-- An update opens a stream or follows the last one of its output. -/
def Follows (position : Option (Nat × Nat)) (delivery : Delivery) : Prop :=
  ∀ sequence, delivery.sequence? = some sequence
    → delivery.opening = true
      ∨ ∃ before, position = some (delivery.generation, before) ∧ before < sequence

theorem Recorded.mono {delivery : Delivery} (recorded : delivery.Recorded log) (grown : log ⊆ more)
    : delivery.Recorded more := by
  unfold Recorded at recorded ⊢
  split at recorded
  · trivial
  · trivial
  · exact Terminal.Recorded.mono recorded grown
  · exact Terminal.Recorded.mono recorded grown
  · exact Terminal.Recorded.mono recorded grown

theorem Recorded.published {delivery : Delivery} (recorded : delivery.Recorded log)
    (same : delivery.sequence? = some sequence)
    : ∃ published ∈ log, published.generation = delivery.generation
        ∧ published.sequence = sequence := by
  unfold Recorded at recorded
  unfold sequence? StreamMessage.sequence? at same
  split at recorded
  · next message =>
      rw [message] at same
      cases same
  · next message =>
      rw [message] at same
      cases same
  all_goals
    next message =>
      rw [message] at same
      cases same
      obtain ⟨published, listed, own, update⟩ := recorded
      exact ⟨published, listed, own, congrArg (·.sequence) update⟩

end Delivery

def Threaded : Option (Nat × Nat) → List Delivery → Prop
  | _, [] => True
  | position, delivery :: rest => delivery.Follows position ∧ Threaded (delivery.next position) rest

def threadEnd (position : Option (Nat × Nat)) (inbox : List Delivery) : Option (Nat × Nat) :=
  inbox.foldl Delivery.next position

variable {position : Option (Nat × Nat)} {inbox : List Delivery}

theorem threaded_append {more : List Delivery}
    : Threaded position (inbox ++ more)
      ↔ Threaded position inbox ∧ Threaded (threadEnd position inbox) more := by
  induction inbox generalizing position with
  | nil => exact ⟨fun h => ⟨trivial, h⟩, fun h => h.2⟩
  | cons delivery rest ih =>
    simp only [List.cons_append, Threaded, ih, and_assoc]
    rfl

theorem threadEnd_recorded (recorded : ∀ delivery ∈ inbox, delivery.Recorded log)
    (arrived : ∀ generation sequence, position = some (generation, sequence)
      → ∃ published ∈ log, published.generation = generation ∧ published.sequence = sequence)
    {generation : Nat} (last : threadEnd position inbox = some (generation, sequence))
    : ∃ published ∈ log, published.generation = generation ∧ published.sequence = sequence := by
  induction inbox generalizing position with
  | nil => exact arrived generation sequence last
  | cons delivery rest ih =>
    refine ih (fun other member => recorded other (List.mem_cons_of_mem _ member)) ?_ last
    intro generation' sequence' same
    unfold Delivery.next at same
    split at same
    · next number carries =>
        cases same
        exact (recorded delivery List.mem_cons_self).published carries
    · exact arrived generation' sequence' same

----------------------------------------
-- Invariants
----------------------------------------

/-- A keyframe of an output that no message on its way and no client has reached. -/
structure Unreached (log : List Published) (inbox : List Delivery) (client : TerminalRegistration)
    (generation : Nat) (keyframe : TerminalKeyframe) : Prop where
  recorded : Recorded log generation (.keyframe keyframe)
  inbox
    : ∀ delivery ∈ inbox, delivery.generation = generation
        → ∀ sequence, delivery.sequence? = some sequence → sequence < keyframe.sequence
  client : client.generation = generation → client.lastSequence < keyframe.sequence

/-- The last update on its way. -/
def TerminalLink.Reached (link : TerminalLink) (generation sequence : Nat) : Prop :=
  threadEnd link.position link.inbox = some (generation, sequence)

def StreamHolds (log : List Published) (link : TerminalLink) (client : TerminalRegistration)
    (generation sequence : Nat)
    : RawPhase → Prop
  | .attaching => True
  | .opened => True
  | .gapping keyframe => Unreached log link.inbox client generation keyframe
  | .presenting keyframe => Unreached log link.inbox client generation keyframe
  | .polling => link.Reached generation sequence
  | .waiting => link.Reached generation sequence
  | .sending updates =>
    link.Reached generation sequence ∧ ∀ update ∈ updates, Recorded log generation update
  | .replacing => link.Reached generation sequence
  | .replaced keyframe =>
    link.Reached generation sequence ∧ sequence < keyframe.sequence
      ∧ Recorded log generation (.keyframe keyframe)
  | .returned => True
  | .raised => True

structure LinkSound (registry : TerminalOutputRegistry) (link : TerminalLink)
    (client : TerminalRegistration) : Prop where
  recorded : ∀ delivery ∈ link.inbox, delivery.Recorded registry.log
  arrived
    : ∀ generation sequence, link.position = some (generation, sequence)
        → ∃ published ∈ registry.log,
          published.generation = generation ∧ published.sequence = sequence
  threaded : Threaded link.position link.inbox
  fresh
    : link.inbox.Pairwise (fun before opening => opening.opening = true
        → before.generation = opening.generation
        → ∀ earlier later, before.sequence? = some earlier → opening.sequence? = some later
          → earlier < later)
  openings
    : ∀ opening ∈ link.inbox, opening.opening = true
        → ∃ frame, opening.message = .keyframe frame ∨ opening.message = .resynced frame
  above
    : ∀ opening ∈ link.inbox, opening.opening = true → opening.generation = client.generation
        → ∀ sequence, opening.sequence? = some sequence → client.lastSequence < sequence
  live
    : ∀ generation stream, link.stream = some (generation, stream)
        → generation < registry.created
  stream
    : ∀ generation stream, link.stream = some (generation, stream)
        → StreamHolds registry.log link client generation stream.sequence stream.phase

/-- What the client shows, and how far it is in the stream it reads. -/
structure ClientSound (log : List Published) (position : Option (Nat × Nat))
    (client : TerminalRegistration) : Prop where
  shows
    : 0 < client.lastSequence
        → ∃ published ∈ log, published.generation = client.generation
          ∧ published.sequence = client.lastSequence
          ∧ ∃ screen, client.screen = some screen
            ∧ screen.snapshot = published.emulator.snapshot
            ∧ (screen.parser = published.emulator.parser
              ∨ screen.parser = {} ∧ ∃ frame, published.update = .keyframe frame)
  synced
    : ∀ generation sequence, position = some (generation, sequence)
        → client.generation = generation ∧ 0 < client.lastSequence
          ∧ client.lastSequence ≤ sequence
          ∧ (client.suspended = false → client.lastSequence = sequence)

/-- A stream that did not send its first keyframe yet. -/
def RawStream.BeforeOpening (stream : RawStream) : Prop :=
  match stream.phase with
  | .attaching => True
  | .opened => True
  | .gapping _ => True
  | .presenting _ => True
  | _ => False

/-- A first keyframe will come: it is on its way, or was asked for. -/
def TerminalLink.Recovering (link : TerminalLink) : Prop :=
  link.requests ≠ [] ∨ link.starting ≠ none
  ∨ (∃ delivery ∈ link.inbox, delivery.opening = true)
  ∨ ∃ generation stream, link.stream = some (generation, stream) ∧ stream.BeforeOpening

/-- The server keeps sending. -/
def TerminalLink.Streaming (link : TerminalLink) : Prop :=
  ∃ generation stream, link.stream = some (generation, stream)
    ∧ stream.phase ≠ .returned ∧ stream.phase ≠ .raised

/-- A client that waits for a keyframe will get one. -/
def Recovers (link : TerminalLink) (client : TerminalRegistration) : Prop :=
  link.connected = true → link.Streaming → (client.suspended = true ∨ client.resyncPending = true)
    → link.Recovering

structure TerminalWorld.Sound [UnicodeData] (w : TerminalWorld) : Prop where
  registry : w.registry.Sound
  link : LinkSound w.registry w.link w.client
  client : ClientSound w.registry.log w.link.position w.client
  recovers : Recovers w.link w.client
  accepted : w.ignored = []

----------------------------------------
-- The stream
----------------------------------------

theorem RawStream.deliveries_same {generation : Nat} {stream next : RawStream}
    (quiet : next.sent = stream.sent)
    : stream.deliveries generation next = [] := by
  unfold deliveries
  rw [quiet, List.drop_length]
  rfl

theorem RawStream.deliveries_send {generation : Nat} {stream next : RawStream}
    {message : StreamMessage} (sends : next.sent = stream.sent ++ [message])
    : stream.deliveries generation next = [⟨generation, stream.opens, message⟩] := by
  unfold deliveries
  rw [sends, List.drop_left]
  rfl

variable {update : TerminalOutputUpdate}

section Links

variable {registry after : TerminalOutputRegistry} {link : TerminalLink}
  {client : TerminalRegistration} {generation : Nat} {stream next : RawStream}

theorem StreamHolds.mono {phase : RawPhase}
    (holds : StreamHolds log link client generation sequence phase) (grown : log ⊆ more)
    : StreamHolds more link client generation sequence phase := by
  cases phase with
  | gapping => exact ⟨holds.recorded.mono grown, holds.inbox, holds.client⟩
  | presenting => exact ⟨holds.recorded.mono grown, holds.inbox, holds.client⟩
  | sending => exact ⟨holds.1, fun update member => (holds.2 update member).mono grown⟩
  | replaced => exact ⟨holds.1, holds.2.1, holds.2.2.mono grown⟩
  | _ => exact holds

theorem ClientSound.mono (sound : ClientSound log position client) (grown : log ⊆ more)
    : ClientSound more position client where
  shows applied := by
    obtain ⟨published, listed, shown⟩ := sound.shows applied
    exact ⟨published, grown listed, shown⟩
  synced := sound.synced

theorem LinkSound.move (sound : LinkSound registry link client)
    (live : generation < registry.created)
    (holds : StreamHolds registry.log link client generation next.sequence next.phase)
    : LinkSound registry { link with stream := some (generation, next) } client where
  recorded := sound.recorded
  arrived := sound.arrived
  threaded := sound.threaded
  fresh := sound.fresh
  openings := sound.openings
  above := sound.above
  live := by
    intro generation' stream' same
    cases same
    exact live
  stream := by
    intro generation' stream' same
    cases same
    exact holds

/-- One more message on its way. -/
theorem LinkSound.send (sound : LinkSound registry link client) {delivery : Delivery}
    (recorded : delivery.Recorded registry.log)
    (follows : delivery.Follows (threadEnd link.position link.inbox))
    (fresh : delivery.opening = true → ∀ sequence, delivery.sequence? = some sequence
      → (∀ before ∈ link.inbox, before.generation = delivery.generation
          → ∀ earlier, before.sequence? = some earlier → earlier < sequence)
        ∧ (client.generation = delivery.generation → client.lastSequence < sequence))
    (opens : delivery.opening = true
      → ∃ frame, delivery.message = .keyframe frame ∨ delivery.message = .resynced frame)
    (live : generation < registry.created)
    (holds : StreamHolds registry.log { link with inbox := link.inbox ++ [delivery] } client
      generation next.sequence next.phase)
    : LinkSound registry
        { link with
          stream := some (generation, next)
          inbox := link.inbox ++ [delivery] } client where
  recorded := by
    intro other member
    rcases List.mem_append.mp member with old | new
    · exact sound.recorded other old
    · rw [List.mem_singleton.mp new]
      exact recorded
  arrived := sound.arrived
  threaded := threaded_append.mpr ⟨sound.threaded, follows, trivial⟩
  fresh := by
    refine List.pairwise_append.mpr ⟨sound.fresh, List.pairwise_singleton _ _, ?_⟩
    intro before member opening last opens own earlier later number number'
    cases List.mem_singleton.mp last
    exact (fresh opens later number').1 before member own earlier number
  openings := by
    intro opening member opening_
    rcases List.mem_append.mp member with old | new
    · exact sound.openings opening old opening_
    · cases List.mem_singleton.mp new
      exact opens opening_
  above := by
    intro opening member opens own sequence number
    rcases List.mem_append.mp member with old | new
    · exact sound.above opening old opens own sequence number
    · cases List.mem_singleton.mp new
      exact (fresh opens sequence number).2 own.symm
  live := by
    intro generation' stream' same
    cases same
    exact live
  stream := by
    intro generation' stream' same
    cases same
    exact holds

theorem threadEnd_snoc {delivery : Delivery}
    : threadEnd position (inbox ++ [delivery]) = delivery.next (threadEnd position inbox) := by
  unfold threadEnd
  rw [List.foldl_append]
  rfl

theorem recorded_messageOf {opening : Bool} (recorded : Recorded log generation update)
    : Delivery.Recorded log ⟨generation, opening, RawStream.messageOf update⟩ := by
  cases update with
  | chunk sequence data => exact recorded
  | keyframe frame => exact recorded

/-- What the stream polls was retained. -/
theorem TmuxTerminalOutput.mem_updatesAfter {output : TmuxTerminalOutput}
    (member : update ∈ output.updatesAfter sequence)
    : update ∈ output.updates := by
  unfold TmuxTerminalOutput.updatesAfter at member
  split at member
  · next first last _ newest =>
      split at member
      · rw [List.mem_singleton.mp member]
        exact List.mem_of_getLast? newest
      · exact (List.mem_filter.mp member).1
  · cases member

theorem TmuxTerminalOutput.mem_waitForUpdate {output : TmuxTerminalOutput}
    (woken : output.waitForUpdate sequence = some (some update))
    : update ∈ output.updates := by
  unfold TmuxTerminalOutput.waitForUpdate at woken
  split at woken
  · cases woken
  split at woken
  · exact List.mem_of_find?_eq_some (Option.some.inj woken)
  · cases woken

variable [UnicodeData]

/-- Publishers of any output do not touch the connection. -/
theorem LinkSound.mono (sound : LinkSound registry link client) (grown : registry.Grown after)
    : LinkSound after link client where
  recorded delivery member := (sound.recorded delivery member).mono grown.log
  arrived generation sequence same := by
    obtain ⟨published, listed, own⟩ := sound.arrived generation sequence same
    exact ⟨published, grown.log listed, own⟩
  threaded := sound.threaded
  fresh := sound.fresh
  openings := sound.openings
  above := sound.above
  live generation stream running :=
    Nat.lt_of_lt_of_le (sound.live generation stream running) grown.created
  stream generation stream running := (sound.stream generation stream running).mono grown.log

/-- A keyframe that is published now was reached by nobody. -/
theorem LinkSound.unreached (sound : LinkSound registry link client)
    (registered : registry.Sound) (shown : ClientSound registry.log link.position client)
    : Unreached (registry.publishKeyframe generation).log link.inbox client generation
        (registry.outputs generation).nextKeyframe where
  recorded := ⟨_, List.mem_append_right _ List.mem_cons_self, rfl, rfl⟩
  inbox := by
    intro delivery member own sequence number
    obtain ⟨published, listed, same, rfl⟩ := (sound.recorded delivery member).published number
    have bound := registered.below published listed
    rw [same, own] at bound
    exact Nat.lt_succ_of_le bound
  client := by
    intro own
    rcases Nat.eq_zero_or_pos client.lastSequence with zero | applied
    · rw [zero]
      exact Nat.succ_pos _
    · obtain ⟨published, listed, same, number, -⟩ := shown.shows applied
      have bound := registered.below published listed
      rw [same, own, number] at bound
      exact Nat.lt_succ_of_le bound

/-- What a stream has reached lies below its output. -/
theorem LinkSound.reached_le (sound : LinkSound registry link client) (registered : registry.Sound)
    (reached : link.Reached generation sequence)
    : sequence ≤ (registry.outputs generation).sequence := by
  obtain ⟨published, listed, rfl, rfl⟩ :=
    threadEnd_recorded sound.recorded sound.arrived reached
  exact registered.below published listed

/-- One step of the stream keeps the connection in order, case by case over its phases. -/
theorem LinkSound.advance (sound : LinkSound registry link client) (registered : registry.Sound)
    (shown : ClientSound registry.log link.position client)
    (running : link.stream = some (generation, stream)) {output : TmuxTerminalOutput}
    (moved : stream.advance (registry.outputs generation) = some (output, next))
    : LinkSound
        (if stream.publishes then registry.publishKeyframe generation else registry)
        { link with
          stream := some (generation, next)
          inbox := link.inbox ++ stream.deliveries generation next } client := by
  have live := sound.live generation stream running
  have holds := sound.stream generation stream running
  have grown := registered.grown_publishKeyframe live
  -- a silent step adds nothing to the inbox
  have silent : ∀ {registry' : TerminalOutputRegistry}, next.sent = stream.sent
      → LinkSound registry' { link with stream := some (generation, next) } client
      → LinkSound registry' { link with
          stream := some (generation, next)
          inbox := link.inbox ++ stream.deliveries generation next } client := by
    intro registry' same moves
    rw [RawStream.deliveries_same same, List.append_nil]
    exact moves
  unfold RawStream.advance at moved
  split at moved
  case h_1 phase =>
    rw [if_neg (by simp [RawStream.publishes, phase])]
    by_cases resync : stream.resync = true
    · rw [if_pos resync] at moved
      cases moved
      exact silent rfl (sound.move live trivial)
    · rw [if_neg resync] at moved
      cases moved
      rw [RawStream.deliveries_send rfl]
      have closed : stream.opens = false := by simp [RawStream.opens, phase]
      exact sound.send trivial nofun (by simp [closed]) (by simp [closed]) live trivial
  case h_2 phase =>
    rw [if_pos (by simp [RawStream.publishes, phase])]
    have unreached := @LinkSound.unreached registry link client generation _ sound registered shown
    dsimp only at moved
    by_cases resync : stream.resync = true
    · rw [if_pos resync] at moved
      cases moved
      exact silent rfl ((sound.mono grown).move live unreached)
    · rw [if_neg resync] at moved
      cases moved
      exact silent rfl ((sound.mono grown).move live unreached)
  case h_3 keyframe phase =>
    rw [if_neg (by simp [RawStream.publishes, phase])]
    rw [phase] at holds
    cases moved
    rw [RawStream.deliveries_send rfl]
    have closed : stream.opens = false := by simp [RawStream.opens, phase]
    refine sound.send trivial nofun (by simp [closed]) (by simp [closed]) live ?_
    refine ⟨holds.recorded, fun delivery member own sequence number => ?_, holds.client⟩
    rcases List.mem_append.mp member with old | new
    · exact holds.inbox delivery old own sequence number
    · rw [List.mem_singleton.mp new] at number
      cases number
  case h_4 keyframe phase =>
    rw [if_neg (by simp [RawStream.publishes, phase])]
    rw [phase] at holds
    have opens : stream.opens = true := by simp [RawStream.opens, phase]
    have sends : ∀ message : StreamMessage,
        (∃ frame, message = .keyframe frame ∨ message = .resynced frame)
        → message.sequence? = some keyframe.sequence
        → Delivery.Recorded registry.log ⟨generation, stream.opens, message⟩
        → LinkSound registry
            { link with
              stream := some (generation, stream.deliver message keyframe.sequence .polling)
              inbox := link.inbox ++ [⟨generation, stream.opens, message⟩] } client := by
      intro message frames number recorded
      refine sound.send recorded (fun _ _ => .inl opens) (fun _ sequence same => ?_)
        (fun _ => frames) live ?_
      · cases number.symm.trans same
        exact ⟨fun before member own earlier number' =>
          holds.inbox before member own earlier number', holds.client⟩
      · show threadEnd link.position (link.inbox ++ [_]) = _
        rw [threadEnd_snoc]
        unfold Delivery.next Delivery.sequence?
        rw [number]
        rfl
    dsimp only at moved
    by_cases resync : stream.resync = true
    · rw [if_pos resync] at moved
      cases moved
      rw [RawStream.deliveries_send rfl]
      exact sends _ ⟨keyframe, .inr rfl⟩ rfl holds.recorded
    · rw [if_neg resync] at moved
      cases moved
      rw [RawStream.deliveries_send rfl]
      exact sends _ ⟨keyframe, .inl rfl⟩ rfl holds.recorded
  case h_5 phase =>
    rw [if_neg (by simp [RawStream.publishes, phase])]
    rw [phase] at holds
    split at moved
    · cases moved
      exact silent rfl (sound.move live holds)
    · cases moved
      refine silent rfl (sound.move live ⟨holds, fun update member => ?_⟩)
      exact registered.retained generation live update
        (TmuxTerminalOutput.mem_updatesAfter member)
  case h_6 phase =>
    rw [if_neg (by simp [RawStream.publishes, phase])]
    rw [phase] at holds
    split at moved
    · cases moved
    · cases moved
      exact silent rfl (sound.move live trivial)
    · next update woken =>
        cases moved
        refine silent rfl (sound.move live ⟨holds, fun update' member => ?_⟩)
        rw [List.mem_singleton.mp member]
        exact registered.retained generation live update
          (TmuxTerminalOutput.mem_waitForUpdate woken)
  case h_7 phase =>
    rw [if_neg (by simp [RawStream.publishes, phase])]
    rw [phase] at holds
    cases moved
    exact silent rfl (sound.move live holds.1)
  case h_8 update rest phase =>
    rw [if_neg (by simp [RawStream.publishes, phase])]
    rw [phase] at holds
    obtain ⟨reached, recorded⟩ := holds
    have closed : stream.opens = false := by simp [RawStream.opens, phase]
    split at moved
    · cases moved
      rw [RawStream.deliveries_send rfl]
      refine sound.send trivial nofun (by simp [closed]) (by simp [closed]) live ?_
      show threadEnd link.position (link.inbox ++ [_]) = _
      rw [threadEnd_snoc]
      exact reached
    · next continues =>
        cases moved
        rw [RawStream.deliveries_send rfl]
        have number := sequence_messageOf update
        refine sound.send (recorded_messageOf (recorded update List.mem_cons_self))
          (fun sequence same => ?_) (by simp [closed]) (by simp [closed]) live
          ⟨?_, fun other member => ?_⟩
        · cases number.symm.trans same
          refine .inr ⟨_, reached, ?_⟩
          omega
        · show threadEnd link.position (link.inbox ++ [_]) = _
          rw [threadEnd_snoc]
          unfold Delivery.next Delivery.sequence?
          rw [number]
          rfl
        · exact recorded other (List.mem_cons_of_mem _ member)
  case h_9 phase =>
    rw [if_pos (by simp [RawStream.publishes, phase])]
    rw [phase] at holds
    have bound := sound.reached_le registered holds
    cases moved
    refine silent rfl ((sound.mono grown).move live ⟨holds, Nat.lt_succ_of_le bound, ?_⟩)
    exact ⟨_, List.mem_append_right _ List.mem_cons_self, rfl, rfl⟩
  case h_10 keyframe phase =>
    rw [if_neg (by simp [RawStream.publishes, phase])]
    rw [phase] at holds
    obtain ⟨reached, less, recorded⟩ := holds
    cases moved
    rw [RawStream.deliveries_send rfl]
    have closed : stream.opens = false := by simp [RawStream.opens, phase]
    refine sound.send recorded (fun sequence same => ?_) (by simp [closed]) (by simp [closed])
      live ?_
    · cases same
      exact .inr ⟨_, reached, less⟩
    · show threadEnd link.position (link.inbox ++ [_]) = _
      rw [threadEnd_snoc]
      rfl
  case h_11 => cases moved
  case h_12 => cases moved

end Links

/-- A stream before its first keyframe stays there or sends it. -/
theorem RawStream.BeforeOpening.advance {stream next : RawStream}
    (before : stream.BeforeOpening) {output after : TmuxTerminalOutput}
    (moved : stream.advance output = some (after, next)) (generation : Nat)
    : next.BeforeOpening
      ∨ ∃ delivery ∈ stream.deliveries generation next, delivery.opening = true := by
  unfold RawStream.BeforeOpening at before
  unfold RawStream.advance at moved
  split at moved
  case h_1 phase =>
    cases moved
    split
    · exact .inl trivial
    · exact .inl trivial
  case h_2 phase =>
    cases moved
    unfold RawStream.BeforeOpening
    dsimp only
    by_cases resync : stream.resync = true
    · rw [if_pos resync]
      exact .inl trivial
    · rw [if_neg resync]
      exact .inl trivial
  case h_3 phase =>
    cases moved
    exact .inl trivial
  case h_4 phase =>
    cases moved
    refine .inr ⟨_, by rw [deliveries_send rfl]; exact List.mem_cons_self, ?_⟩
    simp [RawStream.opens, phase]
  all_goals
    next phase =>
      rw [phase] at before
      exact before.elim

----------------------------------------
-- Received messages
----------------------------------------

/-- A connection on which nothing was sent. -/
theorem LinkSound.idle {registry : TerminalOutputRegistry} {link : TerminalLink}
    {client : TerminalRegistration} (empty : link.inbox = []) (unread : link.position = none)
    (quiet : link.stream = none)
    : LinkSound registry link client := by
  have none_ : ∀ {delivery : Delivery}, delivery ∉ link.inbox := by
    rw [empty]
    exact List.not_mem_nil
  refine ⟨fun _ member => absurd member none_, fun _ _ same => ?_, ?_, ?_,
    fun _ member => absurd member none_, fun _ member => absurd member none_,
    fun _ _ same => ?_, fun _ _ same => ?_⟩
  · rw [unread] at same
    cases same
  · rw [empty]
    trivial
  · rw [empty]
    exact .nil
  · rw [quiet] at same
    cases same
  · rw [quiet] at same
    cases same

/-- Asking for a resync changes nothing that was applied. -/
theorem TerminalRegistration.requestTerminalResync_spec (client : TerminalRegistration)
    : client.requestTerminalResync.1 = { client with resyncPending := true }
      ∧ (client.resyncPending = false → client.requestTerminalResync.2 = [.resync]) := by
  unfold TerminalRegistration.requestTerminalResync
  cases pending : client.resyncPending with
  | true =>
    rw [if_pos rfl]
    refine ⟨?_, nofun⟩
    rw [← pending]
  | false =>
    rw [if_neg Bool.false_ne_true]
    exact ⟨rfl, fun _ => rfl⟩

/-- Attaching asks the server for something, and applies nothing. -/
theorem TerminalRegistration.sendTerminalAttach_spec (client : TerminalRegistration)
    : client.sendTerminalAttach.2 ≠ []
      ∧ ∃ pending, client.sendTerminalAttach.1 = { client with resyncPending := pending } := by
  unfold sendTerminalAttach
  split
  · exact ⟨List.cons_ne_nil _ _, true, client.requestTerminalResync_spec.1⟩
  · exact ⟨List.cons_ne_nil _ _, client.resyncPending, rfl⟩

section Receiving

variable {registry : TerminalOutputRegistry} {link : TerminalLink}
  {client after : TerminalRegistration} {delivery : Delivery} {rest : List Delivery}

/-- A client that applied this message, or nothing. -/
def Applies (client after : TerminalRegistration) (delivery : Delivery) : Prop :=
  after.lastSequence = client.lastSequence ∧ after.generation = client.generation
  ∨ delivery.sequence? = some after.lastSequence ∧ after.generation = delivery.generation

/-- A received message leaves the connection in order, whether it is applied or not. -/
theorem LinkSound.receive (sound : LinkSound registry link client)
    (first : link.inbox = delivery :: rest) (applies : Applies client after delivery)
    (requests : List TerminalRequest)
    : LinkSound registry
        { link with
          requests := requests
          inbox := rest
          position := delivery.next link.position } after := by
  have listed : delivery ∈ link.inbox := first ▸ List.mem_cons_self
  have later : ∀ other ∈ rest, other ∈ link.inbox :=
    fun other member => first ▸ List.mem_cons_of_mem _ member
  have threaded := sound.threaded
  have fresh := sound.fresh
  rw [first] at threaded fresh
  obtain ⟨ahead, fresh⟩ := List.pairwise_cons.mp fresh
  have below : ∀ opening ∈ rest, opening.opening = true → opening.generation = after.generation
      → ∀ sequence, opening.sequence? = some sequence → after.lastSequence < sequence := by
    intro opening member opens own sequence number
    rcases applies with same | applied
    · rw [same.1]
      exact sound.above opening (later opening member) opens (own.trans same.2) sequence number
    · exact ahead opening member opens (applied.2.symm.trans own.symm) _ _ applied.1 number
  have unreached : ∀ {generation keyframe},
      Unreached registry.log link.inbox client generation keyframe
      → Unreached registry.log rest after generation keyframe := by
    intro generation keyframe holds
    refine ⟨holds.recorded, fun other member => holds.inbox other (later other member), ?_⟩
    intro own
    rcases applies with same | applied
    · rw [same.1]
      exact holds.client (same.2.symm.trans own)
    · exact holds.inbox delivery listed (applied.2.symm.trans own) _ applied.1
  have reached : ∀ {generation sequence}, link.Reached generation sequence
      → threadEnd (delivery.next link.position) rest = some (generation, sequence) := by
    intro generation sequence holds
    unfold TerminalLink.Reached at holds
    rw [first] at holds
    exact holds
  refine ⟨fun other member => sound.recorded other (later other member), ?_, threaded.2, fresh,
    fun other member => sound.openings other (later other member), below, sound.live, ?_⟩
  · intro generation sequence same
    unfold Delivery.next at same
    dsimp only at same
    split at same
    · next number carries =>
        cases same
        exact (sound.recorded delivery listed).published carries
    · exact sound.arrived generation sequence same
  · intro generation stream running
    have holds := sound.stream generation stream running
    cases phase : stream.phase with
    | gapping => rw [phase] at holds; exact unreached holds
    | presenting => rw [phase] at holds; exact unreached holds
    | polling => rw [phase] at holds; exact reached holds
    | waiting => rw [phase] at holds; exact reached holds
    | sending => rw [phase] at holds; exact ⟨reached holds.1, holds.2⟩
    | replacing => rw [phase] at holds; exact reached holds
    | replaced => rw [phase] at holds; exact ⟨reached holds.1, holds.2⟩
    | _ => trivial

/-- A first keyframe of another output lies above what the client applied, and no chunk
continues a keyframe that was taken inside a sequence.
-/
structure Careful (log : List Published) (client : TerminalRegistration) (delivery : Delivery)
    : Prop where
  opening
    : delivery.opening = true → delivery.generation ≠ client.generation
        → ∀ sequence, delivery.sequence? = some sequence → client.lastSequence < sequence
  chunk
    : ∀ sequence data, delivery.message = .chunk sequence data → client.suspended = false
        → ∀ published ∈ log, published.generation = client.generation
          → published.sequence = client.lastSequence
          → (∃ frame, published.update = .keyframe frame) → published.emulator.parser = {}

theorem LinkSound.above_applied (sound : LinkSound registry link client)
    (shown : ClientSound registry.log link.position client)
    (first : link.inbox = delivery :: rest) (careful : Careful registry.log client delivery)
    (number : delivery.sequence? = some sequence)
    : client.lastSequence < sequence := by
  have threaded := sound.threaded
  rw [first] at threaded
  rcases threaded.1 sequence number with opens | ⟨before, position, less⟩
  · by_cases own : delivery.generation = client.generation
    · exact sound.above delivery (first ▸ List.mem_cons_self) opens own sequence number
    · exact careful.opening opens own sequence number
  · exact Nat.lt_of_le_of_lt (shown.synced _ _ position).2.2.1 less

theorem VtEmulator.snapshot_ofSnapshot (emulator : VtEmulator)
    : (VtEmulator.ofSnapshot emulator.snapshot).snapshot = emulator.snapshot := by
  obtain ⟨⟨columns, rows⟩, buffer, modes, alternating, primary, alternate, parser⟩ := emulator
  cases alternating
  · rfl
  · rfl

theorem ClientSound.acceptKeyframe [UnicodeData] (registered : registry.Sound)
    {generation : Nat} {keyframe : TerminalKeyframe}
    (recorded : Recorded registry.log generation (.keyframe keyframe))
    (above : client.lastSequence < keyframe.sequence)
    : (client.acceptTerminalKeyframe generation keyframe).lastSequence = keyframe.sequence
      ∧ (client.acceptTerminalKeyframe generation keyframe).generation = generation
      ∧ (client.acceptTerminalKeyframe generation keyframe).suspended = false
      ∧ (client.acceptTerminalKeyframe generation keyframe).resyncPending = false
      ∧ ClientSound registry.log (some (generation, keyframe.sequence))
          (client.acceptTerminalKeyframe generation keyframe) := by
  unfold TerminalRegistration.acceptTerminalKeyframe
  rw [if_neg (Nat.not_le.mpr above)]
  refine ⟨rfl, rfl, rfl, rfl, fun _ => ?_, fun generation' sequence same => ?_⟩
  · obtain ⟨published, listed, own, update⟩ := recorded
    have shown := registered.keyframes published listed keyframe update
    refine ⟨published, listed, own, congrArg (·.sequence) update, _, rfl, ?_,
      .inr ⟨rfl, keyframe, update⟩⟩
    rw [shown]
    exact VtEmulator.snapshot_ofSnapshot _
  · cases same
    exact ⟨rfl, Nat.zero_lt_of_lt above, Nat.le_refl _, fun _ => rfl⟩

theorem ClientSound.suspend {next : Option (Nat × Nat)} (sound : ClientSound log position client)
    (later : ∀ generation sequence, next = some (generation, sequence)
      → ∃ before, position = some (generation, before) ∧ before ≤ sequence)
    : ClientSound log next { client with suspended := true, resyncPending := true } where
  shows := sound.shows
  synced := by
    intro generation sequence same
    obtain ⟨before, position, le⟩ := later generation sequence same
    obtain ⟨own, applied, bound, -⟩ := sound.synced generation before position
    exact ⟨own, applied, Nat.le_trans bound le, nofun⟩

/-- What a careful client does with a message. -/
structure Accepts (registry : TerminalOutputRegistry) (link : TerminalLink)
    (client : TerminalRegistration) (delivery : Delivery)
    (result : TerminalRegistration × List TerminalRequest) : Prop where
  applies : Applies client result.1 delivery
  sound : ClientSound registry.log (delivery.next link.position) result.1
  waits
    : result.1.suspended = true ∨ result.1.resyncPending = true
        → delivery.opening = false
          ∧ (client.suspended = true ∨ client.resyncPending = true ∨ result.2 ≠ [])

/-- A message behind which the client waits for a keyframe. -/
theorem ClientSound.accepts_suspended (shown : ClientSound registry.log link.position client)
    (closed : delivery.opening = false)
    (later : ∀ generation sequence, delivery.next link.position = some (generation, sequence)
      → ∃ before, link.position = some (generation, before) ∧ before ≤ sequence)
    : Accepts registry link client delivery
        (TerminalRegistration.requestTerminalResync { client with suspended := true }) := by
  obtain ⟨asked, sent⟩ :=
    TerminalRegistration.requestTerminalResync_spec { client with suspended := true }
  refine ⟨?_, ?_, fun _ => ⟨closed, ?_⟩⟩
  · rw [asked]
    exact .inl ⟨rfl, rfl⟩
  · rw [asked]
    exact shown.suspend later
  · by_cases pending : client.resyncPending = true
    · exact .inr (.inl pending)
    · rw [sent (by simpa using pending)]
      exact .inr (.inr (List.cons_ne_nil _ _))

variable [UnicodeData]

theorem LinkSound.accepts_keyframe (sound : LinkSound registry link client)
    (registered : registry.Sound) (shown : ClientSound registry.log link.position client)
    (first : link.inbox = delivery :: rest) (careful : Careful registry.log client delivery)
    {keyframe : TerminalKeyframe} (number : delivery.sequence? = some keyframe.sequence)
    (recorded : Recorded registry.log delivery.generation (.keyframe keyframe))
    : Accepts registry link client delivery
        (client.acceptTerminalKeyframe delivery.generation keyframe, []) := by
  have above := sound.above_applied shown first careful number
  obtain ⟨last, own, running, settled, after⟩ :=
    @ClientSound.acceptKeyframe registry client _ registered delivery.generation keyframe
      recorded above
  refine ⟨.inr ⟨last ▸ number, own⟩, ?_, fun waits => ?_⟩
  · unfold Delivery.next
    rw [number]
    exact after
  · rw [running, settled] at waits
    rcases waits with clash | clash
    · cases clash
    · cases clash

/-- A chunk that continues what the client shows. -/
theorem ClientSound.feed {position : Option (Nat × Nat)} (registered : registry.Sound)
    (shown : ClientSound registry.log position client)
    {generation : Nat} {data : List UInt8} (applied : 0 < client.lastSequence)
    (own : client.generation = generation)
    (recorded : Recorded registry.log generation (.chunk (client.lastSequence + 1) data))
    (rests : ∀ published ∈ registry.log, published.generation = client.generation
      → published.sequence = client.lastSequence
      → (∃ frame, published.update = .keyframe frame) → published.emulator.parser = {})
    : ∃ published ∈ registry.log, published.generation = generation
        ∧ published.sequence = client.lastSequence + 1
        ∧ ∃ screen, client.screen.bind (fun screen => (screen.feed data).toOption) = some screen
          ∧ screen.snapshot = published.emulator.snapshot
          ∧ screen.parser = published.emulator.parser := by
  obtain ⟨before, listed, same, number, screen, folded, snapshot, parser⟩ := shown.shows applied
  obtain ⟨published, later, own', update⟩ := recorded
  have fed := registered.chunks published later _ _ update before listed
    (same.trans (own.trans own'.symm)) (congrArg (· + 1) number)
  have retained : screen.parser = before.emulator.parser := by
    rcases parser with equal | ⟨fresh, keyframe⟩
    · exact equal
    · rw [fresh, rests before listed same number keyframe]
  have agree := (VtEmulator.alike_of_snapshot snapshot retained).feed data
  rw [fed] at agree
  cases reached : screen.feed data with
  | error raised =>
    rw [reached] at agree
    cases agree
  | ok next =>
    rw [reached] at agree
    cases agree with
    | ok alike =>
      refine ⟨published, later, own', congrArg (·.sequence) update, next, ?_,
        alike.snapshot, alike.parser⟩
      rw [folded, Option.bind_some, reached]
      rfl

theorem LinkSound.accepts_chunk (sound : LinkSound registry link client)
    (registered : registry.Sound) (shown : ClientSound registry.log link.position client)
    (first : link.inbox = delivery :: rest) (careful : Careful registry.log client delivery)
    {data : List UInt8} (message : delivery.message = .chunk sequence data)
    : Accepts registry link client delivery
        (client.acceptTerminalChunk delivery.generation sequence data) := by
  have number : delivery.sequence? = some sequence := by
    unfold Delivery.sequence?
    rw [message]
    rfl
  have closed : delivery.opening = false := by
    cases opens : delivery.opening with
    | false => rfl
    | true =>
      obtain ⟨frame, kind⟩ := sound.openings delivery (first ▸ List.mem_cons_self) opens
      rw [message] at kind
      rcases kind with clash | clash
      · cases clash
      · cases clash
  have threaded := sound.threaded
  rw [first] at threaded
  obtain ⟨before, position, less⟩ := (threaded.1 sequence number).resolve_left (by simp [closed])
  obtain ⟨own, applied, bound, level⟩ := shown.synced _ _ position
  have arrives : delivery.next link.position = some (delivery.generation, sequence) := by
    unfold Delivery.next
    rw [number]
  have later : ∀ generation reached, delivery.next link.position = some (generation, reached)
      → ∃ before, link.position = some (generation, before) ∧ before ≤ reached := by
    intro generation reached same
    cases arrives.symm.trans same
    exact ⟨before, position, Nat.le_of_lt less⟩
  unfold TerminalRegistration.acceptTerminalChunk
  by_cases waits : client.suspended = true
  · rw [if_pos (.inr waits)]
    refine ⟨.inl ⟨rfl, rfl⟩, ⟨shown.shows, ?_⟩, fun _ => ⟨closed, .inl waits⟩⟩
    intro generation reached same
    obtain ⟨before', position', le⟩ := later generation reached same
    obtain ⟨own', applied', bound', -⟩ := shown.synced _ _ position'
    refine ⟨own', applied', Nat.le_trans bound' le, fun running => ?_⟩
    rw [waits] at running
    cases running
  have running : client.suspended = false := by simpa using waits
  have last := level running
  rw [if_neg (by rw [running]; simp; omega)]
  split
  · exact shown.accepts_suspended closed later
  · next continues =>
      have continues := not_not.mp continues
      subst continues
      have recorded := sound.recorded delivery (first ▸ List.mem_cons_self)
      unfold Delivery.Recorded at recorded
      rw [message] at recorded
      obtain ⟨published, listed, same, reached, screen, folded, snapshot, parser⟩ :=
        shown.feed registered applied own recorded
          (careful.chunk _ data message running)
      refine ⟨.inr ⟨number, rfl⟩, ⟨fun _ => ?_, ?_⟩, fun pending => ⟨closed, ?_⟩⟩
      · exact ⟨published, listed, same, reached, screen, folded, snapshot, .inl parser⟩
      · intro generation reached same
        cases arrives.symm.trans same
        exact ⟨rfl, Nat.succ_pos _, Nat.le_refl _, fun _ => rfl⟩
      · rcases pending with suspended | pending
        · exact .inl suspended
        · exact .inr (.inl pending)

/-- Every message of the stream, one case per kind. -/
theorem LinkSound.accepts (sound : LinkSound registry link client)
    (registered : registry.Sound) (shown : ClientSound registry.log link.position client)
    (first : link.inbox = delivery :: rest) (careful : Careful registry.log client delivery)
    : Accepts registry link client delivery
        (client.dispatch delivery.generation delivery.message) := by
  have recorded := sound.recorded delivery (first ▸ List.mem_cons_self)
  have openings := sound.openings delivery (first ▸ List.mem_cons_self)
  have bare : delivery.sequence? = none → delivery.opening = false := by
    intro none_
    cases opens : delivery.opening with
    | false => rfl
    | true =>
      obtain ⟨frame, kind⟩ := openings opens
      unfold Delivery.sequence? at none_
      rcases kind with kind | kind
      · rw [kind] at none_
        cases none_
      · rw [kind] at none_
        cases none_
  have stays : delivery.sequence? = none → delivery.next link.position = link.position := by
    intro none_
    unfold Delivery.next
    rw [none_]
  unfold Delivery.Recorded at recorded
  cases message : delivery.message with
  | attached =>
    have none_ : delivery.sequence? = none := congrArg StreamMessage.sequence? message
    refine ⟨.inl ⟨rfl, rfl⟩, ?_, fun waits => ⟨bare none_, ?_⟩⟩
    · rw [stays none_]
      exact shown
    · rcases waits with suspended | pending
      · exact .inl suspended
      · exact .inr (.inl pending)
  | gap expected next =>
    have none_ : delivery.sequence? = none := congrArg StreamMessage.sequence? message
    refine shown.accepts_suspended (bare none_) (fun generation sequence same => ?_)
    rw [stays none_] at same
    exact ⟨sequence, same, Nat.le_refl _⟩
  | chunk sequence data => exact sound.accepts_chunk registered shown first careful message
  | keyframe frame =>
    rw [message] at recorded
    exact sound.accepts_keyframe registered shown first careful
      (congrArg StreamMessage.sequence? message) recorded
  | resynced frame =>
    rw [message] at recorded
    exact sound.accepts_keyframe registered shown first careful
      (congrArg StreamMessage.sequence? message) recorded

end Receiving

----------------------------------------
-- Steps
----------------------------------------

section Steps

variable [UnicodeData] {w : TerminalWorld}

namespace TerminalWorld.Sound

/-- Publishers and other openers do not touch the client. -/
theorem publish (sound : w.Sound) {registry : TerminalOutputRegistry}
    (grown : w.registry.Grown registry)
    : TerminalWorld.Sound { w with registry := registry } where
  registry := grown.sound
  link := sound.link.mono grown
  client := sound.client.mono grown.log
  recovers := sound.recovers
  accepted := sound.accepted

theorem disconnect (sound : w.Sound) : w.disconnect.Sound where
  registry := sound.registry
  link := .idle rfl rfl rfl
  client := ⟨sound.client.shows, nofun⟩
  recovers := nofun
  accepted := sound.accepted

theorem connect (sound : w.Sound) : w.connect.Sound := by
  have greeted : ClientSound w.registry.log none (w.client.hello w.serverId) := by
    refine ⟨?_, nofun⟩
    unfold TerminalRegistration.hello
    dsimp only
    split
    · exact fun applied => absurd applied (Nat.lt_irrefl 0)
    · exact sound.client.shows
  obtain ⟨asks, pending, attached⟩ :=
    (w.client.hello w.serverId).sendTerminalAttach_spec
  refine ⟨sound.registry, .idle rfl rfl rfl, ⟨?_, nofun⟩, fun _ _ _ => .inl asks,
    sound.accepted⟩
  show 0 < ((w.client.hello w.serverId).sendTerminalAttach.1).lastSequence → _
  intro applied
  have shown := greeted.shows (by rw [attached] at applied; exact applied)
  show ∃ published ∈ w.registry.log,
    published.generation = ((w.client.hello w.serverId).sendTerminalAttach.1).generation
    ∧ published.sequence = ((w.client.hello w.serverId).sendTerminalAttach.1).lastSequence
    ∧ ∃ screen, ((w.client.hello w.serverId).sendTerminalAttach.1).screen = some screen ∧ _
  rw [attached]
  exact shown

theorem serve (sound : w.Sound) {request : TerminalRequest} {rest : List TerminalRequest}
    : TerminalWorld.Sound { w with
        link := { w.link with
          requests := rest
          starting := some (request == .resync)
          stream := none } } where
  registry := sound.registry
  link := by
    have link := sound.link
    refine ⟨link.recorded, link.arrived, link.threaded, link.fresh, link.openings, link.above,
      fun _ _ same => ?_, fun _ _ same => ?_⟩
    · cases same
    · cases same
  client := sound.client
  recovers := fun _ _ _ => .inr (.inl (Option.some_ne_none _))
  accepted := sound.accepted

theorem begin_ (sound : w.Sound) {resync : Bool} (emulator : VtEmulator)
    : TerminalWorld.Sound { w with
        registry := (w.registry.open_ emulator).1
        link := { w.link with
          starting := none
          stream := some ((w.registry.open_ emulator).2, { resync := resync }) } } := by
  obtain ⟨grown, live⟩ := sound.registry.grown_open emulator
  have link := @LinkSound.move _ w.link w.client _ { resync := resync }
    (sound.link.mono grown) live trivial
  refine ⟨grown.sound, ?_, sound.client.mono grown.log, fun _ _ _ => ?_, sound.accepted⟩
  · exact ⟨link.recorded, link.arrived, link.threaded, link.fresh, link.openings, link.above,
      fun _ _ same => by cases same; exact live, fun _ _ same => by cases same; trivial⟩
  · exact .inr (.inr (.inr ⟨_, _, rfl, trivial⟩))

theorem fail (sound : w.Sound) {generation : Nat} {stream : RawStream}
    (running : w.link.stream = some (generation, stream))
    : TerminalWorld.Sound { w with
        link := { w.link with
          stream := some (generation, { stream with phase := .raised }) } } := by
  refine ⟨sound.registry, sound.link.move (sound.link.live _ _ running) trivial, sound.client,
    ?_, sound.accepted⟩
  intro _ streaming
  obtain ⟨generation', stream', same, -, going⟩ := streaming
  cases same
  exact absurd rfl going

theorem advance (sound : w.Sound) {generation : Nat} {stream next : RawStream}
    {output : TmuxTerminalOutput} (running : w.link.stream = some (generation, stream))
    (moved : stream.advance (w.registry.outputs generation) = some (output, next))
    : TerminalWorld.Sound { w with
        registry :=
          if stream.publishes then w.registry.publishKeyframe generation else w.registry
        link := { w.link with
          stream := some (generation, next)
          inbox := w.link.inbox ++ stream.deliveries generation next } } := by
  have grown : w.registry.Grown
      (if stream.publishes then w.registry.publishKeyframe generation else w.registry) := by
    split
    · exact sound.registry.grown_publishKeyframe (sound.link.live _ _ running)
    · exact sound.registry.grown_refl
  refine ⟨grown.sound, sound.link.advance sound.registry sound.client running moved,
    sound.client.mono grown.log, fun connected _ waits => ?_, sound.accepted⟩
  have streaming : w.link.Streaming := by
    refine ⟨generation, stream, running, fun ended => ?_, fun ended => ?_⟩
    · unfold RawStream.advance at moved
      rw [ended] at moved
      cases moved
    · unfold RawStream.advance at moved
      rw [ended] at moved
      cases moved
  rcases sound.recovers connected streaming waits with asked | starts | coming | before
  · exact .inl asked
  · exact .inr (.inl starts)
  · obtain ⟨delivery, member, opens⟩ := coming
    exact .inr (.inr (.inl ⟨delivery, List.mem_append_left _ member, opens⟩))
  · obtain ⟨generation', stream', same, before⟩ := before
    cases running.symm.trans same
    rcases before.advance moved generation with still | ⟨delivery, member, opens⟩
    · exact .inr (.inr (.inr ⟨generation, next, rfl, still⟩))
    · exact .inr (.inr (.inl ⟨delivery, List.mem_append_right _ member, opens⟩))

theorem receive (sound : w.Sound) {delivery : Delivery} {rest : List Delivery}
    (first : w.link.inbox = delivery :: rest)
    (careful : Careful w.registry.log w.client delivery)
    : (w.receive delivery rest).Sound := by
  have accepts := sound.link.accepts sound.registry sound.client first careful
  refine ⟨sound.registry,
    sound.link.receive first accepts.applies
      (w.link.requests ++ (w.client.dispatch delivery.generation delivery.message).2),
    accepts.sound, fun connected streaming waits => ?_, ?_⟩
  · obtain ⟨closed, waits⟩ := accepts.waits waits
    have before : (w.client.suspended = true ∨ w.client.resyncPending = true)
        ∨ (w.client.dispatch delivery.generation delivery.message).2 ≠ [] := or_assoc.mpr waits
    rcases before with waited | asks
    · rcases sound.recovers connected streaming waited with asked | starts | coming | opening
      · exact .inl (List.append_ne_nil_of_left_ne_nil asked _)
      · exact .inr (.inl starts)
      · obtain ⟨other, member, opens⟩ := coming
        rw [first] at member
        rcases List.mem_cons.mp member with same | later
        · rw [same, closed] at opens
          cases opens
        · exact .inr (.inr (.inl ⟨other, later, opens⟩))
      · exact .inr (.inr (.inr opening))
    · exact .inl (List.append_ne_nil_of_right_ne_nil _ asks)
  · show (if _ then _ else _) = []
    rw [if_neg, sound.accepted]
    intro ⟨_, below⟩
    cases number : delivery.sequence? with
    | none =>
      unfold Delivery.sequence? at number
      rw [number] at below
      cases below
    | some sequence =>
      have above := sound.link.above_applied sound.client first careful number
      unfold Delivery.sequence? at number
      rw [number] at below
      exact absurd (of_decide_eq_true below) (Nat.not_le.mpr above)

end TerminalWorld.Sound

def CarefulTerminalStep (w : TerminalWorld) (event : TerminalEvent) (next : TerminalWorld)
    : Prop :=
  TerminalStep w event next
  ∧ (event = .receive → ∀ delivery rest, w.link.inbox = delivery :: rest
    → Careful w.registry.log w.client delivery)

theorem TerminalWorld.Sound.step (sound : w.Sound) {event : TerminalEvent}
    {next : TerminalWorld} (step : CarefulTerminalStep w event next)
    : next.Sound := by
  obtain ⟨step, careful⟩ := step
  have registered := sound.registry
  cases step with
  | chunk live reading some_ published =>
    exact sound.publish
      ⟨registered.publishChunk live reading some_ published, List.subset_append_left _ _,
        Nat.le_refl _⟩
  | keyframe live => exact sound.publish (registered.grown_publishKeyframe live)
  | refuse partly live refused => exact sound.publish (registered.grown_closeOutput partly)
  | close live => exact sound.publish (registered.grown_closeOutput _)
  | open_ emulator => exact sound.publish (registered.grown_open emulator).1
  | replace emulator =>
    have removed := registered.grown_remove
    exact sound.publish (removed.trans (removed.sound.grown_create emulator))
  | remove => exact sound.publish registered.grown_remove
  | restart serverId =>
    have gone := sound.disconnect.publish
      ⟨registered.dropped, List.Subset.refl _, Nat.le_refl _⟩
    exact ⟨gone.registry, gone.link, gone.client, gone.recovers, gone.accepted⟩
  | disconnect => exact sound.disconnect
  | connect apart => exact sound.connect
  | serve asked => exact sound.serve
  | begin_ emulator starts => exact sound.begin_ emulator
  | advance running moved => exact sound.advance running moved
  | fail running => exact sound.fail running
  | receive first => exact sound.receive first (careful rfl _ _ first)

/-- A client that converges: it accepted every first keyframe, shows what its output had at the
last sequence it applied, has applied everything it received unless it waits for a keyframe,
and such a keyframe will come while the server keeps sending.
-/
structure Converges (w : TerminalWorld) : Prop where
  accepts : w.ignored = []
  shows
    : ∀ generation sequence, w.link.position = some (generation, sequence)
        → w.client.generation = generation
          ∧ ∃ published ∈ w.registry.log, published.generation = generation
            ∧ published.sequence = w.client.lastSequence
            ∧ ∃ screen, w.client.screen = some screen
              ∧ screen.snapshot = published.emulator.snapshot
  current
    : ∀ generation sequence, w.link.position = some (generation, sequence)
        → w.client.suspended = false → w.client.lastSequence = sequence
  recovers
    : w.link.connected = true → w.link.Streaming → w.client.suspended = true
        → w.link.Recovering

theorem TerminalWorld.Sound.converges (sound : w.Sound) : Converges w where
  accepts := sound.accepted
  shows := by
    intro generation sequence position
    obtain ⟨own, applied, -⟩ := sound.client.synced generation sequence position
    obtain ⟨published, listed, same, number, screen, folded, snapshot, -⟩ :=
      sound.client.shows applied
    exact ⟨own, published, listed, same.trans own, number, screen, folded, snapshot⟩
  current generation sequence position :=
    (sound.client.synced generation sequence position).2.2.2
  recovers connected streaming suspended :=
    sound.recovers connected streaming (.inl suspended)

theorem TerminalWorld.sound_of_start (start : TerminalStart w) : w.Sound := by
  obtain ⟨outputs, serverId, rfl⟩ := start
  refine ⟨⟨?_, ?_, ?_, nofun, ?_, ?_, ?_, ?_⟩, .idle rfl rfl rfl,
    ⟨fun applied => absurd applied (Nat.lt_irrefl 0), nofun⟩, nofun, rfl⟩
  · exact fun _ member => absurd member List.not_mem_nil
  · exact fun _ member => absurd member List.not_mem_nil
  · exact fun _ member => absurd member List.not_mem_nil
  · exact fun _ below => absurd below (Nat.not_lt_zero _)
  · exact fun _ member => absurd member List.not_mem_nil
  · exact fun _ member => absurd member List.not_mem_nil
  · exact fun _ member => absurd member List.not_mem_nil

/-- A client converges in every state of a run that gives it no first keyframe of another
output below what it applied, and no chunk behind a keyframe taken inside a sequence.
-/
theorem converges_of_careful {events : List TerminalEvent}
    (run : Run TerminalStart CarefulTerminalStep events w)
    : Converges w :=
  (run.invariant (fun _ start => TerminalWorld.sound_of_start start)
    (fun _ _ _ sound step => sound.step step)).converges

end Steps

----------------------------------------
-- A re-created output
----------------------------------------

namespace Recreated

/-- A message of the output the client counts from, which is no chunk. -/
def plain (w : TerminalWorld) : Bool :=
  match w.link.inbox with
  | ⟨_, _, .chunk _ _⟩ :: _ => false
  | delivery :: _ => delivery.generation = w.client.generation
  | [] => false

/-- A plain message is received with care. -/
theorem careful_of_plain {w : TerminalWorld} {delivery : Delivery} {rest : List Delivery}
    (checked : plain w = true) (first : w.link.inbox = delivery :: rest)
    : Careful w.registry.log w.client delivery := by
  unfold plain at checked
  rw [first] at checked
  obtain ⟨generation, opening, message⟩ := delivery
  cases message with
  | chunk => cases checked
  | _ =>
    have own : generation = w.client.generation := of_decide_eq_true checked
    exact ⟨fun _ other => absurd own other, fun _ _ clash => nomatch clash⟩

section Performing

variable [UnicodeData]

/-- The steps of this run; where `checked`, only plain messages are received. -/
def perform (checked : Bool) (w : TerminalWorld) : TerminalEvent → Option TerminalWorld
  | .close generation =>
    if generation < w.registry.created then
      some { w with registry := w.registry.close generation }
    else
      none
  | .disconnect => some w.disconnect
  | .connect => if w.link.connected = false then some w.connect else none
  | .serve =>
    match w.link.requests with
    | request :: rest =>
      some { w with
        link := { w.link with
          requests := rest
          starting := some (request == .resync)
          stream := none } }
    | [] => none
  | .begin_ emulator =>
    w.link.starting.map (fun resync =>
      { w with
        registry := (w.registry.open_ emulator).1
        link := { w.link with
          starting := none
          stream := some ((w.registry.open_ emulator).2, { resync := resync }) } })
  | .advance =>
    w.link.stream.bind (fun (generation, stream) =>
      (stream.advance (w.registry.outputs generation)).map (fun (_, next) =>
        { w with
          registry :=
            if stream.publishes then w.registry.publishKeyframe generation else w.registry
          link := { w.link with
            stream := some (generation, next)
            inbox := w.link.inbox ++ stream.deliveries generation next } }))
  | .receive =>
    match w.link.inbox with
    | delivery :: rest =>
      if checked = false ∨ plain w then
        some (w.receive delivery rest)
      else
        none
    | [] => none
  | _ => none

theorem perform_step {checked : Bool} {w next : TerminalWorld} {event : TerminalEvent}
    (performed : perform checked w event = some next)
    : TerminalStep w event next := by
  cases event with
  | close generation =>
    dsimp only [perform] at performed
    split at performed
    · next live =>
        cases performed
        exact .close live
    · cases performed
  | disconnect =>
    cases performed
    exact .disconnect
  | connect =>
    dsimp only [perform] at performed
    split at performed
    · next apart =>
        cases performed
        exact .connect apart
    · cases performed
  | serve =>
    dsimp only [perform] at performed
    split at performed
    · next asked =>
        cases performed
        exact .serve asked
    · cases performed
  | begin_ emulator =>
    obtain ⟨resync, starts, rfl⟩ := Option.map_eq_some_iff.mp performed
    exact .begin_ emulator starts
  | advance =>
    obtain ⟨⟨generation, stream⟩, running, moves⟩ := Option.bind_eq_some_iff.mp performed
    obtain ⟨⟨output, after⟩, moved, rfl⟩ := Option.map_eq_some_iff.mp moves
    exact .advance running moved
  | receive =>
    dsimp only [perform] at performed
    split at performed
    · next first =>
        split at performed
        · cases performed
          exact .receive first
        · cases performed
    · cases performed
  | _ => cases performed

theorem steps_of_perform {checked : Bool} {events : List TerminalEvent} {w next : TerminalWorld}
    (performed : events.foldlM (perform checked) w = some next)
    : Steps TerminalStep w events next := by
  induction events generalizing w with
  | nil =>
    cases performed
    exact .nil _
  | cons event rest ih =>
    obtain ⟨middle, first, later⟩ := Option.bind_eq_some_iff.mp performed
    exact .cons (perform_step first) (ih later)

theorem plain_of_perform {w next : TerminalWorld}
    (performed : perform true w .receive = some next)
    : plain w = true := by
  dsimp only [perform] at performed
  split at performed
  · split at performed
    · next checked => exact checked.resolve_left nofun
    · cases performed
  · cases performed

theorem careful_of_perform {events : List TerminalEvent} {w next : TerminalWorld}
    (performed : events.foldlM (perform true) w = some next)
    : Steps CarefulTerminalStep w events next := by
  induction events generalizing w with
  | nil =>
    cases performed
    exact .nil _
  | cons event rest ih =>
    obtain ⟨middle, first, later⟩ := Option.bind_eq_some_iff.mp performed
    refine .cons ⟨perform_step first, fun received delivery others inbox => ?_⟩ (ih later)
    subst received
    exact careful_of_plain (plain_of_perform first) inbox

end Performing

/-- The client attaches and receives its first keyframe. -/
def attached : List TerminalEvent :=
  [.connect, .serve, .begin_ LastChunk.emulator, .advance, .advance, .advance, .advance,
    .receive, .receive, .receive]

/-- The output closes, the client connects again, and a new output is opened for it. -/
def reattached : List TerminalEvent :=
  [.close 0, .disconnect, .connect, .serve, .begin_ LastChunk.emulator, .advance, .advance,
    .advance, .advance, .receive, .receive, .receive]

def start : TerminalWorld where
  registry := ⟨fun _ => { emulator := LastChunk.emulator }, 0, none, []⟩
  serverId := 1

theorem attaches : (attached.foldlM (@perform LastChunk.tables true) start).isSome = true := by
  decide +kernel

/-- An attached client converges. -/
theorem converges_attached
    : ∃ w, Run TerminalStart (@CarefulTerminalStep LastChunk.tables) attached w ∧ Converges w := by
  obtain ⟨w, performed⟩ := Option.isSome_iff_exists.mp attaches
  have run : Run TerminalStart (@CarefulTerminalStep LastChunk.tables) attached w :=
    ⟨start, ⟨_, _, rfl⟩, @careful_of_perform LastChunk.tables _ _ _ performed⟩
  exact ⟨w, run, @converges_of_careful LastChunk.tables w attached run⟩

theorem ignores
    : ((attached ++ reattached).foldlM (@perform LastChunk.tables false) start).any
        (fun w => w.ignored.length = 1) = true := by
  decide +kernel

/-- The first keyframe of the new output is ignored. -/
theorem ignores_new_output
    : ¬ ∀ events w, Run TerminalStart (@TerminalStep LastChunk.tables) events w → Converges w := by
  intro converges
  have ignored := ignores
  cases performed
    : (attached ++ reattached).foldlM (@perform LastChunk.tables false) start with
  | none =>
    rw [performed] at ignored
    cases ignored
  | some w =>
    rw [performed] at ignored
    have accepts := (converges _ w
      ⟨start, ⟨_, _, rfl⟩, @steps_of_perform LastChunk.tables _ _ _ _ performed⟩).accepts
    have one : w.ignored.length = 1 := of_decide_eq_true ignored
    rw [accepts] at one
    cases one

end Recreated

end Murder.Terminal

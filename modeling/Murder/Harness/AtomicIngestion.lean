import Murder.Harness.Ingestion

/-! The ingestion of frames is atomic exactly where nothing fails behind the point at which a frame
joins the history, and nobody looks before it is published.
-/

namespace Murder.Harness

open Library.Runs

variable {Payload Value : Type}

/-- The two controllers expose the same snapshot, evidence and latest frame. -/
structure SameTruth (before after : HarnessController Payload Value) : Prop where
  snapshot : after.observations.snapshot = before.observations.snapshot
  evidence : after.evidence = before.evidence
  frame : after.latestFrame = before.latestFrame
  frameEvidence : after.latestFrameEvidence = before.latestFrameEvidence

/-- The snapshot is the one of this frame. -/
structure ExposedSnapshot.IsOf (snapshot : ExposedSnapshot Value) (frame : TerminalFrame)
    : Prop where
  paneEpoch : snapshot.revision.paneEpoch = frame.paneEpoch
  captureSequence : snapshot.revision.captureSequence = frame.captureSequence
  capturedAt : snapshot.capturedAt = frame.capturedAt

def IngestAnswer.Coherent : IngestAnswer Payload Value → Prop
  | .read source (some bundle) =>
    source = some (bundle.frame, bundle.evidence) ∧ bundle.snapshot.IsOf bundle.frame
  | .read _ none | .returned _ | .raised _ _ => True

/-- A call that raised left the controller as it was. -/
def IngestAnswer.Restored : IngestAnswer Payload Value → Prop
  | .raised before after => SameTruth before after
  | .read _ _ | .returned _ => True

/-- The exposed snapshots have increasing revisions, the last of them the current one. -/
structure ExposedInOrder (store : ObservationStore Value) : Prop where
  current : ∃ earlier, store.history = earlier ++ [store.snapshot]
  increasing : store.history.Pairwise (fun earlier later => earlier.revision < later.revision)

/-- What was visible of the ingestion so far. -/
structure AtomicIngestion (state : Ingesting Payload Value) : Prop where
  ordered : ExposedInOrder state.controller.observations
  coherent : ∀ answer ∈ state.answers, answer.Coherent
  restored : ∀ answer ∈ state.answers, answer.Restored

def JournalWrite.applied : JournalWrite Payload → Bool
  | .recordFrame _ | .recordEvidence _ _ => false
  | .recordSnapshot _ _ | .recordDelta _ _ => true

/-- No call is between applying and publishing its frame. -/
def Ingesting.Settled (state : Ingesting Payload Value) : Prop :=
  ∀ call, state.call = some call → call.awaits.applied = false

/-- A journal write raises only while nothing is applied, a projection only while nothing new was
parsed, and a bundle is read only while nothing is applied or before the first frame.
-/
def CarefulIngest (state : Ingesting Payload Value) : IngestEvent Payload Value → Prop
  | .begin _ => True
  | .writeRaises => state.Settled
  | .writeReturns answer =>
    ∀ before frame evidence, state.call = some ⟨before, .recordEvidence frame evidence⟩
      → frame.newer state.controller.observations.snapshot.revision = true
      → answer.projected = none
      → ∀ envelope ∈ evidence,
          envelope.evidenceId ∈ state.controller.evidence.map (·.evidenceId)
  | .readBundle => state.Settled ∨ state.controller.latestFrame = none

section Revisions

variable {frame : TerminalFrame} {revision later : ObservationRevision}

theorem newer_iff
    : frame.newer revision = true
      ↔ revision.paneEpoch < frame.paneEpoch
        ∨ revision.paneEpoch = frame.paneEpoch
          ∧ revision.captureSequence < frame.captureSequence := by
  simp [TerminalFrame.newer]

theorem ObservationRevision.lt_iff (a b : ObservationRevision)
    : a < b
      ↔ a.paneEpoch < b.paneEpoch
        ∨ a.paneEpoch = b.paneEpoch
          ∧ (a.captureSequence < b.captureSequence
            ∨ a.captureSequence = b.captureSequence
              ∧ a.semanticSequence < b.semanticSequence) :=
  Iff.rfl

theorem newer_later (old : frame.newer revision = false) (behind : revision < later)
    : frame.newer later = false := by
  rw [← Bool.not_eq_true, newer_iff] at old ⊢
  rw [ObservationRevision.lt_iff] at behind
  omega

theorem lt_of_newer (newer : frame.newer revision = true) (semantic : Nat)
    : revision < ⟨frame.paneEpoch, frame.captureSequence, semantic⟩ := by
  rw [newer_iff] at newer
  rw [ObservationRevision.lt_iff]
  dsimp only
  omega

theorem not_newer_self (frame : TerminalFrame) (semantic : Nat)
    : frame.newer ⟨frame.paneEpoch, frame.captureSequence, semantic⟩ = false := by
  rw [← Bool.not_eq_true, newer_iff]
  dsimp only
  omega

theorem ObservationRevision.lt_trans' {a b c : ObservationRevision} (first : a < b)
    (second : b < c)
    : a < c := by
  rw [ObservationRevision.lt_iff] at *
  omega

end Revisions

/-- What is parsed again leaves the history as it is. -/
theorem EvidenceHistory.append_eq_iff {history : EvidenceHistory Payload}
    {envelopes : List (EvidenceEnvelope Payload)}
    : history.append envelopes = history
      ↔ ∀ envelope ∈ envelopes, envelope.evidenceId ∈ history.map (·.evidenceId) := by
  rw [EvidenceHistory.append, List.append_right_eq_self, List.filter_eq_nil_iff]
  simp only [Bool.not_eq_true', Bool.not_eq_false, List.contains_iff_mem]

/-- A frame that is applied and not published yet. -/
structure Applied (controller before : HarnessController Payload Value)
    (source : Option (TerminalFrame × List (EvidenceEnvelope Payload)))
    (frame : TerminalFrame) (evidence : List (EvidenceEnvelope Payload))
    : Prop where
  source : source = some (frame, evidence)
  newer : frame.newer before.observations.snapshot.revision = true
  later
    : before.observations.snapshot.revision
      < controller.observations.snapshot.revision
  latest : controller.latestFrame = before.latestFrame
  behind
    : ∀ published, before.latestFrame = some published
      → published.newer before.observations.snapshot.revision = false

/-- What the holder of the lock found and did so far. -/
def CallSound (controller : HarnessController Payload Value)
    (source : Option (TerminalFrame × List (EvidenceEnvelope Payload)))
    (call : IngestCall Payload Value)
    : Prop :=
  match call.awaits with
  | .recordFrame _ | .recordEvidence _ _ => controller = call.before
  | .recordSnapshot frame evidence | .recordDelta frame evidence =>
    Applied controller call.before source frame evidence

structure IngestSound (state : Ingesting Payload Value) : Prop where
  ordered : ExposedInOrder state.controller.observations
  behind
    : ∀ frame, state.controller.latestFrame = some frame
      → frame.newer state.controller.observations.snapshot.revision = false
  sourced
    : ∀ frame evidence, state.source = some (frame, evidence)
      → state.controller.observations.snapshot.IsOf frame
  calling : ∀ call, state.call = some call → CallSound state.controller state.source call
  published
    : (∀ answer ∈ state.answers, answer.Restored) → state.Settled
      → ∀ frame, state.controller.latestFrame = some frame
      → state.source = some (frame, state.controller.latestFrameEvidence)

variable {next : Ingesting Payload Value}

section States

variable {state : Ingesting Payload Value} {call : IngestCall Payload Value}
  {before : HarnessController Payload Value} {frame : TerminalFrame}
  {evidence : List (EvidenceEnvelope Payload)} {answer : IngestAnswer Payload Value}

theorem ingestSound_of_fresh (fresh : IngestFresh state)
    : AtomicIngestion state ∧ IngestSound state := by
  obtain ⟨initial, evidence, rfl⟩ := fresh
  have ordered : ExposedInOrder (ObservationStore.ofInitial initial) :=
    ⟨⟨[], rfl⟩, List.pairwise_singleton _ _⟩
  exact ⟨⟨ordered, nofun, nofun⟩, ordered, nofun, nofun, nofun, fun _ _ => nofun⟩

/-- A call is settled exactly when what it waits for comes before the frame is applied. -/
theorem settled_iff (holds : state.call = some call)
    : state.Settled ↔ call.awaits.applied = false := by
  simp [Ingesting.Settled, holds]

/-- A call that applied its frame cannot raise without a trace. -/
theorem CallSound.same_iff {controller : HarnessController Payload Value}
    {source : Option (TerminalFrame × List (EvidenceEnvelope Payload))}
    (sound : CallSound controller source call)
    : SameTruth call.before controller ↔ call.awaits.applied = false := by
  obtain ⟨before, awaits⟩ := call
  have spared : controller = before → SameTruth before controller :=
    fun same => same ▸ ⟨rfl, rfl, rfl, rfl⟩
  have touched : before.observations.snapshot.revision
      < controller.observations.snapshot.revision
      → ¬ SameTruth before controller := by
    intro later same
    rw [same.snapshot, ObservationRevision.lt_iff] at later
    omega
  cases awaits with
  | recordFrame | recordEvidence => exact iff_of_true (spared sound) rfl
  | recordSnapshot | recordDelta =>
    exact iff_of_false (touched sound.later) (by simp [JournalWrite.applied])

theorem AtomicIngestion.answer_iff
    (atomic : AtomicIngestion state) (ordered : ExposedInOrder next.controller.observations)
    (answers : next.answers = state.answers ++ [answer])
    : AtomicIngestion next ↔ answer.Coherent ∧ answer.Restored := by
  constructor
  · intro after
    have member : answer ∈ next.answers := by simp [answers]
    exact ⟨after.coherent _ member, after.restored _ member⟩
  · intro ⟨coherent, restored⟩
    refine ⟨ordered, ?_, ?_⟩
    · rw [answers, List.forall_mem_append]
      exact ⟨atomic.coherent, by simpa using coherent⟩
    · rw [answers, List.forall_mem_append]
      exact ⟨atomic.restored, by simpa using restored⟩

/-- A step that neither applies nor publishes a frame. -/
theorem IngestSound.transfer (sound : IngestSound state)
    (observations : next.controller.observations = state.controller.observations)
    (latest : next.controller.latestFrame = state.controller.latestFrame)
    (frameEvidence
      : next.controller.latestFrameEvidence = state.controller.latestFrameEvidence)
    (source : next.source = state.source)
    (calling : ∀ call, next.call = some call → CallSound next.controller next.source call)
    (settled
      : (∀ answer ∈ next.answers, answer.Restored) → next.Settled
        → (∀ answer ∈ state.answers, answer.Restored) ∧ state.Settled)
    : IngestSound next := by
  refine ⟨observations ▸ sound.ordered, ?_, ?_, calling, ?_⟩
  · rw [latest, observations]
    exact sound.behind
  · rw [source, observations]
    exact sound.sourced
  · intro restored quiet
    rw [latest, source, frameEvidence]
    exact sound.published (settled restored quiet).1 (settled restored quiet).2

theorem restored_of_concat {answers : List (IngestAnswer Payload Value)}
    (restored : ∀ earlier ∈ answers ++ [answer], earlier.Restored)
    : (∀ earlier ∈ answers, earlier.Restored) ∧ answer.Restored := by
  rw [List.forall_mem_append] at restored
  exact ⟨restored.1, restored.2 _ (List.mem_singleton_self _)⟩

theorem IngestSound.begin (sound : IngestSound state) (idle : state.call = none)
    : IngestSound (state.await state.controller (.recordFrame frame)) := by
  refine sound.transfer rfl rfl rfl rfl ?_ ?_
  · rintro _ ⟨⟩
    rfl
  · intro restored _
    exact ⟨restored, by simp [Ingesting.Settled, idle]⟩

theorem IngestSound.fail (sound : IngestSound state) (holds : state.call = some call)
    : IngestSound (state.fail call.before) := by
  refine sound.transfer rfl rfl rfl rfl nofun ?_
  intro restored _
  obtain ⟨earlier, latest⟩ := restored_of_concat restored
  exact ⟨earlier, (settled_iff holds).mpr ((sound.calling _ holds).same_iff.mp latest)⟩

theorem IngestSound.finish (sound : IngestSound state) (quiet : state.Settled)
    : IngestSound state.finish := by
  refine sound.transfer rfl rfl rfl rfl nofun ?_
  exact fun restored _ => ⟨(restored_of_concat restored).1, quiet⟩

theorem IngestSound.read (sound : IngestSound state) : IngestSound state.read := by
  refine sound.transfer rfl rfl rfl rfl sound.calling ?_
  exact fun restored quiet => ⟨(restored_of_concat restored).1, quiet⟩

/-- The call waits for its next write. -/
theorem IngestSound.await {awaits : JournalWrite Payload} (sound : IngestSound state)
    (holds : state.call = some call)
    (calling : CallSound state.controller state.source ⟨call.before, awaits⟩)
    (settled : awaits.applied = false → call.awaits.applied = false)
    : IngestSound (state.await call.before awaits) := by
  refine sound.transfer rfl rfl rfl rfl ?_ ?_
  · rintro _ ⟨⟩
    exact calling
  · intro restored quiet
    exact ⟨restored, (settled_iff holds).mpr (settled (quiet _ rfl))⟩

theorem IngestSound.publish (sound : IngestSound state)
    (holds : state.call = some ⟨before, .recordDelta frame evidence⟩)
    : IngestSound { state with controller := state.controller.publish frame evidence }.finish := by
  have applied : Applied state.controller before state.source frame evidence :=
    sound.calling _ holds
  have shown := sound.sourced frame evidence applied.source
  refine ⟨sound.ordered, ?_, sound.sourced, nofun, ?_⟩
  · rintro _ ⟨⟩
    have own :=
      not_newer_self frame state.controller.observations.snapshot.revision.semanticSequence
    rwa [← shown.paneEpoch, ← shown.captureSequence] at own
  · rintro _ _ _ ⟨⟩
    exact applied.source

/-- The order of the exposed snapshots holds by itself. -/
theorem IngestSound.atomic_iff (sound : IngestSound state)
    : AtomicIngestion state
      ↔ ∀ answer ∈ state.answers, answer.Coherent ∧ answer.Restored := by
  constructor
  · exact fun atomic answer member =>
      ⟨atomic.coherent answer member, atomic.restored answer member⟩
  · exact fun clean => ⟨sound.ordered, fun answer member => (clean answer member).1,
      fun answer member => (clean answer member).2⟩

/-- A step without an answer. -/
theorem AtomicIngestion.silent (atomic : AtomicIngestion state) (sound : IngestSound next)
    (answers : next.answers = state.answers)
    : AtomicIngestion next := by
  refine ⟨sound.ordered, ?_, ?_⟩ <;> rw [answers]
  · exact atomic.coherent
  · exact atomic.restored

/-- A bundle holds together unless it is read of a frame that was replaced already. -/
theorem IngestSound.coherent_iff (sound : IngestSound state)
    (restored : ∀ answer ∈ state.answers, answer.Restored)
    : (IngestAnswer.read state.source state.controller.latestFrameBundle).Coherent
      ↔ state.Settled ∨ state.controller.latestFrame = none := by
  cases latest : state.controller.latestFrame with
  | none =>
    rw [HarnessController.latestFrameBundle, latest]
    exact iff_of_true trivial (.inr rfl)
  | some published =>
    have bundle : state.controller.latestFrameBundle
        = some ⟨published, state.controller.observations.snapshot,
          state.controller.latestFrameEvidence⟩ := by
      rw [HarnessController.latestFrameBundle, latest]
      rfl
    rw [bundle]
    constructor
    · intro ⟨source, _⟩
      refine .inl (fun call holds => ?_)
      have calling := sound.calling call holds
      obtain ⟨before, awaits⟩ := call
      have replaced : ∀ {frame evidence},
          ¬ Applied state.controller before state.source frame evidence := by
        intro frame evidence applied
        obtain ⟨rfl, -⟩ := Prod.mk.inj (Option.some.inj (applied.source.symm.trans source))
        have old := applied.behind _ (applied.latest.symm.trans latest)
        rw [applied.newer] at old
        cases old
      cases awaits with
      | recordFrame | recordEvidence => rfl
      | recordSnapshot | recordDelta => exact absurd calling replaced
    · intro quiet
      rcases quiet with settled | none_
      · have source := sound.published restored settled published latest
        exact ⟨source, sound.sourced _ _ source⟩
      · cases none_

/-- A projection that raises restores the controller exactly when nothing new was parsed. -/
theorem same_project_iff (controller : HarnessController Payload Value)
    : SameTruth controller (controller.appendEvidence evidence)
      ↔ ∀ envelope ∈ evidence,
          envelope.evidenceId ∈ controller.evidence.map (·.evidenceId) := by
  rw [← EvidenceHistory.append_eq_iff]
  exact ⟨fun same => same.evidence, fun same => ⟨rfl, same, rfl, rfl⟩⟩

/-- A write that returns is careful unless a projection raises behind it. -/
theorem careful_returns (adapter : AdapterAnswer Payload Value) (holds : state.call = some call)
    (other : ∀ frame evidence, call.awaits ≠ .recordEvidence frame evidence)
    : CarefulIngest state (.writeReturns adapter) := by
  intro before frame evidence at_
  cases holds.symm.trans at_
  exact absurd rfl (other frame evidence)

theorem careful_evidence {adapter : AdapterAnswer Payload Value}
    (holds : state.call = some ⟨before, .recordEvidence frame evidence⟩)
    : CarefulIngest state (.writeReturns adapter)
      ↔ (frame.newer state.controller.observations.snapshot.revision = true
        → adapter.projected = none
        → ∀ envelope ∈ evidence,
            envelope.evidenceId ∈ state.controller.evidence.map (·.evidenceId)) := by
  constructor
  · intro careful
    exact careful before frame evidence holds
  · intro known _ _ _ at_
    cases holds.symm.trans at_
    exact known

variable [DecidableEq Value]

theorem ExposedInOrder.apply {store : ObservationStore Value} (ordered : ExposedInOrder store)
    (updates : ObservationUpdates Value) (newer : frame.newer store.snapshot.revision = true)
    : ExposedInOrder
        (store.apply updates frame.capturedAt frame.paneEpoch frame.captureSequence) := by
  refine ⟨⟨store.history, rfl⟩, ?_⟩
  obtain ⟨earlier, history⟩ := ordered.current
  have increasing := ordered.increasing
  have latest : ∀ snapshot ∈ store.history, snapshot.revision
      < store.appliedRevision updates frame.paneEpoch frame.captureSequence := by
    have last := lt_of_newer newer
      (store.snapshot.revision.semanticSequence + if store.changed updates then 1 else 0)
    intro snapshot member
    rw [history, List.mem_append, List.mem_singleton] at member
    rcases member with before | rfl
    · rw [history, List.pairwise_append] at increasing
      exact ObservationRevision.lt_trans' (increasing.2.2 _ before _ (List.mem_singleton_self _)) last
    · exact last
  refine List.pairwise_append.mpr ⟨increasing, List.pairwise_singleton _ _, ?_⟩
  intro snapshot member applied same
  rw [List.mem_singleton.mp same]
  exact latest snapshot member

/-- A frame that is not stale and whose projection does not raise is applied. -/
theorem IngestSound.project_some (sound : IngestSound state)
    (holds : state.call = some ⟨before, .recordEvidence frame evidence⟩)
    (newer : frame.newer state.controller.observations.snapshot.revision = true)
    (updates : ObservationUpdates Value)
    : IngestSound (state.project before frame evidence (some updates)) := by
  have later := lt_of_newer newer
    (state.controller.observations.snapshot.revision.semanticSequence
      + if state.controller.observations.changed updates then 1 else 0)
  have same : state.controller = before := sound.calling _ holds
  refine ⟨sound.ordered.apply updates newer, ?_, ?_, ?_, ?_⟩
  · intro published latest
    exact newer_later (sound.behind published latest) later
  · rintro _ _ ⟨⟩
    exact ⟨rfl, rfl, rfl⟩
  · rintro _ ⟨⟩
    refine ⟨rfl, ?_, ?_, ?_, ?_⟩ <;> rw [← same]
    · exact newer
    · exact later
    · rfl
    · exact sound.behind
  · intro _ quiet
    exact nomatch quiet _ rfl

/-- A projection that raises leaves what was parsed in the history. -/
theorem IngestSound.project_none (sound : IngestSound state)
    (holds : state.call = some ⟨before, .recordEvidence frame evidence⟩)
    : IngestSound (state.project before frame evidence none) := by
  refine sound.transfer rfl rfl rfl rfl nofun ?_
  exact fun restored _ => ⟨(restored_of_concat restored).1, (settled_iff holds).mpr rfl⟩

/-- The writes of a call one after another, by cases on the one that returned. -/
theorem IngestSound.resume (sound : IngestSound state) (holds : state.call = some call)
    (adapter : AdapterAnswer Payload Value)
    : IngestSound (state.resume call adapter) := by
  have calling := sound.calling call holds
  obtain ⟨before, awaits⟩ := call
  cases awaits with
  | recordFrame frame =>
    cases parsed : adapter.parsed with
    | none =>
      rw [Ingesting.resume, parsed]
      exact sound.fail holds
    | some evidence =>
      rw [Ingesting.resume, parsed]
      exact sound.await holds calling (fun _ => rfl)
  | recordEvidence frame evidence =>
    rw [Ingesting.resume]
    dsimp only
    split
    · next newer =>
        cases adapter.projected with
        | none => exact sound.project_none holds
        | some updates => exact sound.project_some holds newer updates
    · exact sound.finish ((settled_iff holds).mpr rfl)
  | recordSnapshot frame evidence => exact sound.await holds calling nofun
  | recordDelta frame evidence => exact sound.publish holds

theorem IngestSound.step {event : IngestEvent Payload Value} {next : Ingesting Payload Value}
    (sound : IngestSound state) (step : IngestStep state event next)
    : IngestSound next := by
  cases step with
  | begin idle => exact sound.begin idle
  | raises holds => exact sound.fail holds
  | returns holds => exact sound.resume holds _
  | reads => exact sound.read

/-- A write that returns keeps the ingestion atomic exactly where it is careful. -/
theorem AtomicIngestion.resume_iff (atomic : AtomicIngestion state)
    (sound : IngestSound state) (holds : state.call = some call)
    (adapter : AdapterAnswer Payload Value)
    : AtomicIngestion (state.resume call adapter)
      ↔ CarefulIngest state (.writeReturns adapter) := by
  have kept := sound.resume holds adapter
  have calling := sound.calling call holds
  obtain ⟨before, awaits⟩ := call
  cases awaits with
  | recordFrame frame =>
    have careful := careful_returns adapter holds (fun _ _ => nofun)
    rw [iff_true_right careful]
    cases parsed : adapter.parsed with
    | none =>
      rw [Ingesting.resume, parsed] at kept ⊢
      exact (atomic.answer_iff kept.ordered rfl).mpr ⟨trivial, calling.same_iff.mpr rfl⟩
    | some evidence =>
      rw [Ingesting.resume, parsed] at kept ⊢
      exact atomic.silent kept rfl
  | recordEvidence frame evidence =>
    rw [careful_evidence holds]
    rw [Ingesting.resume] at kept ⊢
    dsimp only at kept ⊢
    split at kept
    · next newer =>
        rw [if_pos newer]
        cases projected : adapter.projected with
        | none =>
          rw [projected] at kept
          have same : state.controller = before := calling
          rw [atomic.answer_iff kept.ordered rfl, ← same_project_iff state.controller, ← same]
          exact ⟨fun after _ _ => after.2, fun after => ⟨trivial, after newer rfl⟩⟩
        | some updates =>
          rw [projected] at kept
          exact iff_of_true (atomic.silent kept rfl) (fun _ => nofun)
    · next stale =>
        rw [if_neg stale]
        exact iff_of_true ((atomic.answer_iff kept.ordered rfl).mpr ⟨trivial, trivial⟩)
          (fun newer => absurd newer stale)
  | recordSnapshot frame evidence =>
    have careful := careful_returns adapter holds (fun _ _ => nofun)
    exact iff_of_true (atomic.silent kept rfl) careful
  | recordDelta frame evidence =>
    have careful := careful_returns adapter holds (fun _ _ => nofun)
    exact iff_of_true ((atomic.answer_iff kept.ordered rfl).mpr ⟨trivial, trivial⟩) careful

theorem AtomicIngestion.step_iff {event : IngestEvent Payload Value}
    (atomic : AtomicIngestion state)
    (sound : IngestSound state) (step : IngestStep state event next)
    : AtomicIngestion next ↔ CarefulIngest state event := by
  have kept := sound.step step
  cases step with
  | begin idle => exact iff_of_true (atomic.silent kept rfl) trivial
  | @raises call holds =>
    rw [atomic.answer_iff kept.ordered rfl, CarefulIngest, settled_iff holds,
      ← (sound.calling call holds).same_iff]
    exact and_iff_right trivial
  | returns holds => exact atomic.resume_iff sound holds _
  | reads =>
    rw [atomic.answer_iff kept.ordered rfl, CarefulIngest,
      ← sound.coherent_iff atomic.restored]
    exact and_iff_left trivial

theorem resume_answers (state : Ingesting Payload Value) (call : IngestCall Payload Value)
    (adapter : AdapterAnswer Payload Value)
    : ∃ more, (state.resume call adapter).answers = state.answers ++ more := by
  obtain ⟨before, awaits⟩ := call
  cases awaits with
  | recordFrame frame =>
    rw [Ingesting.resume]
    cases adapter.parsed with
    | none => exact ⟨_, rfl⟩
    | some evidence => exact ⟨[], (List.append_nil _).symm⟩
  | recordEvidence frame evidence =>
    rw [Ingesting.resume]
    dsimp only
    split
    · cases adapter.projected with
      | none => exact ⟨_, rfl⟩
      | some updates => exact ⟨[], (List.append_nil _).symm⟩
    · exact ⟨_, rfl⟩
  | recordSnapshot frame evidence => exact ⟨[], (List.append_nil _).symm⟩
  | recordDelta frame evidence => exact ⟨_, rfl⟩

/-- No step takes back an answer. -/
theorem IngestStep.answers {event : IngestEvent Payload Value} (step : IngestStep state event next)
    : ∃ more, next.answers = state.answers ++ more := by
  cases step with
  | begin idle => exact ⟨[], (List.append_nil _).symm⟩
  | raises holds => exact ⟨_, rfl⟩
  | returns holds => exact resume_answers state _ _
  | reads => exact ⟨_, rfl⟩

/-- Calls of `ingest_frame` are atomic and ordered exactly when every step of the run is careful:
nothing raises between applying a frame and publishing it, no projection raises behind newly parsed
evidence, and no bundle is read in between but before the first frame.
-/
theorem atomicIngestion_iff {events : List (IngestEvent Payload Value)}
    (run : Run IngestFresh IngestStep events state)
    : AtomicIngestion state
      ↔ Run IngestFresh (fun state event next =>
          IngestStep state event next ∧ CarefulIngest state event) events state := by
  have sound : IngestSound state := run.invariant (fun _ fresh => (ingestSound_of_fresh fresh).2)
    (fun _ _ _ sound step => sound.step step)
  rw [sound.atomic_iff]
  apply run.careful_iff
  · intro state fresh
    have both := ingestSound_of_fresh fresh
    exact ⟨both.2.atomic_iff.mp both.1, both.2⟩
  · intro state event next step clean answer member
    obtain ⟨more, grown⟩ := step.answers
    exact clean answer (grown ▸ List.mem_append_left more member)
  · exact fun _ _ _ sound step => sound.step step
  · intro state event next sound clean step
    rw [← (sound.step step).atomic_iff]
    exact (sound.atomic_iff.mpr clean).step_iff sound step

end States

namespace FailedWrite

def initial : ExposedSnapshot Bool where
  revision := ⟨0, 0, 0⟩
  capturedAt := 0
  observations := fun _ => ⟨.unknown, 0, ⟨0, 0, 0⟩⟩

def start : Ingesting Unit Bool where
  controller := .create initial []

def frame : TerminalFrame where
  frameId := "f"
  harnessId := "codex"
  capturedAt := 1
  rawText := ""
  paneEpoch := 0
  captureSequence := 1

/-- Nothing is parsed of the frame and nothing changes. -/
def answer : AdapterAnswer Unit Bool := ⟨some [], some (fun _ => none)⟩

theorem applied
    : ∃ state : Ingesting Unit Bool,
        Steps IngestStep start [.begin frame, .writeReturns answer, .writeReturns answer] state
      ∧ IngestSound state
      ∧ state.call = some ⟨start.controller, .recordSnapshot frame []⟩
      ∧ state.answers = [] :=
  ⟨_, .cons (.begin rfl) (.cons (.returns rfl) (.cons (.returns rfl) (.nil _))),
    ((((ingestSound_of_fresh ⟨_, _, rfl⟩).2.step (.begin rfl)).step (.returns rfl)).step
      (.returns rfl)), rfl, rfl⟩

/-- A frame is ingested, and its bundle is read. -/
theorem atomicIngestion_published
    : ∃ state : Ingesting Unit Bool,
        Run IngestFresh IngestStep [.begin frame, .writeReturns answer, .writeReturns answer,
          .writeReturns answer, .writeReturns answer, .readBundle] state
        ∧ AtomicIngestion state := by
  have fresh : IngestFresh start := ⟨_, _, rfl⟩
  refine ⟨_, ⟨start, fresh, .cons (.begin rfl) (.cons (.returns rfl) (.cons (.returns rfl)
    (.cons (.returns rfl) (.cons (.returns rfl) (.cons .reads (.nil _))))))⟩, ?_⟩
  refine (atomicIngestion_iff ⟨start, fresh, .cons (.begin rfl) (.cons (.returns rfl)
    (.cons (.returns rfl) (.cons (.returns rfl) (.cons (.returns rfl)
    (.cons .reads (.nil _))))))⟩).mpr ⟨start, fresh, .cons ⟨.begin rfl, trivial⟩
      (.cons ⟨.returns rfl, ?_⟩ (.cons ⟨.returns rfl, ?_⟩ (.cons ⟨.returns rfl, ?_⟩
      (.cons ⟨.returns rfl, ?_⟩ (.cons ⟨.reads, .inl nofun⟩ (.nil _))))))⟩
  · exact careful_returns answer rfl (fun _ _ => nofun)
  · exact (careful_evidence rfl).mpr (fun _ => nofun)
  · exact careful_returns answer rfl (fun _ _ => nofun)
  · exact careful_returns answer rfl (fun _ _ => nofun)

/-- The record of the snapshot raises behind the snapshot it is of. -/
theorem not_atomicIngestion
    : ∃ events, ∃ state : Ingesting Unit Bool, Run IngestFresh IngestStep events state
        ∧ ¬ AtomicIngestion state := by
  obtain ⟨state, steps, sound, holds, silent⟩ := applied
  refine ⟨_, _, ⟨start, ⟨_, _, rfl⟩, steps.snoc (.raises holds)⟩, fun atomic => ?_⟩
  have same := atomic.restored (.raised start.controller state.controller)
    (by simp [Ingesting.fail])
  have early := (sound.calling _ holds).same_iff.mp same
  cases early

end FailedWrite

end Murder.Harness

import Murder.Library.Runs
import Murder.Library.Transactions
import Murder.Harness.SubmitPrompt

/-! Where prompt input lands: each phase checks one snapshot and the next phase acts on a
newer one.
-/

namespace Murder.Harness

open Contracts Library.Runs Library.Transactions

theorem advance_request (op : SubmitPromptOperation) (decision : SubmitDecision)
    (snapshot : ObservationSnapshot) (now : Timestamp)
    : (advanceSubmitPrompt op decision snapshot now).request = op.request
      ∧ (advanceSubmitPrompt op decision snapshot now).payloadFingerprint
        = op.payloadFingerprint := by
  unfold advanceSubmitPrompt
  dsimp only
  cases decision.action with
  | none => exact ⟨rfl, rfl⟩
  | some action =>
    obtain ⟨actionId, operationId, policy, payload⟩ := action
    cases payload <;> exact ⟨rfl, rfl⟩

variable {op : SubmitPromptOperation} {actionId : ActionId}

section Entry

variable [DecimalDigits]

def composerEmpty (snapshot : ObservationSnapshot) : Bool :=
  snapshot.composer.value.any ComposerState.isEmpty

def holdsPayload (op : SubmitPromptOperation) (snapshot : ObservationSnapshot) : Bool :=
  match composerContainsPayload op snapshot with
  | .ok result => result.value == .true
  | .error _ => false

def surfaceReady (snapshot : ObservationSnapshot) : Bool :=
  (promptEntrySurfaceReady snapshot).value == .true

/-- The deciding snapshot shows a composer that takes the selected input. -/
def VerifiedEntry (op : SubmitPromptOperation) (decision : SubmitDecision)
    (snapshot : ObservationSnapshot) : Prop :=
  ∀ action, decision.action = some action →
    match action.payload with
    | .insertPromptPayload _ _ => surfaceReady snapshot = true ∧ composerEmpty snapshot = true
    | .commitPromptSubmission => surfaceReady snapshot = true ∧ holdsPayload op snapshot = true
    | .clearComposer => True

/-- The snapshots with which the surface, the empty composer and the payload were checked
last.
-/
structure SubmitChecks where
  surface : Option ObservationSnapshot := none
  composer : Option ObservationSnapshot := none
  payload : Option ObservationSnapshot := none

def SubmitChecks.step (checks : SubmitChecks) (before after : SubmitPhase)
    (snapshot : ObservationSnapshot) : SubmitChecks where
  surface :=
    if before = .establishingSafeSurface ∧ after = .clearingComposer then some snapshot
    else checks.surface
  composer :=
    if before = .clearingComposer ∧ after = .insertingPayload then some snapshot
    else checks.composer
  payload :=
    if before = .verifyingPayload ∧ after = .readyToCommit then some snapshot
    else checks.payload

structure SubmitRun where
  op : SubmitPromptOperation
  checks : SubmitChecks := {}

/-- A reconciliation against a snapshot, or the closing of the operation from outside. -/
inductive SubmitEvent
  | reconcile (snapshot : ObservationSnapshot) (actionId : ActionId) (now : Timestamp)
  | close (snapshot : ObservationSnapshot) (reason : String) (now : Timestamp)

def SubmitRun.apply (run : SubmitRun) (decision : SubmitDecision)
    (snapshot : ObservationSnapshot) (now : Timestamp) : SubmitRun where
  op := advanceSubmitPrompt run.op decision snapshot now
  checks := run.checks.step run.op.envelope.phase decision.nextPhase snapshot

inductive SubmitStep : SubmitRun → SubmitEvent → SubmitRun → Prop
  | reconcile {run snapshot actionId now decision}
    (decided : reconcileSubmitPrompt run.op snapshot actionId now = .ok decision)
    : SubmitStep run (.reconcile snapshot actionId now) (run.apply decision snapshot now)
  | close (run snapshot reason now)
    : SubmitStep run (.close snapshot reason now)
        (run.apply (.escalate .escalated reason) snapshot now)

def SubmitCreated (run : SubmitRun) : Prop :=
  ∃ operationId payload awaitCompletion submissionDeadline completionDeadline started,
    run = {
      op := createOperation operationId payload awaitCompletion submissionDeadline
        completionDeadline started }

def VerifiedStep (run : SubmitRun) (event : SubmitEvent) (next : SubmitRun) : Prop :=
  SubmitStep run event next
  ∧ ∀ snapshot actionId now decision, event = .reconcile snapshot actionId now
      → reconcileSubmitPrompt run.op snapshot actionId now = .ok decision
      → VerifiedEntry run.op decision snapshot

/-- The step is not stopped before the phase decides. -/
def Undisturbed (op : SubmitPromptOperation) (snapshot : ObservationSnapshot)
    (now : Timestamp) : Prop :=
  op.expired now = false ∧ snapshot.health.requiresEscalation = false

/-- A step that is about to insert or to commit sees the surface and the composer as the
steps that checked them did.
-/
structure Steady (run : SubmitRun) (snapshot : ObservationSnapshot) (now : Timestamp)
    : Prop where
  inserting
    : run.op.envelope.phase = .insertingPayload → Undisturbed run.op snapshot now
        → (run.op.clearingRevision = none
            ∨ run.op.staleSinceClear snapshot.revision = false ∧ composerEmpty snapshot = true)
        → run.checks.surface.map surfaceReady = some (surfaceReady snapshot)
          ∧ run.checks.composer.map composerEmpty = some (composerEmpty snapshot)
  committing
    : run.op.envelope.phase = .readyToCommit → Undisturbed run.op snapshot now
        → run.op.commitActionId = none
        → run.checks.surface.map surfaceReady = some (surfaceReady snapshot)
          ∧ run.checks.payload.map (holdsPayload run.op) = some (holdsPayload run.op snapshot)

def SteadyStep (run : SubmitRun) (event : SubmitEvent) (next : SubmitRun) : Prop :=
  SubmitStep run event next
  ∧ ∀ snapshot actionId now, event = .reconcile snapshot actionId now
      → Steady run snapshot now

def SubmitPhase.entering : SubmitPhase → Bool
  | .clearingComposer => true
  | .insertingPayload => true
  | .verifyingPayload => true
  | .readyToCommit => true
  | _ => false

/-- What the phase of an operation says about the snapshots it was checked against. -/
structure SubmitChecked (run : SubmitRun) : Prop where
  surface
    : run.op.envelope.phase.entering = true
        → run.checks.surface.map surfaceReady = some true
  composer
    : run.op.envelope.phase = .insertingPayload
        → run.checks.composer.map composerEmpty = some true
  payload
    : run.op.envelope.phase = .readyToCommit
        → run.checks.payload.map (holdsPayload run.op) = some true

/-- What one reconciliation does to the phase, and on which evidence. -/
inductive Decided (op : SubmitPromptOperation) (snapshot : ObservationSnapshot)
    (now : Timestamp) (decision : SubmitDecision) : Prop
  | elsewhere
    (quiet : decision.action = none)
    (outside : decision.nextPhase.entering = false)
  | established
    (phase : op.envelope.phase = .establishingSafeSurface)
    (next : decision.nextPhase = .clearingComposer) (quiet : decision.action = none)
    (ready : surfaceReady snapshot = true)
  | stays
    (phase : op.envelope.phase.entering = true)
    (next : decision.nextPhase = .clearingComposer ∨ decision.nextPhase = .verifyingPayload)
    (quiet : decision.action = none ∨ ∃ action, decision.action = some action
      ∧ action.payload = .clearComposer)
    (later : decision.nextPhase = .verifyingPayload → op.envelope.phase = .verifyingPayload)
  | emptied
    (phase : op.envelope.phase = .clearingComposer)
    (next : decision.nextPhase = .insertingPayload) (quiet : decision.action = none)
    (empty : composerEmpty snapshot = true)
  | inserts
    (phase : op.envelope.phase = .insertingPayload)
    (next : decision.nextPhase = .verifyingPayload)
    (undisturbed : Undisturbed op snapshot now)
    (revalidated
      : op.clearingRevision = none
        ∨ op.staleSinceClear snapshot.revision = false ∧ composerEmpty snapshot = true)
    (acts : ∃ action chunks fingerprint, decision.action = some action
      ∧ action.payload = .insertPromptPayload chunks fingerprint)
  | verified
    (phase : op.envelope.phase = .verifyingPayload)
    (next : decision.nextPhase = .readyToCommit) (quiet : decision.action = none)
    (holds : holdsPayload op snapshot = true)
  | commits
    (phase : op.envelope.phase = .readyToCommit)
    (next : decision.nextPhase = .commitEmitted)
    (undisturbed : Undisturbed op snapshot now)
    (first : op.commitActionId = none)
    (acts : ∃ action, decision.action = some action
      ∧ action.payload = .commitPromptSubmission)

/-- The clearing phase stays, clears, or has seen an empty composer. -/
theorem decided_clearing {snapshot : ObservationSnapshot}
    {now : Timestamp} {decision : SubmitDecision} (phase : op.envelope.phase = .clearingComposer)
    (decided : reconcileClearing op snapshot actionId = .ok decision)
    : Decided op snapshot now decision := by
  have entered : op.envelope.phase.entering = true := by rw [phase]; rfl
  unfold reconcileClearing at decided
  obtain ⟨result, -, decided⟩ := except_bind_ok.mp decided
  split at decided
  · cases decided
    exact .stays entered (.inl rfl) (.inl rfl) (fun other => nomatch other)
  split at decided
  · cases decided
    exact .stays entered (.inl rfl) (.inl rfl) (fun other => nomatch other)
  next composer observed =>
  split at decided
  · cases decided
    exact .stays entered (.inl rfl) (.inl rfl) (fun other => nomatch other)
  split at decided
  · next empty =>
      cases decided
      refine .emptied phase rfl rfl ?_
      unfold composerEmpty
      rw [observed]
      exact empty
  · cases decided
    exact .stays entered (.inl rfl) (.inr ⟨_, rfl, rfl⟩) (fun other => nomatch other)

theorem decided_inserting {snapshot : ObservationSnapshot} {now : Timestamp}
    (phase : op.envelope.phase = .insertingPayload) (undisturbed : Undisturbed op snapshot now)
    : Decided op snapshot now (reconcileInserting op snapshot actionId) := by
  unfold reconcileInserting
  dsimp only
  split
  · exact .stays (by rw [phase]; rfl) (.inl rfl) (.inl rfl) (fun other => nomatch other)
  · next revalidated =>
      refine .inserts phase rfl undisturbed ?_ ⟨_, _, _, rfl, rfl⟩
      by_cases fresh : op.clearingRevision = none
      · exact .inl fresh
      · right
        have empty : (!op.staleSinceClear snapshot.revision
            && snapshot.composer.value.any ComposerState.isEmpty) = true := by
          by_contra other
          exact revalidated ⟨fresh, Bool.eq_false_iff.mpr other⟩
        simpa [composerEmpty] using empty

theorem decided_verifying {snapshot : ObservationSnapshot}
    {now : Timestamp} {decision : SubmitDecision} (phase : op.envelope.phase = .verifyingPayload)
    (decided : reconcileVerifying op snapshot = .ok decision)
    : Decided op snapshot now decision := by
  unfold reconcileVerifying at decided
  obtain ⟨result, contains, decided⟩ := except_bind_ok.mp decided
  split at decided
  · next verified =>
      cases decided
      refine .verified phase rfl rfl ?_
      unfold holdsPayload
      rw [contains]
      exact beq_iff_eq.mpr verified.2
  · cases decided
    exact .stays (by rw [phase]; rfl) (.inr rfl) (.inl rfl) (fun _ => phase)

theorem decided_ready {snapshot : ObservationSnapshot}
    {now : Timestamp} (phase : op.envelope.phase = .readyToCommit)
    (undisturbed : Undisturbed op snapshot now)
    : Decided op snapshot now (reconcileReady op actionId) := by
  unfold reconcileReady
  split
  · exact .elsewhere rfl rfl
  · next first => exact .commits phase rfl undisturbed (not_not.mp first) ⟨_, rfl, rfl⟩

theorem decided_acknowledgment (op : SubmitPromptOperation) (snapshot : ObservationSnapshot)
    (now : Timestamp)
    : Decided op snapshot now (reconcileAcknowledgment op snapshot) := by
  unfold reconcileAcknowledgment
  dsimp only
  split
  · split
    · exact .elsewhere rfl rfl
    · exact .elsewhere rfl rfl
  · exact .elsewhere rfl rfl
  · exact .elsewhere rfl rfl

theorem decided_of_reconcile {snapshot : ObservationSnapshot}
    {now : Timestamp} {decision : SubmitDecision}
    (decided : reconcileSubmitPrompt op snapshot actionId now = .ok decision)
    : Decided op snapshot now decision := by
  unfold reconcileSubmitPrompt at decided
  split at decided
  · split at decided
    · cases decided
      exact .elsewhere rfl rfl
    · cases decided
      exact .elsewhere rfl rfl
  split at decided
  · cases decided
    exact .elsewhere rfl rfl
  next live healthy =>
  have undisturbed : Undisturbed op snapshot now :=
    ⟨Bool.eq_false_iff.mpr live, Bool.eq_false_iff.mpr healthy⟩
  unfold reconcilePhase at decided
  split at decided
  case h_1 =>
    cases decided
    exact .elsewhere rfl rfl
  case h_2 phase =>
    dsimp only at decided
    split at decided
    · next ready =>
        cases decided
        exact .established phase rfl rfl (by simp [surfaceReady, ready])
    · cases decided
      exact .elsewhere rfl rfl
  case h_3 phase => exact decided_clearing phase decided
  case h_4 phase =>
    cases decided
    exact decided_inserting phase undisturbed
  case h_5 phase => exact decided_verifying phase decided
  case h_6 phase =>
    cases decided
    exact decided_ready phase undisturbed
  case h_7 =>
    cases decided
    exact decided_acknowledgment op snapshot now
  case h_8 =>
    cases decided
    exact decided_acknowledgment op snapshot now
  case h_9 =>
    cases decided
    exact .elsewhere rfl rfl
  case h_10 =>
    cases decided
    unfold reconcileCompletion
    dsimp only
    split
    · exact .elsewhere rfl rfl
    · exact .elsewhere rfl rfl
  case h_11 =>
    cases decided
    exact .elsewhere rfl rfl
  case h_12 =>
    cases decided
    exact .elsewhere rfl rfl

/-- An insertion that nothing stops is emitted. -/
theorem emits_insert {snapshot : ObservationSnapshot}
    (actionId : ActionId) {now : Timestamp} (phase : op.envelope.phase = .insertingPayload)
    (undisturbed : Undisturbed op snapshot now)
    (revalidated
      : op.clearingRevision = none
        ∨ op.staleSinceClear snapshot.revision = false ∧ composerEmpty snapshot = true)
    : ∃ decision action chunks fingerprint,
        reconcileSubmitPrompt op snapshot actionId now = .ok decision
        ∧ decision.action = some action
        ∧ action.payload = .insertPromptPayload chunks fingerprint := by
  unfold reconcileSubmitPrompt
  rw [if_neg (by simp [undisturbed.1]), if_neg (by simp [undisturbed.2])]
  unfold reconcilePhase
  rw [phase]
  unfold reconcileInserting
  dsimp only
  rw [if_neg]
  · exact ⟨_, _, _, _, rfl, rfl, rfl⟩
  · intro stopped
    rcases revalidated with none_ | ⟨fresh, empty⟩
    · exact stopped.1 none_
    · have refused := stopped.2
      unfold composerEmpty at empty
      rw [fresh, empty] at refused
      cases refused

theorem emits_commit {snapshot : ObservationSnapshot}
    (actionId : ActionId) {now : Timestamp} (phase : op.envelope.phase = .readyToCommit)
    (undisturbed : Undisturbed op snapshot now) (first : op.commitActionId = none)
    : ∃ decision action,
        reconcileSubmitPrompt op snapshot actionId now = .ok decision
        ∧ decision.action = some action ∧ action.payload = .commitPromptSubmission := by
  unfold reconcileSubmitPrompt
  rw [if_neg (by simp [undisturbed.1]), if_neg (by simp [undisturbed.2])]
  unfold reconcilePhase
  rw [phase]
  unfold reconcileReady
  rw [if_neg (not_not.mpr first)]
  exact ⟨_, _, rfl, rfl, rfl⟩

theorem holdsPayload_congr {other : SubmitPromptOperation} (request : other.request = op.request)
    (fingerprint : other.payloadFingerprint = op.payloadFingerprint)
    : holdsPayload other = holdsPayload op := by
  funext snapshot
  unfold holdsPayload composerContainsPayload pasteOf
  rw [request, fingerprint]

theorem holdsPayload_advance (op : SubmitPromptOperation) (decision : SubmitDecision)
    (snapshot : ObservationSnapshot) (now : Timestamp)
    : holdsPayload (advanceSubmitPrompt op decision snapshot now) = holdsPayload op :=
  holdsPayload_congr (advance_request op decision snapshot now).1
    (advance_request op decision snapshot now).2

variable {run next : SubmitRun} {snapshot : ObservationSnapshot} {now : Timestamp}
  {decision : SubmitDecision}

theorem SubmitChecked.outside (phase : run.op.envelope.phase.entering = false)
    : SubmitChecked run where
  surface entering := by
    rw [phase] at entering
    cases entering
  composer inserting := by
    rw [inserting] at phase
    cases phase
  payload ready := by
    rw [ready] at phase
    cases phase

/-- Every decision leaves a phase that its checks justify. -/
theorem SubmitChecked.apply (h : SubmitChecked run)
    (decided : Decided run.op snapshot now decision)
    : SubmitChecked (run.apply decision snapshot now) := by
  have phaseAfter : (run.apply decision snapshot now).op.envelope.phase = decision.nextPhase :=
    rfl
  have sameHolds := holdsPayload_advance run.op decision snapshot now
  cases decided with
  | elsewhere quiet outside => exact .outside outside
  | established phase next quiet ready =>
    refine ⟨fun _ => ?_, fun inserting => ?_, fun committing => ?_⟩
    · simp [SubmitRun.apply, SubmitChecks.step, phase, next, ready]
    · rw [phaseAfter, next] at inserting
      cases inserting
    · rw [phaseAfter, next] at committing
      cases committing
  | stays phase next quiet later =>
    have checked := h.surface phase
    refine ⟨fun _ => ?_, fun inserting => ?_, fun committing => ?_⟩
    · have other : run.op.envelope.phase ≠ .establishingSafeSurface := by
        intro same
        rw [same] at phase
        cases phase
      simpa [SubmitRun.apply, SubmitChecks.step, other] using checked
    · rw [phaseAfter] at inserting
      rcases next with same | same <;> (rw [same] at inserting; cases inserting)
    · rw [phaseAfter] at committing
      rcases next with same | same <;> (rw [same] at committing; cases committing)
  | emptied phase next quiet empty =>
    have checked := h.surface (by rw [phase]; rfl)
    refine ⟨fun _ => ?_, fun _ => ?_, fun committing => ?_⟩
    · simpa [SubmitRun.apply, SubmitChecks.step, phase] using checked
    · simp [SubmitRun.apply, SubmitChecks.step, phase, next, empty]
    · rw [phaseAfter, next] at committing
      cases committing
  | inserts phase next undisturbed revalidated acts =>
    have checked := h.surface (by rw [phase]; rfl)
    refine ⟨fun _ => ?_, fun inserting => ?_, fun committing => ?_⟩
    · simpa [SubmitRun.apply, SubmitChecks.step, phase] using checked
    · rw [phaseAfter, next] at inserting
      cases inserting
    · rw [phaseAfter, next] at committing
      cases committing
  | verified phase next quiet holds =>
    have checked := h.surface (by rw [phase]; rfl)
    refine ⟨fun _ => ?_, fun inserting => ?_, fun _ => ?_⟩
    · simpa [SubmitRun.apply, SubmitChecks.step, phase] using checked
    · rw [phaseAfter, next] at inserting
      cases inserting
    · simp [SubmitRun.apply, SubmitChecks.step, phase, next, sameHolds, holds]
  | commits phase next undisturbed first acts =>
    refine .outside ?_
    rw [phaseAfter, next]
    rfl

theorem SubmitChecked.step {event : SubmitEvent} (h : SubmitChecked run)
    (step : SubmitStep run event next)
    : SubmitChecked next := by
  cases step with
  | reconcile decided => exact h.apply (decided_of_reconcile decided)
  | close snapshot reason now => exact .outside rfl

theorem SubmitCreated.checked (h : SubmitCreated run) : SubmitChecked run := by
  obtain ⟨operationId, payload, awaitCompletion, submission, completion, started, rfl⟩ := h
  exact .outside rfl

/-- An emission goes to a verified composer when the deciding snapshot reads what the
checks read.
-/
theorem verified_of_steady (h : SubmitChecked run) (steady : Steady run snapshot now)
    (decided : reconcileSubmitPrompt run.op snapshot actionId now = .ok decision)
    : VerifiedEntry run.op decision snapshot := by
  intro action acts
  cases decided_of_reconcile decided with
  | elsewhere quiet outside => simp [quiet] at acts
  | established phase next quiet ready => simp [quiet] at acts
  | stays phase next quiet later =>
    rcases quiet with none_ | ⟨clear, emitted, payload⟩
    · simp [none_] at acts
    · rw [emitted] at acts
      cases acts
      rw [payload]
      trivial
  | emptied phase next quiet empty => simp [quiet] at acts
  | inserts phase next undisturbed revalidated emits =>
    obtain ⟨insert, chunks, fingerprint, emitted, payload⟩ := emits
    rw [emitted] at acts
    cases acts
    rw [payload]
    obtain ⟨sameSurface, sameComposer⟩ := steady.inserting phase undisturbed revalidated
    rw [h.surface (by rw [phase]; rfl)] at sameSurface
    rw [h.composer phase] at sameComposer
    exact ⟨(Option.some.inj sameSurface).symm, (Option.some.inj sameComposer).symm⟩
  | verified phase next quiet holds => simp [quiet] at acts
  | commits phase next undisturbed first emits =>
    obtain ⟨commit, emitted, payload⟩ := emits
    rw [emitted] at acts
    cases acts
    rw [payload]
    obtain ⟨sameSurface, samePayload⟩ := steady.committing phase undisturbed first
    rw [h.surface (by rw [phase]; rfl)] at sameSurface
    rw [h.payload phase] at samePayload
    exact ⟨(Option.some.inj sameSurface).symm, (Option.some.inj samePayload).symm⟩

/-- The deciding snapshot of every verified emission reads what the checks read. -/
theorem steady_of_verified (h : SubmitChecked run)
    (verified : ∀ decision, reconcileSubmitPrompt run.op snapshot actionId now = .ok decision
      → VerifiedEntry run.op decision snapshot)
    : Steady run snapshot now where
  inserting phase undisturbed revalidated := by
    obtain ⟨decision, action, chunks, fingerprint, decided, emitted, payload⟩ :=
      emits_insert actionId phase undisturbed revalidated
    have entry := verified decision decided action emitted
    rw [payload] at entry
    rw [h.surface (by rw [phase]; rfl), h.composer phase, entry.1, entry.2]
    exact ⟨rfl, rfl⟩
  committing phase undisturbed first := by
    obtain ⟨decision, action, decided, emitted, payload⟩ :=
      emits_commit actionId phase undisturbed first
    have entry := verified decision decided action emitted
    rw [payload] at entry
    rw [h.surface (by rw [phase]; rfl), h.payload phase, entry.1, entry.2]
    exact ⟨rfl, rfl⟩

theorem verified_iff_steady {event : SubmitEvent} (h : SubmitChecked run)
    : VerifiedStep run event next ↔ SteadyStep run event next := by
  constructor
  · intro verified
    refine ⟨verified.1, fun snapshot actionId now same => ?_⟩
    exact steady_of_verified h fun decision decided =>
      verified.2 snapshot actionId now decision same decided
  · intro steady
    refine ⟨steady.1, fun snapshot actionId now decision same decided => ?_⟩
    exact verified_of_steady h (steady.2 snapshot actionId now same) decided

/-- Every emission of a run goes to a verified composer exactly when each deciding snapshot
reads what the snapshots of the checks read.
-/
theorem entriesVerified_iff {events : List SubmitEvent} {stop : SubmitRun}
    : Run SubmitCreated VerifiedStep events stop ↔ Run SubmitCreated SteadyStep events stop :=
  @Run.iff_of_invariant _ _ SubmitCreated VerifiedStep SubmitChecked _
    (fun _ created => created.checked) (fun _ _ _ checked verified => checked.step verified.1)
    (fun _ _ _ checked => verified_iff_steady checked) _ _

end Entry

namespace Dialog

abbrev digits : DecimalDigits where
  value c := if c.isDigit then some (c.toNat - '0'.toNat) else none

def composer (text : String) : ComposerState :=
  ⟨some text, some text, some text, .actionable, some true⟩

def shows (capture : Nat) (blocked : Bool) (text : String) : ObservationSnapshot where
  revision := ⟨0, capture, 0⟩
  surface := .present { blocksComposerInput := blocked }
  composer := .present (composer text)
  transcriptTail := .unknown
  health := {}

def created : SubmitRun where
  op := createOperation "o" ⟨[], "go", "go"⟩ false 100 none 0

/-- The run of a prompt whose insertion is decided while a dialog blocks the composer. -/
def events : List SubmitEvent :=
  [.reconcile (shows 1 false "") "a" 1, .reconcile (shows 2 false "") "a" 2,
    .reconcile (shows 3 false "") "a" 3]

/-- A dialog that opens behind the check of the composer gets the prompt. -/
theorem prompt_into_dialog
    : ∃ run, @Run SubmitRun SubmitEvent SubmitCreated (@SubmitStep digits) events run
        ∧ ∃ decision,
          @reconcileSubmitPrompt digits run.op (shows 4 true "") "a" 4 = .ok decision
          ∧ ¬ @VerifiedEntry digits run.op decision (shows 4 true "") := by
  have steps : ∃ run,
      Steps (@SubmitStep digits) created events run
      ∧ ∃ decision,
        @reconcileSubmitPrompt digits run.op (shows 4 true "") "a" 4 = .ok decision
        ∧ ¬ @VerifiedEntry digits run.op decision (shows 4 true "") := by
    refine ⟨_, .cons (@SubmitStep.reconcile digits _ _ _ _ _ rfl)
      (.cons (@SubmitStep.reconcile digits _ _ _ _ _ rfl)
        (.cons (@SubmitStep.reconcile digits _ _ _ _ _ rfl) (.nil _))), _, rfl, fun entry => ?_⟩
    exact absurd (entry _ rfl).1 (by decide)
  obtain ⟨run, taken, decided⟩ := steps
  exact ⟨run, ⟨created, ⟨_, _, _, _, _, _, rfl⟩, taken⟩, decided⟩

end Dialog

end Murder.Harness

import Murder.Harness.Questions
import Murder.Harness.ModelSelection
import Murder.Harness.Permissions
import Murder.Harness.Recovery
import Murder.Library.Transactions

/-! What a failed operation may have sent: an operation is reconciled until a decision
settles it.
-/

namespace Murder.Harness

open Contracts Library.Runs Library.Transactions

/-- An action of this policy may have had its effect once it was selected. -/
def DuplicatePolicy.irrevocable : DuplicatePolicy → Bool
  | .ambiguousAfterEmission => true
  | .neverAutomaticallyReplay => true
  | _ => false

def ControllerDecisionKind.settles : ControllerDecisionKind → Bool
  | .observeMore => false
  | .emitAction => false
  | _ => true

/-- What an operation is reconciled with. -/
structure Reconciliation where
  snapshot : ObservationSnapshot
  actionId : ActionId
  now : Timestamp

/-- An operation with its last decision and the actions selected for it. -/
structure OperationRun (Op Phase Payload : Type) where
  op : Op
  decision : Option (ControllerDecision Phase Payload) := none
  selected : List (SemanticAction Payload) := []

section Runs

variable {Op Phase Payload : Type}

/-- An irrevocable action was selected. -/
def OperationRun.committed (run : OperationRun Op Phase Payload) : Bool :=
  run.selected.any (·.duplicatePolicy.irrevocable)

def OperationRun.open_ (run : OperationRun Op Phase Payload) : Bool :=
  run.decision.all (fun decision => !decision.kind.settles)

/-- A failed operation selected no irrevocable action. -/
def SafeFailure (run : OperationRun Op Phase Payload) : Prop :=
  ∀ decision, run.decision = some decision → decision.kind = .fail → run.committed = false

/-- An operation that is still open is reconciled; a reducer that raises takes no step. -/
inductive ReconcileStep (contract : ReducerContract Op ObservationSnapshot Phase Payload)
    : OperationRun Op Phase Payload → Reconciliation → OperationRun Op Phase Payload → Prop
  | reconcile {run event decision} (going : run.open_ = true)
    (decided
      : contract.reconcile run.op event.snapshot event.actionId event.now = some decision)
    : ReconcileStep contract run event {
        op := contract.advance run.op decision event.snapshot event.now
        decision := some decision
        selected := run.selected ++ decision.action.toList }

def CreatedRun (phase : Op → Phase) (created : Phase) (run : OperationRun Op Phase Payload)
    : Prop :=
  phase run.op = created ∧ run.decision = none ∧ run.selected = []

def CarefulStep (contract : ReducerContract Op ObservationSnapshot Phase Payload)
    (fails : Op → Reconciliation → Prop) (run : OperationRun Op Phase Payload)
    (event : Reconciliation) (next : OperationRun Op Phase Payload)
    : Prop :=
  ReconcileStep contract run event next ∧ ¬ (run.committed = true ∧ fails run.op event)

/-- What a reducer decides behind its irrevocable actions: it stays in the phases `behind`
until it settles, and fails there where `fails` says so.
-/
structure FailsBehind (contract : ReducerContract Op ObservationSnapshot Phase Payload)
    (phase : Op → Phase) (behind : Phase → Prop) (fails : Op → Reconciliation → Prop)
    : Prop where
  advances
    : ∀ op decision snapshot now,
        phase (contract.advance op decision snapshot now) = decision.nextPhase
  enters
    : ∀ op snapshot actionId now decision action,
        contract.reconcile op snapshot actionId now = some decision
        → decision.action = some action → action.duplicatePolicy.irrevocable = true
        → behind decision.nextPhase
  stays
    : ∀ op snapshot actionId now decision,
        contract.reconcile op snapshot actionId now = some decision → behind (phase op)
        → decision.kind.settles = false → behind decision.nextPhase
  fails_iff
    : ∀ op event decision,
        contract.reconcile op event.snapshot event.actionId event.now = some decision
        → behind (phase op) → (decision.kind = .fail ↔ fails op event)

variable {contract : ReducerContract Op ObservationSnapshot Phase Payload}
  {phase : Op → Phase} {created : Phase} {behind : Phase → Prop}
  {fails : Op → Reconciliation → Prop}

def Behind (phase : Op → Phase) (behind : Phase → Prop)
    (run : OperationRun Op Phase Payload)
    : Prop :=
  run.open_ = true → run.committed = true → behind (phase run.op)

theorem CreatedRun.uncommitted {run : OperationRun Op Phase Payload}
    (fresh : CreatedRun phase created run)
    : Behind phase behind run := by
  intro _ committed
  simp [OperationRun.committed, fresh.2.2] at committed

theorem CreatedRun.safe {run : OperationRun Op Phase Payload}
    (fresh : CreatedRun phase created run)
    : SafeFailure run := by
  intro decision last
  rw [fresh.2.1] at last
  cases last

theorem ReconcileStep.open_before {run next : OperationRun Op Phase Payload}
    {event : Reconciliation} (step : ReconcileStep contract run event next)
    : run.open_ = true := by
  cases step with
  | reconcile going _ => exact going

/-- A step of an open operation: an action that commits it is its own, or an earlier one. -/
theorem FailsBehind.step (law : FailsBehind contract phase behind fails)
    {run next : OperationRun Op Phase Payload} {event : Reconciliation}
    (sound : Behind phase behind run) (step : ReconcileStep contract run event next)
    : Behind phase behind next := by
  cases step with
  | @reconcile decision going decided =>
    intro still committed
    have unsettled : decision.kind.settles = false := by
      simpa [OperationRun.open_] using still
    dsimp only
    rw [law.advances]
    simp only [OperationRun.committed, List.any_append, Bool.or_eq_true] at committed
    rcases committed with earlier | own
    · exact law.stays _ _ _ _ _ decided (sound going earlier) unsettled
    · cases emitted : decision.action with
      | none => simp [emitted] at own
      | some action =>
        exact law.enters _ _ _ _ _ action decided emitted (by simpa [emitted] using own)

/-- A step fails an operation behind an irrevocable action exactly where `fails` says so. -/
theorem FailsBehind.safe_iff (law : FailsBehind contract phase behind fails)
    {run next : OperationRun Op Phase Payload} {event : Reconciliation}
    (sound : Behind phase behind run) (step : ReconcileStep contract run event next)
    : SafeFailure next ↔ ¬ (run.committed = true ∧ fails run.op event) := by
  cases step with
  | @reconcile decision going decided =>
    constructor
    · intro safe failing
      obtain ⟨committed, failing⟩ := failing
      have kind := (law.fails_iff _ _ _ decided (sound going committed)).mpr failing
      have spared := safe decision rfl kind
      simp only [OperationRun.committed, List.any_append, Bool.or_eq_false_iff] at spared
      rw [OperationRun.committed, spared.1] at committed
      cases committed
    · intro careful last settled kind
      cases settled
      have silent : decision.action = none := by
        have carries := decision.carries
        rw [kind] at carries
        simpa using carries
      have spared : run.committed = false := by
        rw [← Bool.not_eq_true]
        intro committed
        exact careful
          ⟨committed, (law.fails_iff _ _ _ decided (sound going committed)).mp kind⟩
      simpa [OperationRun.committed, silent] using spared

theorem safe_of_open {run : OperationRun Op Phase Payload} (going : run.open_ = true)
    : SafeFailure run := by
  intro decision last kind
  simp [OperationRun.open_, last, kind, ControllerDecisionKind.settles] at going

theorem FailsBehind.runs (law : FailsBehind contract phase behind fails)
    {events : List Reconciliation} {run : OperationRun Op Phase Payload}
    (taken : Run (CreatedRun phase created) (ReconcileStep contract) events run)
    : SafeFailure run
      ↔ Run (CreatedRun phase created) (CarefulStep contract fails) events run := by
  have unbroken : SafeFailure run ↔ Run (CreatedRun phase created)
      (fun run event next => ReconcileStep contract run event next ∧ SafeFailure next)
      events run :=
    taken.unbroken_iff (fun _ fresh => fresh.safe)
      (fun _ _ _ step => safe_of_open step.open_before)
  have exact_ : ∀ start event next, Behind phase behind start
      → ((ReconcileStep contract start event next ∧ SafeFailure next)
        ↔ CarefulStep contract fails start event next) :=
    fun start event next sound => and_congr_right (fun step => law.safe_iff sound step)
  exact unbroken.trans (Run.iff_of_invariant (fun _ fresh => fresh.uncommitted)
    (fun _ _ _ sound step => law.step sound step.1) exact_)

theorem FailsBehind.runs_safe
    (law : FailsBehind contract phase behind (fun _ _ => False))
    {events : List Reconciliation} {run : OperationRun Op Phase Payload}
    (taken : Run (CreatedRun phase created) (ReconcileStep contract) events run)
    : SafeFailure run :=
  (law.runs taken).mpr (taken.map id (fun _ fresh => fresh)
    (fun _ _ _ step => ⟨step, fun failing => failing.2⟩))

end Runs

----------------------------------------
-- Reserved actions
----------------------------------------

/-- An irrevocable action of a decision leads to one of the given phases. -/
def Reserves {Phase Payload : Type} (behind : Phase → Prop)
    (decision : ControllerDecision Phase Payload)
    : Prop :=
  ∀ action, decision.action = some action → action.duplicatePolicy.irrevocable = true
    → behind decision.nextPhase

variable {reason : String} {predicates : List PredicateResult}

section Reserves

variable {Phase Payload : Type} {behind : Phase → Prop}

theorem reserves_silent {decision : ControllerDecision Phase Payload}
    (silent : decision.action = none)
    : Reserves behind decision := by
  intro action emitted
  rw [silent] at emitted
  cases emitted

theorem reserves_revocable {decision : ControllerDecision Phase Payload}
    {action : SemanticAction Payload} (emitted : decision.action = some action)
    (revocable : action.duplicatePolicy.irrevocable = false)
    : Reserves behind decision := by
  intro other same irrevocable
  cases emitted.symm.trans same
  rw [revocable] at irrevocable
  cases irrevocable

theorem reserves_behind {decision : ControllerDecision Phase Payload}
    (next : behind decision.nextPhase)
    : Reserves behind decision :=
  fun _ _ _ => next

/-- A decision that waits behind its action, succeeds or escalates. -/
structure Persists (behind : Phase → Prop) (decision : ControllerDecision Phase Payload)
    : Prop where
  unfailing : decision.kind ≠ .fail
  stays : decision.kind.settles = false → behind decision.nextPhase

theorem persists_observe {nextPhase : Phase} (next : behind nextPhase)
    : Persists behind
        (.observe nextPhase reason predicates : ControllerDecision Phase Payload) :=
  ⟨nofun, fun _ => next⟩

theorem persists_emit {nextPhase : Phase} {action : SemanticAction Payload}
    (next : behind nextPhase)
    : Persists behind (.emit nextPhase action reason predicates) :=
  ⟨nofun, fun _ => next⟩

theorem persists_succeed {nextPhase : Phase}
    : Persists behind
        (.succeed nextPhase reason predicates : ControllerDecision Phase Payload) :=
  ⟨nofun, nofun⟩

theorem persists_escalate {nextPhase : Phase}
    : Persists behind
        (.escalate nextPhase reason predicates : ControllerDecision Phase Payload) :=
  ⟨nofun, nofun⟩

theorem Persists.reserves {decision : ControllerDecision Phase Payload}
    (persists : Persists behind decision)
    : Reserves behind decision := by
  intro action emitted _
  have kind : decision.kind = .emitAction := decision.carries.mpr (by rw [emitted]; rfl)
  exact persists.stays (by rw [kind]; rfl)

end Reserves

theorem ok_of_toOption {ε α : Type} {result : Except ε α} {value : α}
    (returned : result.toOption = some value)
    : result = .ok value := by
  cases result with
  | error _ => cases returned
  | ok other => exact congrArg Except.ok (Option.some.inj returned)

----------------------------------------
-- Prompt submissions
----------------------------------------

def SubmitPhase.behindCommit : SubmitPhase → Prop
  | .commitEmitted => True
  | .awaitingAcknowledgment => True
  | .submissionConfirmed => True
  | .awaitingCompletion => True
  | _ => False

/-- The deadline of a submission passes behind its acknowledgment. -/
def ExpiresAcknowledged (op : SubmitPromptOperation) (event : Reconciliation) : Prop :=
  (op.envelope.phase = .submissionConfirmed ∨ op.envelope.phase = .awaitingCompletion)
  ∧ op.expired event.now = true

section Submit

variable {op : SubmitPromptOperation} {snapshot : ObservationSnapshot}
  {actionId : ActionId} {now : Timestamp} {decision : SubmitDecision}

theorem reserves_inserting
    : Reserves SubmitPhase.behindCommit (reconcileInserting op snapshot actionId) := by
  unfold reconcileInserting
  dsimp only
  split
  · exact reserves_silent rfl
  · exact reserves_revocable rfl rfl

theorem reserves_ready : Reserves SubmitPhase.behindCommit (reconcileReady op actionId) := by
  unfold reconcileReady
  split
  · exact reserves_silent rfl
  · exact reserves_behind trivial

theorem persists_acknowledgment
    : Persists SubmitPhase.behindCommit (reconcileAcknowledgment op snapshot) := by
  unfold reconcileAcknowledgment
  dsimp only
  split
  · split
    · exact persists_observe trivial
    · exact persists_succeed
  · exact persists_escalate
  · exact persists_observe trivial

theorem persists_completion
    : Persists SubmitPhase.behindCommit (reconcileCompletion op snapshot) := by
  unfold reconcileCompletion
  dsimp only
  split
  · exact persists_succeed
  · exact persists_observe trivial

variable [DecimalDigits]

theorem reserves_clearing (decided : reconcileClearing op snapshot actionId = .ok decision)
    : Reserves SubmitPhase.behindCommit decision := by
  unfold reconcileClearing at decided
  obtain ⟨result, -, decided⟩ := except_bind_ok.mp decided
  split at decided
  · cases decided
    exact reserves_silent rfl
  split at decided
  · cases decided
    exact reserves_silent rfl
  split at decided
  · cases decided
    exact reserves_silent rfl
  split at decided
  · cases decided
    exact reserves_silent rfl
  · cases decided
    exact reserves_revocable rfl rfl

theorem reserves_verifying (decided : reconcileVerifying op snapshot = .ok decision)
    : Reserves SubmitPhase.behindCommit decision := by
  unfold reconcileVerifying at decided
  obtain ⟨result, -, decided⟩ := except_bind_ok.mp decided
  split at decided
  · cases decided
    exact reserves_silent rfl
  · cases decided
    exact reserves_silent rfl

theorem reserves_submitPhase
    (decided : reconcilePhase op snapshot actionId = .ok decision)
    : Reserves SubmitPhase.behindCommit decision := by
  unfold reconcilePhase at decided
  split at decided
  case h_2 =>
    dsimp only at decided
    split at decided
    · cases decided
      exact reserves_silent rfl
    · cases decided
      exact reserves_silent rfl
  case h_3 => exact reserves_clearing decided
  case h_4 =>
    cases decided
    exact reserves_inserting
  case h_5 => exact reserves_verifying decided
  case h_6 =>
    cases decided
    exact reserves_ready
  case h_7 =>
    cases decided
    exact persists_acknowledgment.reserves
  case h_8 =>
    cases decided
    exact persists_acknowledgment.reserves
  case h_10 =>
    cases decided
    exact persists_completion.reserves
  all_goals
    cases decided
    exact reserves_silent rfl

theorem reserves_submit
    (decided : reconcileSubmitPrompt op snapshot actionId now = .ok decision)
    : Reserves SubmitPhase.behindCommit decision := by
  unfold reconcileSubmitPrompt at decided
  split at decided
  · split at decided
    · cases decided
      exact reserves_silent rfl
    · cases decided
      exact reserves_silent rfl
  split at decided
  · cases decided
    exact reserves_silent rfl
  · exact reserves_submitPhase decided

theorem persists_submitPhase (behind : op.envelope.phase.behindCommit)
    (decided : reconcilePhase op snapshot actionId = .ok decision)
    : Persists SubmitPhase.behindCommit decision := by
  unfold reconcilePhase at decided
  cases phase : op.envelope.phase with
  | commitEmitted =>
    rw [phase] at decided
    cases decided
    exact persists_acknowledgment
  | awaitingAcknowledgment =>
    rw [phase] at decided
    cases decided
    exact persists_acknowledgment
  | submissionConfirmed =>
    rw [phase] at decided
    cases decided
    exact persists_observe trivial
  | awaitingCompletion =>
    rw [phase] at decided
    cases decided
    exact persists_completion
  | _ =>
    rw [phase] at behind
    exact behind.elim

/-- Behind the commit a submission fails where its deadline passes behind the
acknowledgment, and nowhere else.
-/
theorem submit_behind (behind : op.envelope.phase.behindCommit)
    (decided : reconcileSubmitPrompt op snapshot actionId now = .ok decision)
    : (decision.kind = .fail ↔ ExpiresAcknowledged op ⟨snapshot, actionId, now⟩)
      ∧ (decision.kind.settles = false → decision.nextPhase.behindCommit) := by
  have acknowledged : op.envelope.phase ≠ .commitEmitted
      → op.envelope.phase ≠ .awaitingAcknowledgment
      → op.envelope.phase = .submissionConfirmed ∨ op.envelope.phase = .awaitingCompletion := by
    intro emitted awaiting
    cases phase : op.envelope.phase <;> simp_all [SubmitPhase.behindCommit]
  unfold reconcileSubmitPrompt at decided
  unfold ExpiresAcknowledged
  split at decided
  · next expired =>
      split at decided
      · next pending =>
          cases decided
          refine ⟨⟨nofun, fun late => ?_⟩, nofun⟩
          rcases late.1 with phase | phase <;> simp [phase] at pending
      · next settled =>
          cases decided
          have apart := not_or.mp settled
          exact ⟨⟨fun _ => ⟨acknowledged apart.1 apart.2, expired⟩, fun _ => rfl⟩, nofun⟩
  next live =>
  have persists : Persists SubmitPhase.behindCommit decision := by
    split at decided
    · cases decided
      exact persists_escalate
    · exact persists_submitPhase behind decided
  exact ⟨⟨fun failed => absurd failed persists.unfailing, fun late => absurd late.2 live⟩,
    persists.stays⟩

theorem submit_failsBehind
    : FailsBehind submitContract (·.envelope.phase) SubmitPhase.behindCommit
        ExpiresAcknowledged where
  advances _ _ _ _ := rfl
  enters _ _ _ _ _ action decided := reserves_submit (ok_of_toOption decided) action
  stays _ _ _ _ _ decided behind := (submit_behind behind (ok_of_toOption decided)).2
  fails_iff _ _ _ decided behind := (submit_behind behind (ok_of_toOption decided)).1

end Submit

----------------------------------------
-- Permission responses
----------------------------------------

theorem terminal_of_escalate {status : OperationStatus} {kind : ControllerDecisionKind}
    (escalates : kind = .escalate)
    : (statusAfter status kind).terminal = true := by
  rw [escalates]
  rfl

def permissionContract [Sha256] [PyRepr]
    : ReducerContract AnswerPermissionOperation ObservationSnapshot AnswerPermissionPhase
        AnswerPermission where
  reconcile op snapshot _ now := some (reconcileAnswerPermission op snapshot now)
  advance := advanceAnswerPermission
  operationId op := op.envelope.operationId
  status op := op.envelope.status
  actionHistory op := op.envelope.actionHistory
  escalatedPhase _ := .escalated
  keepsId _ _ _ _ := rfl
  settles _ _ _ _ _ _ observes emits := terminal_statusAfter observes emits
  escalates _ _ _ _ := terminal_of_escalate

def AnswerPermissionPhase.behindResponse : AnswerPermissionPhase → Prop
  | .responseEmitted => True
  | .awaitingAcknowledgment => True
  | _ => False

section Permission

variable [Sha256] {op : AnswerPermissionOperation} {snapshot : ObservationSnapshot}
  {now : Timestamp}

theorem persists_response
    : Persists AnswerPermissionPhase.behindResponse (reconcileResponse op snapshot) := by
  unfold reconcileResponse
  dsimp only
  split
  · exact persists_succeed
  · exact persists_escalate
  · exact persists_observe trivial

variable [PyRepr]

theorem reserves_permissionPhase
    : Reserves AnswerPermissionPhase.behindResponse
        (reconcilePermissionPhase op snapshot) := by
  unfold reconcilePermissionPhase
  split
  case h_2 =>
    unfold reconcileAwaitingRequest
    dsimp only
    split <;> exact reserves_silent rfl
  case h_3 =>
    unfold reconcileReadyToRespond
    dsimp only
    split_ifs
    · exact reserves_silent rfl
    · exact reserves_silent rfl
    · exact reserves_silent rfl
    · exact reserves_behind trivial
  case h_4 => exact persists_response.reserves
  case h_5 => exact persists_response.reserves
  all_goals exact reserves_silent rfl

theorem reserves_permission
    : Reserves AnswerPermissionPhase.behindResponse
        (reconcileAnswerPermission op snapshot now) := by
  unfold reconcileAnswerPermission
  split_ifs
  · exact reserves_silent rfl
  · exact reserves_silent rfl
  · exact reserves_silent rfl
  · exact reserves_permissionPhase

theorem persists_permission (behind : op.envelope.phase.behindResponse)
    : Persists AnswerPermissionPhase.behindResponse
        (reconcileAnswerPermission op snapshot now) := by
  have waits : op.envelope.phase = .responseEmitted
      ∨ op.envelope.phase = .awaitingAcknowledgment := by
    cases phase : op.envelope.phase <;> simp_all [AnswerPermissionPhase.behindResponse]
  unfold reconcileAnswerPermission
  rw [if_pos waits]
  split_ifs
  · exact persists_escalate
  · exact persists_escalate
  · unfold reconcilePermissionPhase
    rcases waits with phase | phase
    · rw [phase]
      exact persists_response
    · rw [phase]
      exact persists_response

theorem permission_failsBehind
    : FailsBehind permissionContract (·.envelope.phase) AnswerPermissionPhase.behindResponse
        (fun _ _ => False) where
  advances _ _ _ _ := rfl
  enters _ _ _ _ _ action decided := by
    cases decided
    exact reserves_permission action
  stays _ _ _ _ _ decided behind := by
    cases decided
    exact (persists_permission behind).stays
  fails_iff _ _ _ decided behind := by
    cases decided
    exact iff_of_false (persists_permission behind).unfailing not_false

end Permission

----------------------------------------
-- Question answers
----------------------------------------

def questionContract [Sha256] [PyRepr] [CaseMapping]
    : ReducerContract AnswerQuestionOperation ObservationSnapshot AnswerQuestionPhase
        AnswerQuestion where
  reconcile op snapshot _ now := some (reconcileAnswerQuestion op snapshot now)
  advance := advanceAnswerQuestion
  operationId op := op.envelope.operationId
  status op := op.envelope.status
  actionHistory op := op.envelope.actionHistory
  escalatedPhase _ := .escalated
  keepsId _ _ _ _ := rfl
  settles _ _ _ _ _ _ observes emits := terminal_statusAfter observes emits
  escalates _ _ _ _ := terminal_of_escalate

def AnswerQuestionPhase.behindAnswer : AnswerQuestionPhase → Prop
  | .answerEmitted => True
  | .awaitingAcknowledgment => True
  | _ => False

section Question

variable [Sha256] [CaseMapping] {op : AnswerQuestionOperation} {snapshot : ObservationSnapshot}
  {now : Timestamp}

theorem persists_answer
    : Persists AnswerQuestionPhase.behindAnswer (reconcileAnswer op snapshot) := by
  unfold reconcileAnswer
  dsimp only
  split
  · exact persists_succeed
  · exact persists_escalate
  · exact persists_observe trivial

variable [PyRepr]

theorem reserves_questionPhase
    : Reserves AnswerQuestionPhase.behindAnswer (reconcileQuestionPhase op snapshot) := by
  unfold reconcileQuestionPhase
  split
  case h_2 =>
    unfold reconcileAwaitingQuestion
    dsimp only
    split <;> exact reserves_silent rfl
  case h_3 =>
    unfold reconcileReadyToAnswer
    dsimp only
    split_ifs
    · exact reserves_silent rfl
    · exact reserves_silent rfl
    · exact reserves_silent rfl
    · exact reserves_behind trivial
  case h_4 => exact persists_answer.reserves
  case h_5 => exact persists_answer.reserves
  all_goals exact reserves_silent rfl

theorem reserves_question
    : Reserves AnswerQuestionPhase.behindAnswer (reconcileAnswerQuestion op snapshot now) := by
  unfold reconcileAnswerQuestion
  split_ifs
  · exact reserves_silent rfl
  · exact reserves_silent rfl
  · exact reserves_silent rfl
  · exact reserves_questionPhase

theorem persists_question (behind : op.envelope.phase.behindAnswer)
    : Persists AnswerQuestionPhase.behindAnswer (reconcileAnswerQuestion op snapshot now) := by
  have waits : op.envelope.phase = .answerEmitted
      ∨ op.envelope.phase = .awaitingAcknowledgment := by
    cases phase : op.envelope.phase <;> simp_all [AnswerQuestionPhase.behindAnswer]
  unfold reconcileAnswerQuestion
  rw [if_pos waits]
  split_ifs
  · exact persists_escalate
  · exact persists_escalate
  · unfold reconcileQuestionPhase
    rcases waits with phase | phase
    · rw [phase]
      exact persists_answer
    · rw [phase]
      exact persists_answer

theorem question_failsBehind
    : FailsBehind questionContract (·.envelope.phase) AnswerQuestionPhase.behindAnswer
        (fun _ _ => False) where
  advances _ _ _ _ := rfl
  enters _ _ _ _ _ action decided := by
    cases decided
    exact reserves_question action
  stays _ _ _ _ _ decided behind := by
    cases decided
    exact (persists_question behind).stays
  fails_iff _ _ _ decided behind := by
    cases decided
    exact iff_of_false (persists_question behind).unfailing not_false

end Question

----------------------------------------
-- Model selections
----------------------------------------

def modelContract [CaseMapping] [DecimalDigits] [DigitCharacters]
    : ReducerContract SelectModelOperation ObservationSnapshot ModelSelectionPhase
        ModelAction where
  reconcile op snapshot actionId now :=
    (reconcileModelSelection op snapshot actionId now).toOption
  advance := advanceModelSelection
  operationId op := op.envelope.operationId
  status op := op.envelope.status
  actionHistory op := op.envelope.actionHistory
  escalatedPhase _ := .escalated
  keepsId _ _ _ _ := rfl
  settles _ _ _ _ _ _ observes emits := terminal_statusAfter observes emits
  escalates _ _ _ _ := terminal_of_escalate

def ModelSelectionPhase.working : ModelSelectionPhase → Prop
  | .created => False
  | .ambiguous => False
  | .succeeded => False
  | .failed => False
  | .escalated => False
  | _ => True

/-- The picker is known to exclude the target: the row is disabled, or the search is back
where it started.
-/
def ExcludesTarget [CaseMapping] [DecimalDigits] [DigitCharacters] (op : SelectModelOperation)
    (snapshot : ObservationSnapshot) : Prop :=
  rpcBackend snapshot = false
  ∧ (modelConfigurationMatches op.request.target snapshot).value ≠ .true
  ∧ editsTarget op snapshot = false
  ∧ (∃ availability, targetIsAvailable op.request.target snapshot = .ok availability
    ∧ availability.value = .false)
  ∧ (targetIsVisiblyDisabled op.request.target snapshot = true
    ∨ op.configurationSearchActionIds ≠ [] ∧ highlightedModelId snapshot ≠ none
      ∧ op.configurationSearchStartModelId = highlightedModelId snapshot)

/-- A healthy observation at which a selection fails: its deadline passes in a phase that
does not escalate at it, or the picker excludes the target.
-/
def FailsSelecting [CaseMapping] [DecimalDigits] [DigitCharacters] (op : SelectModelOperation)
    (event : Reconciliation) : Prop :=
  event.snapshot.health.requiresEscalation = false
  ∧ if op.expired event.now then op.envelope.phase.escalatesAtDeadline = false
    else op.envelope.phase = .ensuringConfiguration ∧ ExcludesTarget op event.snapshot

variable {availability : PredicateResult}

section Model

variable {op : SelectModelOperation} {snapshot : ObservationSnapshot} {actionId : ActionId}
  {now : Timestamp} {decision : ModelDecision}

theorem persists_searchStep
    : Persists ModelSelectionPhase.working (reconcileSearchStep op snapshot) := by
  unfold reconcileSearchStep
  split_ifs
  · exact persists_escalate
  · exact persists_observe trivial
  · exact persists_observe trivial
  · exact persists_escalate

variable [CaseMapping]

theorem persists_modelCreated
    : Persists ModelSelectionPhase.working (reconcileModelCreated op snapshot) := by
  unfold reconcileModelCreated
  dsimp only
  split_ifs
  · exact persists_succeed
  · exact persists_succeed
  · exact persists_observe trivial

theorem persists_rpcBackend
    : Persists ModelSelectionPhase.working (reconcileRpcBackend op snapshot actionId) := by
  unfold reconcileRpcBackend
  dsimp only
  split_ifs
  · exact persists_succeed
  · exact persists_observe trivial
  · exact persists_emit trivial

theorem persists_configured
    : Persists ModelSelectionPhase.working (reconcileConfigured op snapshot actionId) := by
  unfold reconcileConfigured
  dsimp only
  split_ifs
  · exact persists_emit trivial
  · exact persists_succeed
  · exact persists_observe trivial

theorem persists_editor
    : Persists ModelSelectionPhase.working (reconcileEditor op snapshot actionId) := by
  unfold reconcileEditor
  dsimp only
  split_ifs
  · exact persists_emit trivial
  · exact persists_emit trivial

theorem persists_opening
    : Persists ModelSelectionPhase.working (reconcileOpening op snapshot actionId) := by
  unfold reconcileOpening
  dsimp only
  split_ifs
  · exact persists_observe trivial
  · exact persists_observe trivial
  · exact persists_escalate
  · exact persists_emit trivial

theorem persists_configuring
    : Persists ModelSelectionPhase.working
        (reconcileConfiguring op snapshot actionId availability) := by
  unfold reconcileConfiguring
  dsimp only
  split_ifs
  · exact persists_escalate
  · exact persists_emit trivial

theorem persists_configurationPicker
    : Persists ModelSelectionPhase.working
        (reconcileConfigurationPicker op snapshot actionId) := by
  unfold reconcileConfigurationPicker
  dsimp only
  split_ifs
  · exact persists_escalate
  · exact persists_observe trivial
  · exact persists_observe trivial
  · exact persists_emit trivial
  · exact persists_succeed
  · exact persists_escalate

theorem persists_configuration
    : Persists ModelSelectionPhase.working (reconcileConfiguration op snapshot actionId) := by
  unfold reconcileConfiguration
  dsimp only
  split_ifs
  · exact persists_escalate
  · exact persists_observe trivial
  · exact persists_succeed
  · exact persists_emit trivial
  · exact persists_emit trivial
  · split
    · exact persists_observe trivial
    · exact persists_escalate
    · exact persists_observe trivial

theorem persists_parameterSelection
    : Persists ModelSelectionPhase.working
        (reconcileParameterSelection op snapshot actionId) := by
  unfold reconcileParameterSelection
  dsimp only
  split_ifs
  · exact persists_escalate
  · exact persists_observe trivial
  · exact persists_emit trivial
  · exact persists_succeed
  · exact persists_emit trivial
  · exact persists_escalate

theorem persists_confirmation
    : Persists ModelSelectionPhase.working (reconcileConfirmation op snapshot actionId) := by
  unfold reconcileConfirmation
  dsimp only
  split_ifs
  · exact persists_escalate
  · exact persists_observe trivial
  · exact persists_emit trivial
  · exact persists_emit trivial
  · exact persists_succeed
  · exact persists_emit trivial
  · exact persists_observe trivial
  · exact persists_observe trivial

theorem persists_reopening
    : Persists ModelSelectionPhase.working (reconcileReopening op snapshot actionId) := by
  unfold reconcileReopening
  dsimp only
  split_ifs
  · exact persists_observe trivial
  · exact persists_succeed
  · exact persists_escalate
  · exact persists_escalate
  · exact persists_observe trivial
  · exact persists_escalate
  · exact persists_emit trivial
  · exact persists_emit trivial

theorem persists_activationPicker
    : Persists ModelSelectionPhase.working
        (reconcileActivationPicker op snapshot actionId) := by
  unfold reconcileActivationPicker
  dsimp only
  split_ifs
  · exact persists_escalate
  · exact persists_observe trivial
  · exact persists_emit trivial
  · exact persists_succeed
  · exact persists_observe trivial
  · exact persists_escalate

theorem persists_activeReadback
    : Persists ModelSelectionPhase.working
        (reconcileActiveReadback op snapshot actionId) := by
  unfold reconcileActiveReadback
  dsimp only
  split_ifs
  · exact persists_escalate
  · exact persists_observe trivial
  · exact persists_emit trivial
  · split
    · exact persists_succeed
    · exact persists_escalate
    · exact persists_observe trivial

theorem persists_restoring
    : Persists ModelSelectionPhase.working (reconcileRestoring op snapshot actionId) := by
  unfold reconcileRestoring
  dsimp only
  split_ifs
  · exact persists_escalate
  · exact persists_observe trivial
  · exact persists_emit trivial
  · exact persists_observe trivial
  · split
    · exact persists_succeed
    · exact persists_escalate
    · exact persists_observe trivial

/-- A search fails where the target is disabled or the cursor is back at its start. -/
theorem search_fails_iff
    : (reconcileSearch op snapshot actionId availability).kind = .fail
      ↔ targetIsVisiblyDisabled op.request.target snapshot = true
        ∨ op.configurationSearchActionIds ≠ [] ∧ highlightedModelId snapshot ≠ none
          ∧ op.configurationSearchStartModelId = highlightedModelId snapshot := by
  unfold reconcileSearch
  dsimp only
  split
  · next disabled => simp [disabled]
  · next enabled =>
      split
      · next unknown => simp [enabled, unknown, ControllerDecision.escalate]
      · next highlighted known =>
          split
          · next exhausted => simp [known, exhausted]
          · next further =>
              simp only [ControllerDecision.emit, enabled, known]
              refine iff_of_false nofun (not_or.mpr ⟨nofun, fun exhausted => ?_⟩)
              exact further ⟨exhausted.1, exhausted.2.2⟩

theorem search_stays
    (open_ : (reconcileSearch op snapshot actionId availability).kind.settles = false)
    : (reconcileSearch op snapshot actionId availability).nextPhase.working := by
  have unfailing : (reconcileSearch op snapshot actionId availability).kind ≠ .fail := by
    intro failed
    rw [failed] at open_
    cases open_
  obtain ⟨enabled, further⟩ := not_or.mp (mt search_fails_iff.mpr unfailing)
  unfold reconcileSearch at open_ ⊢
  rw [if_neg enabled] at open_ ⊢
  split at open_
  · cases open_
  · next highlighted known =>
      rw [known] at further
      rw [if_neg (fun exhausted => further ⟨exhausted.1, nofun, exhausted.2⟩)]
      trivial

variable [DecimalDigits] [DigitCharacters]

/-- The first phase behind the creation fails where the picker excludes the target. -/
theorem ensuring_cases
    (decided : reconcileEnsuring op snapshot actionId = .ok decision)
    : (decision.kind = .fail ↔ ExcludesTarget op snapshot)
      ∧ (decision.kind.settles = false → decision.nextPhase.working) := by
  unfold reconcileEnsuring at decided
  unfold ExcludesTarget
  dsimp only at decided
  split at decided
  · next rpc =>
      cases decided
      exact ⟨iff_of_false persists_rpcBackend.unfailing (by simp [rpc]),
        persists_rpcBackend.stays⟩
  split at decided
  · next configured =>
      cases decided
      exact ⟨iff_of_false persists_configured.unfailing (by simp [configured]),
        persists_configured.stays⟩
  split at decided
  · next edits =>
      cases decided
      exact ⟨iff_of_false persists_editor.unfailing (by simp [edits]), persists_editor.stays⟩
  next rpc configured edits =>
  obtain ⟨availability, looked, decided⟩ := except_bind_ok.mp decided
  rw [looked]
  split at decided
  · next excluded =>
      cases decided
      refine ⟨search_fails_iff.trans ?_, search_stays⟩
      simp [rpc, configured, edits, excluded]
  next offered =>
  have spared : ¬ ∃ other, (.ok availability : Except SubmitError PredicateResult) = .ok other
      ∧ other.value = .false := by
    intro ⟨other, same, excluded⟩
    cases same
    exact offered excluded
  split at decided
  · cases decided
    exact ⟨iff_of_false persists_opening.unfailing (fun excludes => spared excludes.2.2.2.1),
      persists_opening.stays⟩
  · cases decided
    exact ⟨iff_of_false persists_configuring.unfailing
      (fun excludes => spared excludes.2.2.2.1), persists_configuring.stays⟩

/-- What a phase decides once neither the health nor the deadline stops it. -/
theorem modelPhase_cases (decided : reconcileModelPhase op snapshot actionId = .ok decision)
    : (op.envelope.phase.working
        → (decision.kind = .fail
          ↔ op.envelope.phase = .ensuringConfiguration ∧ ExcludesTarget op snapshot))
      ∧ (decision.kind.settles = false → decision.nextPhase.working) := by
  have persisting : Persists ModelSelectionPhase.working decision
      → op.envelope.phase ≠ .ensuringConfiguration
      → (op.envelope.phase.working
          → (decision.kind = .fail
            ↔ op.envelope.phase = .ensuringConfiguration ∧ ExcludesTarget op snapshot))
        ∧ (decision.kind.settles = false → decision.nextPhase.working) :=
    fun persists other =>
      ⟨fun _ => iff_of_false persists.unfailing (fun fails => other fails.1), persists.stays⟩
  unfold reconcileModelPhase at decided
  cases phase : op.envelope.phase <;> rw [phase] at decided persisting
  case created =>
    cases decided
    exact persisting persists_modelCreated nofun
  case ensuringConfiguration =>
    have ensuring := ensuring_cases decided
    exact ⟨fun _ => ensuring.1.trans (by simp), ensuring.2⟩
  case awaitingConfigurationPicker =>
    cases decided
    exact persisting persists_configurationPicker nofun
  case awaitingConfigurationSearchStep =>
    cases decided
    exact persisting persists_searchStep nofun
  case awaitingConfiguration =>
    cases decided
    exact persisting persists_configuration nofun
  case awaitingParameterSelection =>
    cases decided
    exact persisting persists_parameterSelection nofun
  case awaitingConfigurationConfirmation =>
    cases decided
    exact persisting persists_confirmation nofun
  case reopeningPicker =>
    cases decided
    exact persisting persists_reopening nofun
  case awaitingActivationPicker =>
    cases decided
    exact persisting persists_activationPicker nofun
  case awaitingActiveReadback =>
    cases decided
    exact persisting persists_activeReadback nofun
  case restoringComposer =>
    cases decided
    exact persisting persists_restoring nofun
  case ambiguous =>
    cases decided
    exact persisting persists_escalate nofun
  all_goals
    cases decided
    exact ⟨False.elim, nofun⟩

/-- A selection behind its creation fails where its observation is healthy and either its
deadline passes in a phase that does not escalate or the picker excludes the target.
-/
theorem model_cases
    (decided : reconcileModelSelection op snapshot actionId now = .ok decision)
    : (op.envelope.phase.working
        → (decision.kind = .fail ↔ FailsSelecting op ⟨snapshot, actionId, now⟩))
      ∧ (decision.kind.settles = false → decision.nextPhase.working) := by
  unfold reconcileModelSelection at decided
  unfold FailsSelecting
  split at decided
  · next degraded =>
      cases decided
      exact ⟨fun _ => iff_of_false nofun (fun fails => by simp [degraded] at fails), nofun⟩
  next healthy =>
  split at decided
  · next expired =>
      rw [if_pos expired]
      split at decided
      · next escalates =>
          cases decided
          exact ⟨fun _ => iff_of_false nofun (fun fails => by simp [escalates] at fails),
            nofun⟩
      · next fails =>
          cases decided
          exact ⟨fun _ => iff_of_true rfl ⟨by simpa using healthy, by simpa using fails⟩,
            nofun⟩
  · next live =>
      rw [if_neg live]
      have phase := modelPhase_cases decided
      exact ⟨fun working => (phase.1 working).trans (by simp [healthy]), phase.2⟩

theorem model_failsBehind
    : FailsBehind modelContract (·.envelope.phase) ModelSelectionPhase.working
        FailsSelecting where
  advances _ _ _ _ := rfl
  enters _ _ _ _ decision action decided emitted _ := by
    have kind : decision.kind = .emitAction := decision.carries.mpr (by rw [emitted]; rfl)
    exact (model_cases (ok_of_toOption decided)).2 (by rw [kind]; rfl)
  stays _ _ _ _ _ decided _ := (model_cases (ok_of_toOption decided)).2
  fails_iff _ _ _ decided behind := (model_cases (ok_of_toOption decided)).1 behind

end Model

----------------------------------------
-- Failed operations
----------------------------------------

abbrev PromptRun := OperationRun SubmitPromptOperation SubmitPhase SubmitAction

abbrev PermissionRun :=
  OperationRun AnswerPermissionOperation AnswerPermissionPhase AnswerPermission

abbrev QuestionRun := OperationRun AnswerQuestionOperation AnswerQuestionPhase AnswerQuestion

abbrev SelectionRun := OperationRun SelectModelOperation ModelSelectionPhase ModelAction

/-- No permission and no question answer fails behind its action; a submission and a selection
do exactly in the runs with a step that is not careful.
-/
theorem failedOperations [Sha256] [PyRepr] [CaseMapping] [DecimalDigits] [DigitCharacters]
    : (∀ events (run : PromptRun),
        Run (CreatedRun (·.envelope.phase) .created) (ReconcileStep submitContract) events run
        → (SafeFailure run
          ↔ Run (CreatedRun (·.envelope.phase) .created)
              (CarefulStep submitContract ExpiresAcknowledged) events run))
      ∧ (∀ events (run : PermissionRun),
        Run (CreatedRun (·.envelope.phase) .created) (ReconcileStep permissionContract)
          events run
        → SafeFailure run)
      ∧ (∀ events (run : QuestionRun),
        Run (CreatedRun (·.envelope.phase) .created) (ReconcileStep questionContract)
          events run
        → SafeFailure run)
      ∧ (∀ events (run : SelectionRun),
        Run (CreatedRun (·.envelope.phase) .created) (ReconcileStep modelContract) events run
        → (SafeFailure run
          ↔ Run (CreatedRun (·.envelope.phase) .created)
              (CarefulStep modelContract FailsSelecting) events run)) :=
  ⟨fun _ _ taken => submit_failsBehind.runs taken,
    fun _ _ taken => permission_failsBehind.runs_safe taken,
    fun _ _ taken => question_failsBehind.runs_safe taken,
    fun _ _ taken => model_failsBehind.runs taken⟩

namespace LateCompletion

abbrev digits : DecimalDigits where
  value c := if c.isDigit then some (c.toNat - '0'.toNat) else none

abbrev digitCharacters : DigitCharacters := ⟨Char.isDigit⟩

abbrev sha256 : Sha256 := ⟨id⟩

abbrev pyRepr : PyRepr where
  repr
    | .str text => "'" ++ text ++ "'"
    | _ => ""

abbrev caseMapping : CaseMapping where
  lower := String.toLower
  casefold := String.toLower

/-- A snapshot with an actionable composer and the user turns of the transcript. -/
def shows (capture : Nat) (text : String) (turns : List String) : ObservationSnapshot where
  revision := ⟨0, capture, 0⟩
  surface := .present { blocksComposerInput := false }
  composer := .present ⟨some text, some text, some text, .actionable, some true⟩
  transcriptTail := .present ⟨none, none, turns, some false, some false, capture⟩
  health := {}

def created : PromptRun where
  op := createOperation "o" ⟨[], "go", "go"⟩ true 100 none 0

/-- A prompt is submitted and acknowledged, and its answer does not complete in time. -/
def events : List Reconciliation :=
  [⟨shows 1 "" [], "a", 1⟩, ⟨shows 2 "" [], "a", 2⟩, ⟨shows 3 "" [], "a", 3⟩,
    ⟨shows 4 "" [], "a", 4⟩, ⟨shows 5 "go" [], "b", 5⟩, ⟨shows 6 "go" [], "b", 6⟩,
    ⟨shows 7 "" ["go"], "c", 7⟩, ⟨shows 8 "" ["go"], "c", 8⟩, ⟨shows 9 "" ["go"], "c", 200⟩]

theorem submitted
    : ∃ run, Run (CreatedRun (·.envelope.phase) .created)
        (ReconcileStep (@submitContract digits)) events run
        ∧ ¬ SafeFailure run := by
  have steps : ∃ run, Steps (ReconcileStep (@submitContract digits)) created events run
      ∧ run.committed = true ∧ run.decision.map (·.kind) = some .fail := by
    refine ⟨_, .cons (.reconcile rfl rfl) (.cons (.reconcile rfl rfl)
      (.cons (.reconcile rfl rfl) (.cons (.reconcile rfl rfl) (.cons (.reconcile rfl rfl)
      (.cons (.reconcile rfl rfl) (.cons (.reconcile rfl rfl) (.cons (.reconcile rfl rfl)
      (.cons (.reconcile rfl rfl) (.nil _))))))))), ?_⟩
    decide
  obtain ⟨run, taken, committed, failed⟩ := steps
  obtain ⟨decision, last, kind⟩ := Option.map_eq_some_iff.mp failed
  refine ⟨run, ⟨created, ⟨rfl, rfl, rfl⟩, taken⟩, fun safe => ?_⟩
  have spared := safe decision last kind
  rw [committed] at spared
  cases spared

def envelope (Phase : Type) (phase : Phase) : OperationEnvelope Phase where
  operationId := "o"
  status := .pending
  phase := phase
  updatedAt := 0
  deadline := some 100

def permission : PermissionRun where
  op := {
    envelope := envelope AnswerPermissionPhase .created
    request := {
      requestIdHint := some "r"
      requestFingerprint := none
      response := { stableResponseId := none, label := "Yes", named := by decide }
      expectedRiskAttributes := none
      bound := by decide } }

def question : QuestionRun where
  op := {
    envelope := envelope AnswerQuestionPhase .created
    request := {
      questionIdHint := some "q"
      questionFingerprint := none
      mode := .decline
      bound := hinted_bound
      admitted := ⟨rfl, rfl, rfl⟩
      noted := none_noted } }

def selection : SelectionRun where
  op := {
    envelope := envelope ModelSelectionPhase .created
    request := ⟨{ modelId := "opus" }, 100⟩ }

def late : List Reconciliation := [⟨shows 1 "" [], "a", 200⟩]

/-- A deadline that passes before anything was selected: every operation fails safely. -/
theorem failedOperations_late
    : (∃ run : PromptRun, run.op.envelope.phase = .failed
        ∧ Run (CreatedRun (·.envelope.phase) .created)
            (CarefulStep (@submitContract digits) ExpiresAcknowledged) late run)
      ∧ (∃ run : PermissionRun, run.op.envelope.phase = .failed ∧ SafeFailure run)
      ∧ (∃ run : QuestionRun, run.op.envelope.phase = .failed ∧ SafeFailure run)
      ∧ (∃ run : SelectionRun, run.op.envelope.phase = .failed
        ∧ Run (CreatedRun (·.envelope.phase) .created)
            (CarefulStep (@modelContract caseMapping digits digitCharacters)
              (@FailsSelecting caseMapping digits digitCharacters)) late run) := by
  have failed := @failedOperations sha256 pyRepr caseMapping digits digitCharacters
  have prompted : Steps (ReconcileStep (@submitContract digits)) created late _ :=
    .cons (.reconcile rfl rfl) (.nil _)
  have permitted : Steps (ReconcileStep (@permissionContract sha256 pyRepr)) permission late _ :=
    .cons (.reconcile rfl rfl) (.nil _)
  have asked : Steps (ReconcileStep (@questionContract sha256 pyRepr caseMapping)) question
      late _ :=
    .cons (.reconcile rfl rfl) (.nil _)
  have selected : Steps (ReconcileStep (@modelContract caseMapping digits digitCharacters))
      selection late _ :=
    .cons (.reconcile rfl rfl) (.nil _)
  refine ⟨⟨_, rfl, (failed.1 _ _ ⟨_, ⟨rfl, rfl, rfl⟩, prompted⟩).mp fun _ _ _ => rfl⟩,
    ⟨_, rfl, failed.2.1 _ _ ⟨_, ⟨rfl, rfl, rfl⟩, permitted⟩⟩,
    ⟨_, rfl, failed.2.2.1 _ _ ⟨_, ⟨rfl, rfl, rfl⟩, asked⟩⟩,
    ⟨_, rfl, (failed.2.2.2 _ _ ⟨_, ⟨rfl, rfl, rfl⟩, selected⟩).mp fun _ _ _ => rfl⟩⟩

end LateCompletion

end Murder.Harness

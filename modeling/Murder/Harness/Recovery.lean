import Murder.Library.Runs
import Murder.Harness.SubmitPrompt

/-! Restart recovery of persisted operations, and the effects it may emit.
A plan is previewed on the snapshot recovery observed and reconciled on the snapshot the
controller holds by then.
-/

namespace Murder.Harness

open Contracts Library.Runs

def OperationStatus.terminal : OperationStatus → Bool
  | .pending => false
  | .running => false
  | _ => true

/-- `_recovery_contract`: the reducer of an operation, which may raise, and how its decisions
are recorded.  Every reducer's own decisions and the escalations of recovery settle the operation.
-/
structure ReducerContract (Op Snapshot Phase Payload : Type) where
  reconcile
    : Op → Snapshot → ActionId → Timestamp → Option (ControllerDecision Phase Payload)
  advance : Op → ControllerDecision Phase Payload → Snapshot → Timestamp → Op
  operationId : Op → OperationId
  status : Op → OperationStatus
  actionHistory : Op → List ActionId
  escalatedPhase : Op → Phase
  keepsId
    : ∀ op decision snapshot now, operationId (advance op decision snapshot now) = operationId op
  settles
    : ∀ op snapshot actionId now decision, reconcile op snapshot actionId now = some decision
        → decision.kind ≠ .observeMore → decision.kind ≠ .emitAction
        → (status (advance op decision snapshot now)).terminal = true
  escalates
    : ∀ op decision snapshot now, decision.kind = .escalate
        → (status (advance op decision snapshot now)).terminal = true

inductive EmissionStatus
  | pending
  | emitted
  | failed
deriving DecidableEq

structure PersistedAction where
  actionId : ActionId
  duplicatePolicy : DuplicatePolicy
  effectStatuses : List EmissionStatus
deriving DecidableEq

def PersistedAction.unsafeEmissionAmbiguous (action : PersistedAction) : Bool :=
  (action.duplicatePolicy == .ambiguousAfterEmission
      || action.duplicatePolicy == .neverAutomaticallyReplay)
    && action.effectStatuses.any (fun status =>
      status == .pending || status == .emitted || status == .failed)

/-- A row of the operation journal with its actions; a state that cannot be decoded is none.
-/
structure PersistedOperation (Op : Type) where
  operationId : OperationId
  status : OperationStatus
  state : Option Op
  actions : List PersistedAction

variable {Op Snapshot Phase Payload : Type}

def PersistedOperation.hasAmbiguousUnsafeEffect (row : PersistedOperation Op) : Bool :=
  row.actions.any PersistedAction.unsafeEmissionAmbiguous

def PersistedOperation.reconstruct (contract : ReducerContract Op Snapshot Phase Payload)
    (row : PersistedOperation Op)
    : Option Op :=
  row.state.filter (fun op =>
    contract.operationId op == row.operationId && contract.status op == row.status
      && contract.actionHistory op == row.actions.map (·.actionId))

/-- What recovery does next. -/
inductive RecoveryPhase (Op : Type)
  | observing
  | loading
  | looping (plans : List (PersistedOperation Op))
  | refreshing (op : Op) (left : Nat) (plans : List (PersistedOperation Op))
  | reconciling (op : Op) (left : Nat) (plans : List (PersistedOperation Op))
  | returned
  | raised

/-- The journal, the controller's snapshot, the snapshot recovery works with and, for every
operation it considers, whether its past is ambiguous and what was emitted.
-/
structure Recovery (Op Snapshot : Type) where
  journal : List (PersistedOperation Op)
  snapshot : Snapshot
  seen : Snapshot
  phase : RecoveryPhase Op := .observing
  considered : List OperationId := []
  guarded : List OperationId := []
  emitted : List OperationId := []

namespace Recovery

variable (contract : ReducerContract Op Snapshot Phase Payload)

/-- The journal behind a transition of one of its operations. -/
def recorded (recovery : Recovery Op Snapshot) (op : Op) (actions : List PersistedAction)
    : List (PersistedOperation Op) :=
  recovery.journal.map (fun row =>
    if row.operationId = contract.operationId op then
      { row with
        status := contract.status op
        state := some op
        actions := row.actions ++ actions }
    else
      row)

/-- `reconcile_once` behind its decision: record the advanced operation and hand the action,
if any, to the actuator.
-/
def applyDecision (recovery : Recovery Op Snapshot) (op : Op)
    (decision : ControllerDecision Phase Payload) (now : Timestamp)
    (effects : List EmissionStatus)
    : Recovery Op Snapshot × Op :=
  let advanced := contract.advance op decision recovery.snapshot now
  let actions := (decision.action.map (fun action =>
    (⟨action.actionId, action.duplicatePolicy, effects⟩ : PersistedAction))).toList
  ({ recovery with
      journal := recovery.recorded contract advanced actions
      emitted :=
        if decision.action.isSome then contract.operationId op :: recovery.emitted
        else recovery.emitted },
    advanced)

/-- `_record_recovery_escalation`. -/
def recordEscalation (recovery : Recovery Op Snapshot) (op : Op) (reason : String)
    (now : Timestamp)
    : Recovery Op Snapshot :=
  (recovery.applyDecision contract op (.escalate (contract.escalatedPhase op) reason) now []).1

/-- `escalate_recovery_candidate`. -/
def escalateCandidate (recovery : Recovery Op Snapshot) (id : OperationId)
    : Recovery Op Snapshot :=
  { recovery with
    journal := recovery.journal.map (fun row =>
      if row.operationId = id ∧ row.status.terminal = false then
        { row with status := .escalated }
      else
        row) }

/-- `load_recovery_plans`: the unfinished operations. -/
def loadPlans (recovery : Recovery Op Snapshot) : List (PersistedOperation Op) :=
  recovery.journal.filter (fun row => !row.status.terminal)

def round (recovery : Recovery Op Snapshot) (op : Op) (left : Nat)
    (plans : List (PersistedOperation Op)) (actionId : ActionId) (now : Timestamp)
    (effects : List EmissionStatus)
    : Option (Recovery Op Snapshot) := do
  let decision ← contract.reconcile op recovery.snapshot actionId now
  let (next, advanced) := recovery.applyDecision contract op decision now effects
  match decision.kind with
  | .observeMore => pure { next with phase := .refreshing advanced left plans }
  | .emitAction => pure { next with phase := .refreshing advanced left plans }
  | _ => pure { next with phase := .looping plans }

/-- The one reconciliation of an operation whose past is ambiguous. -/
def verify (recovery : Recovery Op Snapshot) (op : Op) (plans : List (PersistedOperation Op))
    (actionId : ActionId) (now : Timestamp) (effects : List EmissionStatus)
    : Option (Recovery Op Snapshot) := do
  let decision ← contract.reconcile op recovery.snapshot actionId now
  let (next, advanced) := recovery.applyDecision contract op decision now effects
  let unresolved := { next.recordEscalation contract advanced
    "fresh restart observation did not resolve the unsafe emitted operation" now with
    phase := RecoveryPhase.looping plans }
  match decision.kind with
  | .observeMore => pure unresolved
  | .emitAction => pure unresolved
  | _ => pure { next with phase := .looping plans }

def plan (recovery : Recovery Op Snapshot) (row : PersistedOperation Op)
    (plans : List (PersistedOperation Op)) (previewId actionId : ActionId) (now : Timestamp)
    (effects : List EmissionStatus)
    : Option (Recovery Op Snapshot) :=
  match row.reconstruct contract with
  | none =>
    some { recovery.escalateCandidate row.operationId with phase := .looping plans }
  | some op =>
    if row.hasAmbiguousUnsafeEffect then do
      let preview ← contract.reconcile op recovery.seen previewId now
      if preview.kind = .emitAction then
        pure { recovery.recordEscalation contract op
          "unsafe emitted operation requested another action after restart" now with
          phase := RecoveryPhase.looping plans }
      else
        recovery.verify contract op plans actionId now effects
    else
      -- the first of 120 rounds
      recovery.round contract op 119 plans actionId now effects

end Recovery

inductive RecoveryEvent (Snapshot : Type)
  | ingest (snapshot : Snapshot)
  | observe
  | load
  | plan (previewId actionId : ActionId) (now : Timestamp) (effects : List EmissionStatus)
  | round (actionId : ActionId) (now : Timestamp) (effects : List EmissionStatus)
  | raise

section Steps

variable (contract : ReducerContract Op Snapshot Phase Payload)

/-- One step of recovery, or of an ingestion beside it. -/
inductive RecoveryStep
    : Recovery Op Snapshot → RecoveryEvent Snapshot → Recovery Op Snapshot → Prop
  | ingest (recovery snapshot)
    : RecoveryStep recovery (.ingest snapshot) { recovery with snapshot := snapshot }
  | observe {recovery} (phase : recovery.phase = .observing)
    : RecoveryStep recovery .observe
        { recovery with seen := recovery.snapshot, phase := .loading }
  | load {recovery} (phase : recovery.phase = .loading)
    : RecoveryStep recovery .load
        { recovery with
          phase := .looping recovery.loadPlans
          considered := recovery.loadPlans.map (·.operationId)
          guarded := (recovery.loadPlans.filter (·.hasAmbiguousUnsafeEffect)).map
            (·.operationId) }
  | plan {recovery row plans previewId actionId now effects next}
    (phase : recovery.phase = .looping (row :: plans))
    (planned : recovery.plan contract row plans previewId actionId now effects = some next)
    : RecoveryStep recovery (.plan previewId actionId now effects) next
  | finish {recovery previewId actionId now effects} (phase : recovery.phase = .looping [])
    : RecoveryStep recovery (.plan previewId actionId now effects)
        { recovery with phase := .returned }
  | refresh {recovery op left plans} (phase : recovery.phase = .refreshing op left plans)
    : RecoveryStep recovery .observe
        { recovery with seen := recovery.snapshot, phase := .reconciling op left plans }
  | round {recovery op left plans actionId now effects next}
    (phase : recovery.phase = .reconciling op (left + 1) plans)
    (taken : recovery.round contract op left plans actionId now effects = some next)
    : RecoveryStep recovery (.round actionId now effects) next
  | exhausted {recovery op plans actionId now effects}
    (phase : recovery.phase = .reconciling op 0 plans)
    : RecoveryStep recovery (.round actionId now effects)
        { recovery.recordEscalation contract op
            "restart recovery observation budget exhausted" now with
          phase := .looping plans }
  | raise (recovery) : RecoveryStep recovery .raise { recovery with phase := .raised }

/-- Recovery as it is entered, over any journal without two rows of one operation. -/
def RecoveryStart (recovery : Recovery Op Snapshot) : Prop :=
  ∃ journal snapshot seen,
    (journal.map (·.operationId)).Nodup ∧ recovery = { journal, snapshot, seen }

/-- A step that emits nothing for an operation of ambiguous past and, where it ends recovery,
leaves every considered operation settled.
-/
structure NoReplayStep (recovery : Recovery Op Snapshot) (event : RecoveryEvent Snapshot)
    (next : Recovery Op Snapshot) : Prop where
  step : RecoveryStep contract recovery event next
  spared : ∀ id ∈ next.emitted, id ∉ next.guarded
  settled
    : next.phase = .returned
        → ∀ row ∈ next.journal, row.operationId ∈ next.considered → row.status.terminal = true

/-- A step on whose snapshot an operation that passed the preview asks for no action. -/
structure PreviewedStep (recovery : Recovery Op Snapshot) (event : RecoveryEvent Snapshot)
    (next : Recovery Op Snapshot) : Prop where
  step : RecoveryStep contract recovery event next
  agrees
    : ∀ row plans previewId actionId now effects op preview decision,
        recovery.phase = .looping (row :: plans) → event = .plan previewId actionId now effects
        → row.hasAmbiguousUnsafeEffect = true → row.reconstruct contract = some op
        → contract.reconcile op recovery.seen previewId now = some preview
        → preview.kind ≠ .emitAction
        → contract.reconcile op recovery.snapshot actionId now = some decision
        → decision.kind ≠ .emitAction

end Steps

----------------------------------------
-- What recovery does to the journal
----------------------------------------

variable {decision : ControllerDecision Phase Payload} {now : Timestamp}
  {effects : List EmissionStatus}

section Journal

variable {contract : ReducerContract Op Snapshot Phase Payload}
  {recovery middle next : Recovery Op Snapshot} {id : OperationId}

/-- Only the rows of one operation change, and nothing is reclassified. -/
structure Touched (recovery next : Recovery Op Snapshot) (id : OperationId) : Prop where
  ids : next.journal.map (·.operationId) = recovery.journal.map (·.operationId)
  others
    : ∀ row ∈ next.journal, row.operationId ≠ id
        → ∃ old ∈ recovery.journal,
          old.operationId = row.operationId ∧ old.status = row.status
  considered : next.considered = recovery.considered
  guarded : next.guarded = recovery.guarded

def Closed (next : Recovery Op Snapshot) (id : OperationId) : Prop :=
  ∀ row ∈ next.journal, row.operationId = id → row.status.terminal = true

theorem Touched.trans (first : Touched recovery middle id) (second : Touched middle next id)
    : Touched recovery next id where
  ids := second.ids.trans first.ids
  others row member apart := by
    obtain ⟨old, known, same, status⟩ := second.others row member apart
    obtain ⟨older, stored, same', status'⟩ := first.others old known (by rwa [same])
    exact ⟨older, stored, same'.trans same, status'.trans status⟩
  considered := second.considered.trans first.considered
  guarded := second.guarded.trans first.guarded

theorem Touched.of_phase (h : Touched recovery next id) (phase : RecoveryPhase Op)
    : Touched recovery { next with phase := phase } id :=
  ⟨h.ids, h.others, h.considered, h.guarded⟩

theorem touched_applyDecision (op : Op) (decision : ControllerDecision Phase Payload)
    (now : Timestamp) (effects : List EmissionStatus)
    : Touched recovery (recovery.applyDecision contract op decision now effects).1
        (contract.operationId op) := by
  refine ⟨?_, fun row member apart => ?_, rfl, rfl⟩
  · change (recovery.recorded contract _ _).map _ = _
    unfold Recovery.recorded
    rw [List.map_map]
    apply List.map_congr_left
    intro row member
    dsimp only [Function.comp_apply]
    split
    · rfl
    · rfl
  · obtain ⟨old, known, rfl⟩ := List.mem_map.mp member
    refine ⟨old, known, ?_⟩
    split
    · next same =>
        rw [if_pos same] at apart
        exact absurd (same.trans (contract.keepsId _ _ _ _)) apart
    · exact ⟨rfl, rfl⟩

theorem status_applyDecision {op : Op}
    (terminal
      : (contract.status (contract.advance op decision recovery.snapshot now)).terminal = true)
    : Closed (recovery.applyDecision contract op decision now effects).1
        (contract.operationId op) := by
  intro row member same
  obtain ⟨old, known, rfl⟩ := List.mem_map.mp member
  split at same
  · next own =>
      rw [if_pos own]
      exact terminal
  · next other =>
      rw [contract.keepsId] at other
      exact absurd same other

theorem closed_recordEscalation (op : Op) (reason : String) (now : Timestamp)
    : Closed (recovery.recordEscalation contract op reason now) (contract.operationId op) :=
  status_applyDecision (contract.escalates _ _ _ _ rfl)

theorem touched_escalateCandidate (recovery : Recovery Op Snapshot) (id : OperationId)
    : Touched recovery (recovery.escalateCandidate id) id := by
  refine ⟨?_, fun row member apart => ?_, rfl, rfl⟩
  · change (List.map _ recovery.journal).map _ = _
    rw [List.map_map]
    apply List.map_congr_left
    intro row member
    dsimp only [Function.comp_apply]
    split
    · rfl
    · rfl
  · obtain ⟨old, known, rfl⟩ := List.mem_map.mp member
    refine ⟨old, known, ?_⟩
    split
    · next same =>
        rw [if_pos same] at apart
        exact absurd same.1 apart
    · exact ⟨rfl, rfl⟩

theorem closed_escalateCandidate (recovery : Recovery Op Snapshot) (id : OperationId)
    : Closed (recovery.escalateCandidate id) id := by
  intro row member same
  obtain ⟨old, known, rfl⟩ := List.mem_map.mp member
  split at same
  · next open_ =>
      rw [if_pos open_]
      rfl
  · next other =>
      rw [if_neg other]
      cases status : old.status.terminal with
      | true => rfl
      | false => exact absurd ⟨same, status⟩ other

theorem action_of_kind
    : decision.action.isSome = true ↔ decision.kind = .emitAction :=
  decision.carries.symm

theorem emitted_applyDecision (op : Op) (decision : ControllerDecision Phase Payload)
    (now : Timestamp) (effects : List EmissionStatus)
    : (recovery.applyDecision contract op decision now effects).1.emitted
      = if decision.kind = .emitAction then contract.operationId op :: recovery.emitted
        else recovery.emitted := by
  unfold Recovery.applyDecision
  dsimp only
  by_cases emits : decision.kind = .emitAction
  · rw [if_pos emits, if_pos (action_of_kind.mpr emits)]
  · rw [if_neg emits, if_neg (fun acts => emits (action_of_kind.mp acts))]

end Journal

----------------------------------------
-- The invariant
----------------------------------------

def RecoveryPhase.plans : RecoveryPhase Op → List (PersistedOperation Op)
  | .looping plans => plans
  | .refreshing _ _ plans => plans
  | .reconciling _ _ plans => plans
  | _ => []

/-- The operation whose rounds are under way. -/
def RecoveryPhase.active : RecoveryPhase Op → Option Op
  | .refreshing op _ _ => some op
  | .reconciling op _ _ => some op
  | _ => none

variable {plans : List (PersistedOperation Op)} {actionId : ActionId}

section Invariant

variable {contract : ReducerContract Op Snapshot Phase Payload}
  {recovery next : Recovery Op Snapshot}

def Recovery.unsettled (contract : ReducerContract Op Snapshot Phase Payload)
    (recovery : Recovery Op Snapshot)
    : List OperationId :=
  (recovery.phase.active.map contract.operationId).toList
    ++ recovery.phase.plans.map (·.operationId)

structure RecoverySound (contract : ReducerContract Op Snapshot Phase Payload)
    (recovery : Recovery Op Snapshot) : Prop where
  unique : (recovery.journal.map (·.operationId)).Nodup
  spared : ∀ id ∈ recovery.emitted, id ∉ recovery.guarded
  fresh
    : recovery.phase = .observing ∨ recovery.phase = .loading
        → recovery.considered = [] ∧ recovery.emitted = []
  distinct : (recovery.unsettled contract).Nodup
  classified
    : ∀ plan ∈ recovery.phase.plans,
        plan.operationId ∈ recovery.guarded ↔ plan.hasAmbiguousUnsafeEffect = true
  unguarded
    : ∀ op, recovery.phase.active = some op → contract.operationId op ∉ recovery.guarded
  settled
    : recovery.phase ≠ .raised
        → ∀ row ∈ recovery.journal, row.operationId ∈ recovery.considered
          → row.operationId ∈ recovery.unsettled contract ∨ row.status.terminal = true

theorem recoverySound_of_start (h : RecoveryStart recovery) : RecoverySound contract recovery := by
  obtain ⟨journal, snapshot, seen, unique, rfl⟩ := h
  refine ⟨unique, ?_, fun _ => ⟨rfl, rfl⟩, List.nodup_nil, ?_, ?_, ?_⟩
  · intro id member
    cases member
  · intro plan member
    cases member
  · intro op active
    cases active
  · intro _ row _ considered
    cases considered

/-- The operation at the front is settled and recovery goes on with the rest. -/
theorem RecoverySound.close {id : OperationId} {plans : List (PersistedOperation Op)}
    (h : RecoverySound contract recovery)
    (front : recovery.unsettled contract = id :: plans.map (·.operationId))
    (among : ∀ plan ∈ plans, plan ∈ recovery.phase.plans) (running : recovery.phase ≠ .raised)
    (touched : Touched recovery next id) (closed : Closed next id)
    (phase : next.phase = .looping plans) (spared : ∀ other ∈ next.emitted, other ∉ next.guarded)
    : RecoverySound contract next := by
  have open_ : next.unsettled contract = plans.map (·.operationId) := by
    unfold Recovery.unsettled
    rw [phase]
    rfl
  have distinct := h.distinct
  rw [front] at distinct
  refine ⟨?_, spared, ?_, ?_, ?_, ?_, ?_⟩
  · rw [touched.ids]
    exact h.unique
  · intro early
    rw [phase] at early
    rcases early with other | other <;> cases other
  · rw [open_]
    exact (List.nodup_cons.mp distinct).2
  · intro plan member
    rw [phase] at member
    rw [touched.guarded]
    exact h.classified plan (among plan member)
  · intro op active
    rw [phase] at active
    cases active
  · intro _ row member considered
    rw [open_]
    by_cases same : row.operationId = id
    · exact .inr (closed row member same)
    · obtain ⟨old, known, own, status⟩ := touched.others row member same
      rw [touched.considered, ← own] at considered
      rcases h.settled running old known considered with waiting | done
      · rw [front, own] at waiting
        rcases List.mem_cons.mp waiting with first | rest
        · exact absurd first same
        · exact .inl rest
      · exact .inr (status ▸ done)

theorem RecoverySound.go_on {op advanced : Op} {left : Nat} (h : RecoverySound contract recovery)
    (front : recovery.unsettled contract
      = contract.operationId op :: plans.map (·.operationId))
    (among : ∀ plan ∈ plans, plan ∈ recovery.phase.plans) (running : recovery.phase ≠ .raised)
    (unguarded : contract.operationId op ∉ recovery.guarded)
    (own : contract.operationId advanced = contract.operationId op)
    (touched : Touched recovery next (contract.operationId op))
    (phase : next.phase = .refreshing advanced left plans)
    (spared : ∀ other ∈ next.emitted, other ∉ next.guarded)
    : RecoverySound contract next := by
  have open_ : next.unsettled contract
      = contract.operationId op :: plans.map (·.operationId) := by
    unfold Recovery.unsettled
    rw [phase, ← own]
    rfl
  refine ⟨?_, spared, ?_, ?_, ?_, ?_, ?_⟩
  · rw [touched.ids]
    exact h.unique
  · intro early
    rw [phase] at early
    rcases early with other | other <;> cases other
  · rw [open_, ← front]
    exact h.distinct
  · intro plan member
    rw [phase] at member
    rw [touched.guarded]
    exact h.classified plan (among plan member)
  · intro other active
    rw [phase] at active
    cases active
    rw [touched.guarded, own]
    exact unguarded
  · intro _ row member considered
    rw [open_]
    by_cases same : row.operationId = contract.operationId op
    · exact .inl (List.mem_cons.mpr (.inl same))
    · obtain ⟨old, known, same', status⟩ := touched.others row member same
      rw [touched.considered, ← same'] at considered
      rcases h.settled running old known considered with waiting | done
      · rw [front, same'] at waiting
        exact .inl waiting
      · exact .inr (status ▸ done)

theorem operationId_of_reconstruct {row : PersistedOperation Op} {op : Op}
    (h : row.reconstruct contract = some op)
    : contract.operationId op = row.operationId := by
  obtain ⟨stored, checked⟩ := Option.filter_eq_some_iff.mp h
  simp only [Bool.and_eq_true, beq_iff_eq] at checked
  exact checked.1.1

theorem round_cases {op : Op} {left : Nat}
    (taken : recovery.round contract op left plans actionId now effects = some next)
    : ∃ decision, contract.reconcile op recovery.snapshot actionId now = some decision
        ∧ Touched recovery next (contract.operationId op)
        ∧ next.emitted = (if decision.kind = .emitAction
            then contract.operationId op :: recovery.emitted else recovery.emitted)
        ∧ ((∃ advanced, contract.operationId advanced = contract.operationId op
              ∧ next.phase = .refreshing advanced left plans)
          ∨ Closed next (contract.operationId op) ∧ next.phase = .looping plans) := by
  obtain ⟨decision, decided, taken⟩ := Option.bind_eq_some_iff.mp taken
  have touched := @touched_applyDecision _ _ _ _ contract recovery op decision now effects
  have emitted := @emitted_applyDecision _ _ _ _ contract recovery op decision now effects
  refine ⟨decision, decided, ?_⟩
  dsimp only at taken
  split at taken
  · cases taken
    exact ⟨touched.of_phase _, emitted, .inl ⟨_, contract.keepsId _ _ _ _, rfl⟩⟩
  · cases taken
    exact ⟨touched.of_phase _, emitted, .inl ⟨_, contract.keepsId _ _ _ _, rfl⟩⟩
  · next observes emits =>
      cases taken
      refine ⟨touched.of_phase _, emitted, .inr ⟨?_, rfl⟩⟩
      exact status_applyDecision (contract.settles _ _ _ _ _ decided observes emits)

theorem verify_cases {op : Op}
    (taken : recovery.verify contract op plans actionId now effects = some next)
    : ∃ decision, contract.reconcile op recovery.snapshot actionId now = some decision
        ∧ Touched recovery next (contract.operationId op)
        ∧ next.emitted = (if decision.kind = .emitAction
            then contract.operationId op :: recovery.emitted else recovery.emitted)
        ∧ Closed next (contract.operationId op) ∧ next.phase = .looping plans := by
  obtain ⟨decision, decided, taken⟩ := Option.bind_eq_some_iff.mp taken
  have touched := @touched_applyDecision _ _ _ _ contract recovery op decision now effects
  have emitted := @emitted_applyDecision _ _ _ _ contract recovery op decision now effects
  have own := contract.keepsId op decision recovery.snapshot now
  refine ⟨decision, decided, ?_⟩
  dsimp only at taken
  have unresolved
      : Touched recovery ({
          (recovery.applyDecision contract op decision now effects).1.recordEscalation contract
            (recovery.applyDecision contract op decision now effects).2
            "fresh restart observation did not resolve the unsafe emitted operation" now with
          phase := RecoveryPhase.looping plans }) (contract.operationId op)
        ∧ Closed ((recovery.applyDecision contract op decision now effects).1.recordEscalation
            contract (recovery.applyDecision contract op decision now effects).2
            "fresh restart observation did not resolve the unsafe emitted operation" now)
          (contract.operationId op) := by
    have again := @touched_applyDecision _ _ _ _ contract
      (recovery.applyDecision contract op decision now effects).1
      (contract.advance op decision recovery.snapshot now)
      (.escalate (contract.escalatedPhase (contract.advance op decision recovery.snapshot now))
        "fresh restart observation did not resolve the unsafe emitted operation") now []
    have closed := @closed_recordEscalation _ _ _ _ contract
      (recovery.applyDecision contract op decision now effects).1
      (contract.advance op decision recovery.snapshot now)
      "fresh restart observation did not resolve the unsafe emitted operation" now
    rw [own] at again closed
    exact ⟨(touched.trans again).of_phase _, closed⟩
  split at taken
  · cases taken
    exact ⟨unresolved.1, emitted, unresolved.2, rfl⟩
  · cases taken
    exact ⟨unresolved.1, emitted, unresolved.2, rfl⟩
  · next observes emits =>
      cases taken
      refine ⟨touched.of_phase _, emitted, ?_, rfl⟩
      exact status_applyDecision (contract.settles _ _ _ _ _ decided observes emits)

/-- What the recovery of a plan leaves: its operation is closed or goes into rounds, and
something is emitted only on a decision of its reducer.
-/
theorem plan_cases {row : PersistedOperation Op} {previewId : ActionId}
    (planned : recovery.plan contract row plans previewId actionId now effects = some next)
    : Touched recovery next row.operationId
      ∧ (next.emitted = recovery.emitted
          ∨ next.emitted = row.operationId :: recovery.emitted
            ∧ (row.hasAmbiguousUnsafeEffect = true
              → ∃ op preview decision, row.reconstruct contract = some op
                ∧ contract.reconcile op recovery.seen previewId now = some preview
                ∧ preview.kind ≠ .emitAction
                ∧ contract.reconcile op recovery.snapshot actionId now = some decision
                ∧ decision.kind = .emitAction))
      ∧ (Closed next row.operationId ∧ next.phase = .looping plans
        ∨ row.hasAmbiguousUnsafeEffect = false
          ∧ ∃ op advanced, contract.operationId op = row.operationId
            ∧ contract.operationId advanced = contract.operationId op
            ∧ next.phase = .refreshing advanced 119 plans) := by
  unfold Recovery.plan at planned
  split at planned
  · cases planned
    exact ⟨(touched_escalateCandidate recovery row.operationId).of_phase _, .inl rfl,
      .inl ⟨closed_escalateCandidate recovery row.operationId, rfl⟩⟩
  next op reconstructed =>
  have own := operationId_of_reconstruct reconstructed
  rw [← own]
  split at planned
  · next ambiguous =>
      obtain ⟨preview, previewed, planned⟩ := Option.bind_eq_some_iff.mp planned
      split at planned
      · cases planned
        exact ⟨(touched_applyDecision op _ now []).of_phase _, .inl rfl,
          .inl ⟨closed_recordEscalation op _ now, rfl⟩⟩
      · next quiet =>
          obtain ⟨decision, decided, touched, emitted, closed, phase⟩ := verify_cases planned
          refine ⟨touched, ?_, .inl ⟨closed, phase⟩⟩
          by_cases emits : decision.kind = .emitAction
          · rw [if_pos emits] at emitted
            refine .inr ⟨emitted, fun _ => ?_⟩
            exact ⟨op, preview, decision, reconstructed, previewed, quiet, decided, emits⟩
          · rw [if_neg emits] at emitted
            exact .inl emitted
  · next unambiguous =>
      obtain ⟨decision, decided, touched, emitted, stops⟩ := round_cases planned
      refine ⟨touched, ?_, ?_⟩
      · by_cases emits : decision.kind = .emitAction
        · rw [if_pos emits] at emitted
          exact .inr ⟨emitted, fun ambiguous => absurd ambiguous unambiguous⟩
        · rw [if_neg emits] at emitted
          exact .inl emitted
      · rcases stops with ⟨advanced, same, phase⟩ | closed
        · exact .inr ⟨Bool.eq_false_iff.mpr unambiguous, op, advanced, rfl, same, phase⟩
        · exact .inl closed

theorem open_of_looping {row : PersistedOperation Op} {plans : List (PersistedOperation Op)}
    (phase : recovery.phase = .looping (row :: plans))
    : recovery.unsettled contract = row.operationId :: plans.map (·.operationId) := by
  unfold Recovery.unsettled
  rw [phase]
  rfl

theorem open_of_reconciling {op : Op} {left : Nat}
    (phase : recovery.phase = .reconciling op left plans)
    : recovery.unsettled contract
      = contract.operationId op :: plans.map (·.operationId) := by
  unfold Recovery.unsettled
  rw [phase]
  rfl

/-- Loading considers every unfinished operation and leaves each of them open. -/
theorem RecoverySound.load (h : RecoverySound contract recovery)
    (phase : recovery.phase = .loading)
    : RecoverySound contract { recovery with
        phase := .looping recovery.loadPlans
        considered := recovery.loadPlans.map (·.operationId)
        guarded := (recovery.loadPlans.filter (·.hasAmbiguousUnsafeEffect)).map
          (·.operationId) } := by
  have distinct : (recovery.loadPlans.map (·.operationId)).Nodup :=
    h.unique.sublist (List.filter_sublist.map _)
  have same : ∀ plan ∈ recovery.loadPlans, ∀ other ∈ recovery.loadPlans,
      plan.operationId = other.operationId → plan = other :=
    fun plan member other known equal => List.inj_on_of_nodup_map distinct member known equal
  refine ⟨h.unique, ?_, ?_, distinct, ?_, ?_, ?_⟩
  · intro id member
    change id ∈ recovery.emitted at member
    rw [(h.fresh (.inr phase)).2] at member
    cases member
  · intro early
    rcases early with other | other <;> cases other
  · intro plan member
    constructor
    · intro guarded
      obtain ⟨other, selected, equal⟩ := List.mem_map.mp guarded
      obtain ⟨known, ambiguous⟩ := List.mem_filter.mp selected
      obtain rfl := same other known plan member equal
      exact ambiguous
    · intro ambiguous
      exact List.mem_map.mpr ⟨plan, List.mem_filter.mpr ⟨member, ambiguous⟩, rfl⟩
  · intro op active
    cases active
  · intro _ row _ considered
    exact .inl considered

theorem RecoverySound.step {event : RecoveryEvent Snapshot}
    (h : RecoverySound contract recovery) (step : RecoveryStep contract recovery event next)
    (spared : ∀ id ∈ next.emitted, id ∉ next.guarded)
    : RecoverySound contract next := by
  cases step with
  | ingest snapshot =>
    exact ⟨h.unique, h.spared, h.fresh, h.distinct, h.classified, h.unguarded, h.settled⟩
  | observe phase =>
    obtain ⟨considered, emitted⟩ := h.fresh (.inl phase)
    refine ⟨h.unique, h.spared, fun _ => ⟨considered, emitted⟩, List.nodup_nil, ?_, ?_, ?_⟩
    · intro plan member
      cases member
    · intro op active
      cases active
    · intro _ row _ known
      rw [considered] at known
      cases known
  | load phase => exact h.load phase
  | @plan row plans previewId actionId now effects _ phase planned =>
    have among : ∀ plan ∈ plans, plan ∈ recovery.phase.plans := by
      intro plan member
      rw [phase]
      exact List.mem_cons_of_mem _ member
    have running : recovery.phase ≠ .raised := by
      rw [phase]
      exact fun other => nomatch other
    obtain ⟨touched, -, stops⟩ := plan_cases planned
    rcases stops with ⟨closed, after⟩ | ⟨unambiguous, op, advanced, own, same, after⟩
    · exact h.close (open_of_looping phase) among running touched closed after spared
    · have front := @open_of_looping _ _ _ _ contract _ _ _ phase
      have unguarded : row.operationId ∉ recovery.guarded := by
        intro guarded
        have listed : row ∈ recovery.phase.plans := by
          rw [phase]
          exact List.mem_cons_self
        rw [(h.classified row listed).mp guarded] at unambiguous
        cases unambiguous
      rw [← own] at front touched unguarded
      exact h.go_on front among running unguarded same touched after spared
  | finish phase =>
    have none_ : recovery.unsettled contract = [] := by
      unfold Recovery.unsettled
      rw [phase]
      rfl
    refine ⟨h.unique, h.spared, ?_, List.nodup_nil, ?_, ?_, ?_⟩
    · intro early
      rcases early with other | other <;> cases other
    · intro plan member
      cases member
    · intro op active
      cases active
    · intro _ row member considered
      have running : recovery.phase ≠ .raised := by
        rw [phase]
        exact fun other => nomatch other
      rcases h.settled running row member considered with waiting | done
      · rw [none_] at waiting
        cases waiting
      · exact .inr done
  | @refresh op left plans phase =>
    obtain ⟨unique, kept, fresh, distinct, classified, unguarded, settled⟩ := h
    rw [phase] at classified unguarded settled
    have open_ : recovery.unsettled contract
        = contract.operationId op :: plans.map (·.operationId) := by
      unfold Recovery.unsettled
      rw [phase]
      rfl
    rw [open_] at distinct settled
    refine ⟨unique, kept, ?_, distinct, classified, unguarded, fun _ => ?_⟩
    · intro early
      rcases early with other | other <;> cases other
    · exact settled fun other => nomatch other
  | @round op left plans actionId now effects _ phase taken =>
    have among : ∀ plan ∈ plans, plan ∈ recovery.phase.plans := by
      intro plan member
      rw [phase]
      exact member
    have running : recovery.phase ≠ .raised := by
      rw [phase]
      exact fun other => nomatch other
    have unguarded := h.unguarded op (by rw [phase]; rfl)
    obtain ⟨decision, decided, touched, -, stops⟩ := round_cases taken
    rcases stops with ⟨advanced, same, after⟩ | ⟨closed, after⟩
    · exact h.go_on (open_of_reconciling phase) among running unguarded same touched after spared
    · exact h.close (open_of_reconciling phase) among running touched closed after spared
  | @exhausted op plans actionId now effects phase =>
    have among : ∀ plan ∈ plans, plan ∈ recovery.phase.plans := by
      intro plan member
      rw [phase]
      exact member
    have running : recovery.phase ≠ .raised := by
      rw [phase]
      exact fun other => nomatch other
    refine h.close (open_of_reconciling phase) among running
      ((touched_applyDecision op _ now []).of_phase _) ?_ rfl spared
    exact closed_recordEscalation op _ now
  | raise =>
    refine ⟨h.unique, h.spared, ?_, List.nodup_nil, ?_, ?_, ?_⟩
    · intro early
      rcases early with other | other <;> cases other
    · intro plan member
      cases member
    · intro op active
      cases active
    · intro running
      exact absurd rfl running

theorem PreviewedStep.spares {event : RecoveryEvent Snapshot}
    (h : RecoverySound contract recovery) (taken : PreviewedStep contract recovery event next)
    : ∀ id ∈ next.emitted, id ∉ next.guarded := by
  obtain ⟨step, agrees⟩ := taken
  cases step with
  | ingest snapshot => exact h.spared
  | observe phase => exact h.spared
  | load phase => exact (h.load phase).spared
  | @plan row plans previewId actionId now effects _ phase planned =>
    obtain ⟨touched, emitted, -⟩ := plan_cases planned
    intro id member
    rw [touched.guarded]
    rcases emitted with same | ⟨more, replays⟩
    · rw [same] at member
      exact h.spared id member
    · rw [more] at member
      rcases List.mem_cons.mp member with rfl | old
      · intro guarded
        have listed : row ∈ recovery.phase.plans := by
          rw [phase]
          exact List.mem_cons_self
        have ambiguous := (h.classified row listed).mp guarded
        obtain ⟨op, preview, decision, reconstructed, previewed, quiet, decided, emits⟩ :=
          replays ambiguous
        exact agrees row plans previewId actionId now effects op preview decision phase rfl
          ambiguous reconstructed previewed quiet decided emits
      · exact h.spared id old
  | finish phase => exact h.spared
  | refresh phase => exact h.spared
  | @round op left plans actionId now effects _ phase taken =>
    obtain ⟨decision, decided, touched, emitted, -⟩ := round_cases taken
    have unguarded := h.unguarded op (by rw [phase]; rfl)
    intro id member
    rw [touched.guarded]
    rw [emitted] at member
    split at member
    · rcases List.mem_cons.mp member with rfl | old
      · exact unguarded
      · exact h.spared id old
    · exact h.spared id member
  | exhausted phase => exact h.spared
  | raise => exact h.spared

theorem emits_of_contradicted {row : PersistedOperation Op} {previewId : ActionId}
    {op : Op} {preview : ControllerDecision Phase Payload}
    (planned : recovery.plan contract row plans previewId actionId now effects = some next)
    (ambiguous : row.hasAmbiguousUnsafeEffect = true)
    (reconstructed : row.reconstruct contract = some op)
    (previewed : contract.reconcile op recovery.seen previewId now = some preview)
    (quiet : preview.kind ≠ .emitAction)
    (decided : contract.reconcile op recovery.snapshot actionId now = some decision)
    (emits : decision.kind = .emitAction)
    : row.operationId ∈ next.emitted := by
  unfold Recovery.plan at planned
  rw [reconstructed] at planned
  dsimp only at planned
  rw [if_pos ambiguous, previewed, Option.bind_eq_bind, Option.bind_some, if_neg quiet] at planned
  obtain ⟨other, decided', -, emitted, -⟩ := verify_cases planned
  rw [decided] at decided'
  cases decided'
  rw [emitted, if_pos emits, operationId_of_reconstruct reconstructed]
  exact List.mem_cons_self

theorem noReplay_iff_previewed {event : RecoveryEvent Snapshot}
    (h : RecoverySound contract recovery)
    : NoReplayStep contract recovery event next ↔ PreviewedStep contract recovery event next := by
  constructor
  · intro safe
    refine ⟨safe.step, ?_⟩
    intro row plans previewId actionId now effects op preview decision phase same ambiguous
      reconstructed previewed quiet decided emits
    subst same
    have spared := safe.spared
    cases safe.step with
    | plan phase' planned =>
      obtain ⟨rfl, rfl⟩ := List.cons.inj (RecoveryPhase.looping.inj (phase.symm.trans phase'))
      obtain ⟨touched, -, -⟩ := plan_cases planned
      have listed : row ∈ recovery.phase.plans := by
        rw [phase]
        exact List.mem_cons_self
      refine spared row.operationId ?_ ?_
      · exact emits_of_contradicted planned ambiguous reconstructed previewed quiet decided emits
      · rw [touched.guarded]
        exact (h.classified row listed).mpr ambiguous
    | finish phase' => cases phase.symm.trans phase'
  · intro previewed
    have spared := previewed.spares h
    refine ⟨previewed.step, spared, fun returned row member considered => ?_⟩
    have sound := h.step previewed.step spared
    rcases sound.settled (by rw [returned]; exact fun other => nomatch other) row member considered
      with waiting | done
    · unfold Recovery.unsettled at waiting
      rw [returned] at waiting
      cases waiting
    · exact done

/-- Recovery never emits for an operation of ambiguous past, and settles all it considers,
exactly when the controller's snapshot never contradicts a preview.
-/
theorem noReplay_iff {events : List (RecoveryEvent Snapshot)}
    : Run RecoveryStart (NoReplayStep contract) events next
      ↔ Run RecoveryStart (PreviewedStep contract) events next :=
  @Run.iff_of_invariant _ _ RecoveryStart (NoReplayStep contract) (RecoverySound contract) _
    (fun _ start => recoverySound_of_start start)
    (fun _ _ _ sound safe => sound.step safe.step safe.spared)
    (fun _ _ _ sound => noReplay_iff_previewed sound) _ _

end Invariant

theorem terminal_statusAfter {status : OperationStatus} {kind : ControllerDecisionKind}
    (observes : kind ≠ .observeMore) (emits : kind ≠ .emitAction)
    : (statusAfter status kind).terminal = true := by
  cases kind with
  | observeMore => exact absurd rfl observes
  | emitAction => exact absurd rfl emits
  | succeed => rfl
  | fail => rfl
  | escalate => rfl

def submitContract [DecimalDigits]
    : ReducerContract SubmitPromptOperation ObservationSnapshot SubmitPhase SubmitAction where
  reconcile op snapshot actionId now :=
    (reconcileSubmitPrompt op snapshot actionId now).toOption
  advance := advanceSubmitPrompt
  operationId op := op.envelope.operationId
  status op := op.envelope.status
  actionHistory op := op.envelope.actionHistory
  escalatedPhase _ := .escalated
  keepsId _ _ _ _ := rfl
  settles _ _ _ _ _ _ observes emits := terminal_statusAfter observes emits
  escalates op decision snapshot now escalate := by
    have kinds : decision.kind ≠ .observeMore ∧ decision.kind ≠ .emitAction := by
      rw [escalate]
      decide
    exact terminal_statusAfter kinds.1 kinds.2

namespace NewerFrame

abbrev digits : DecimalDigits where
  value c := if c.isDigit then some (c.toNat - '0'.toNat) else none

/-- A running submission whose commit may have reached the terminal. -/
def op : SubmitPromptOperation :=
  let fresh := createOperation "o" ⟨[], "go", "go"⟩ false 100 none 0
  { fresh with
    envelope := { fresh.envelope with
      phase := .clearingComposer
      status := .running
      actionHistory := ["a"] } }

def row : PersistedOperation SubmitPromptOperation :=
  ⟨"o", .running, some op, [⟨"a", .ambiguousAfterEmission, [.emitted]⟩]⟩

/-- The frame recovery previews: the composer is not known. -/
def previewed : ObservationSnapshot where
  revision := ⟨0, 1, 0⟩
  surface := .unknown
  composer := .unknown
  transcriptTail := .unknown
  health := {}

/-- The frame that replaces it: the composer holds other text. -/
def newer : ObservationSnapshot where
  revision := ⟨0, 2, 0⟩
  surface := .present { blocksComposerInput := false }
  composer := .present ⟨some "draft", some "draft", some "draft", .actionable, some true⟩
  transcriptTail := .unknown
  health := {}

def events : List (RecoveryEvent ObservationSnapshot) :=
  [.observe, .ingest newer, .load, .plan "p" "b" 1 [.emitted]]

/-- Recovery clears the composer for an operation whose commit is ambiguous. -/
theorem replays_on_newer_frame
    : ∃ recovery : Recovery SubmitPromptOperation ObservationSnapshot,
        Run RecoveryStart (RecoveryStep (@submitContract digits)) events recovery
        ∧ ¬ ∀ id ∈ recovery.emitted, id ∉ recovery.guarded := by
  have steps : ∃ recovery,
      Steps (RecoveryStep (@submitContract digits))
        { journal := [row], snapshot := previewed, seen := previewed } events recovery
      ∧ "o" ∈ recovery.emitted ∧ "o" ∈ recovery.guarded := by
    refine ⟨_, .cons (.observe rfl) (.cons (.ingest _ _) (.cons (.load rfl)
      (.cons (.plan rfl rfl) (.nil _)))), ?_⟩
    decide +kernel
  obtain ⟨recovery, taken, emitted, guarded⟩ := steps
  refine ⟨recovery, ⟨_, ⟨_, _, _, ?_, rfl⟩, taken⟩, fun spared => spared "o" emitted guarded⟩
  exact List.nodup_singleton _

end NewerFrame

end Murder.Harness

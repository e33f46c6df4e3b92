import Mathlib.Data.Finset.Basic
import Murder.Library.Drains
import Murder.Workflows.StaticDag
import Murder.Workflows.Transitions

/-! The owner of loading, deciding and applying workflow transitions, and recovery after a restart
or a missed notification: page by page, every nonterminal run with a pending signal is decided,
until only blocked runs have any.
-/

namespace Murder.Workflows

open Murder.Contracts Murder.Facts Murder.Storage Library.Transactions Library.Drains

/-- A pure decision: it validates the state it is given and returns a plan or raises. -/
abbrev WorkflowMachine := WorkflowDecisionInput → Except Failure WorkflowTransitionPlan

/-- Find the machine that interprets a run's persisted semantics. -/
abbrev WorkflowMachineResolver := WorkflowRunRecord → Except Failure WorkflowMachine

/-- Pydantic validation of the persisted definition and state of a static DAG. -/
class StaticDagAdapter where
  validateDefinition : JsonObject → Option WorkflowDef
  validateState : JsonObject → Option StaticDagState

section Resolver

variable [PyRepr] [StaticDagAdapter]

/-- Validate the state and decide; the machine ignores waits and time. -/
def StaticDagMachine.workflowMachine (machine : StaticDagMachine) : WorkflowMachine :=
  fun input =>
    match StaticDagAdapter.validateState input.run.state.value with
    | none => .error (.valueError "static DAG state does not validate")
    | some state => machine.decide state input.signals input.run.revision

def resolvePersistedMachine : WorkflowMachineResolver := fun run =>
  let unavailable : Failure := .workflowDefinitionUnavailable
    ("no machine for " ++ quoted run.definitionName ++ " v" ++ toString run.definitionVersion
      ++ " state " ++ quoted run.state.schemaName ++ " v" ++ toString run.state.schemaVersion)
  if run.state.schemaName ≠ "static_dag" ∨ run.state.schemaVersion ≠ 1 then
    .error unavailable
  else
    match run.definitionSnapshot with
    | none => .error unavailable
    | some snapshot =>
      match StaticDagAdapter.validateDefinition snapshot with
      | none => .error (.valueError "workflow definition does not validate")
      | some definition =>
        if definition.definitionVersion ≠ run.definitionVersion then
          .error (.workflowDefinitionUnavailable
            "persisted workflow definition version does not match its run envelope")
        else
          .ok (StaticDagMachine.workflowMachine
            { definition := definition, stageMap := run.stageMap })

end Resolver

/-- Run `retry` from where `body` stopped when `body` raised on a stale revision. -/
def retryOnStale {α : Type} (body retry : Sql α) : Sql α := fun start =>
  match body start with
  | .error (.staleWorkflowRevision ..) stop => retry stop
  | other => other

section Decide

variable [FactPayloadAdapter]

def planFor (resolver : WorkflowMachineResolver) (input : WorkflowDecisionInput)
    : Except Failure WorkflowTransitionPlan := do
  let machine ← resolver input.run
  machine input

/-- Load, decide and apply once, again after each of at most `retries` lost races. -/
def decideOnce (resolver : WorkflowMachineResolver) (supply : Supply) (workflowId : Uuid)
    (now : Timestamp) (retries : Nat := 3) : Sql WorkflowRunRecord := do
  let input ← loadWorkflowDecisionInput workflowId now
  if input.run.status.terminal then
    pure input.run
  else
    let plan ← fromExcept (planFor resolver input)
    match retries with
    | 0 => applyTransitionPlan supply workflowId plan input.now
    | left + 1 =>
      retryOnStale (applyTransitionPlan supply workflowId plan input.now)
        (decideOnce resolver supply workflowId now left)

/-- Nothing happened, or one transition of the workflow committed. -/
inductive Decided (workflowId : Uuid) (start : Database) : Database → Prop
  | nothing : Decided workflowId start start
  | committed {plan at_ stop} (commit : Committed workflowId plan at_ start stop)
    : Decided workflowId start stop

theorem applyTransitionPlan_decided (supply : Supply) (workflowId : Uuid)
    (plan : WorkflowTransitionPlan) (at_ : Timestamp)
    : Relates (Decided workflowId) (applyTransitionPlan supply workflowId plan at_) := by
  apply Relates.intro
  · intro start run stop h
    exact .committed (applyTransitionPlan_returns h).1
  · intro start raised stop h
    rw [applyTransitionPlan_raises h]
    exact .nothing

/-- A stale attempt wrote nothing, so the retry starts where the attempt did. -/
theorem retryOnStale_decided {workflowId : Uuid} {plan : WorkflowTransitionPlan}
    {supply : Supply} {at_ : Timestamp} {retry : Sql WorkflowRunRecord}
    (h : Relates (Decided workflowId) retry)
    : Relates (Decided workflowId)
        (retryOnStale (applyTransitionPlan supply workflowId plan at_) retry) := by
  intro start
  have attempt := applyTransitionPlan_decided supply workflowId plan at_ start
  unfold retryOnStale
  split
  · next raised =>
      rw [applyTransitionPlan_raises raised]
      exact h start
  · exact attempt

/-- A decision commits at most one transition, by induction over the retries left. -/
theorem decideOnce_decided (resolver : WorkflowMachineResolver) (supply : Supply)
    (workflowId : Uuid) (now : Timestamp) (retries : Nat)
    : Relates (Decided workflowId) (decideOnce resolver supply workflowId now retries) := by
  induction retries with
  | zero =>
    unfold decideOnce
    refine Relates.after (fun _ => .nothing)
      (loadWorkflowDecisionInput_reads _ _ _) (fun input => ?_)
    split
    · exact fun start => .nothing
    · refine Relates.after (fun _ => .nothing) (.fromExcept _) (fun plan => ?_)
      exact applyTransitionPlan_decided _ _ _ _
  | succ left ih =>
    unfold decideOnce
    refine Relates.after (fun _ => .nothing)
      (loadWorkflowDecisionInput_reads _ _ _) (fun input => ?_)
    split
    · exact fun start => .nothing
    · refine Relates.after (fun _ => .nothing) (.fromExcept _) (fun plan => ?_)
      exact retryOnStale_decided ih

end Decide

/-- The runtime of one database. `clock` and `supply` give the time and the fresh ids of each
decision by its number; the time is the same for all when the caller fixes it.
-/
structure WorkflowRuntime where
  resolver : WorkflowMachineResolver
  maxConflictRetries : Nat
  clock : Nat → Timestamp
  supply : Nat → Supply

/-- The unconsumed signals of a run. -/
def pendingSignalCount (db : Database) (workflowId : Uuid) : Nat :=
  db.workflows.signals.count (fun signal =>
    signal.workflowId == workflowId && signal.consumedAt.isNone)

/-- Membership in `('running', 'waiting')`. -/
def WorkflowStatus.recoverable : WorkflowStatus → Bool
  | .running | .waiting => true
  | .completed | .failed | .cancelled | .paused => false

structure PendingRow where
  workflowId : Uuid
  pendingCount : Nat
deriving DecidableEq

/-- What a decision of a run came to: its machine was unavailable, or it left this many of
its signals pending.
-/
inductive DecisionOutcome
  | unavailable
  | left (pendingAfter : Nat)
deriving DecidableEq

/-- One decision of a recovery, with the pending count its page had read. -/
structure RunDecision where
  workflowId : Uuid
  pendingBefore : Nat
  outcome : DecisionOutcome
deriving DecidableEq

/-- The state of a recovery. `decisions` has the latest decision first. -/
structure Recovery where
  db : Database
  recovered : List (Uuid × WorkflowRunRecord)
  blocked : Finset Uuid
  decisions : List RunDecision

/-- Assign an entry of an insertion-ordered dictionary. -/
def assign (recovered : List (Uuid × WorkflowRunRecord)) (workflowId : Uuid)
    (updated : WorkflowRunRecord)
    : List (Uuid × WorkflowRunRecord) :=
  if recovered.any (fun entry => entry.1 == workflowId) then
    recovered.map (fun entry =>
      if entry.1 = workflowId then (workflowId, updated) else entry)
  else
    recovered ++ [(workflowId, updated)]

/-- The next runs to decide, by their last update, at most `limit` of them. -/
def recoveryPage (limit : Nat) (recovery : Recovery) : List PendingRow :=
  let rows :=
    (recovery.db.workflows.runs.select (fun run =>
      run.status.recoverable && decide (run.workflowId ∉ recovery.blocked)
        && decide (0 < pendingSignalCount recovery.db run.workflowId))).insertionSort
      (fun left right =>
        createdBefore (left.updatedAt, left.workflowId) (right.updatedAt, right.workflowId))
  (rows.take limit).map (fun run =>
    { workflowId := run.workflowId
      pendingCount := pendingSignalCount recovery.db run.workflowId })

section Recover

variable [FactPayloadAdapter]

/-- The decision of a run that a recovery takes as its `number`th. -/
def WorkflowRuntime.decide (runtime : WorkflowRuntime) (number : Nat) (workflowId : Uuid)
    : Sql WorkflowRunRecord :=
  decideOnce runtime.resolver (runtime.supply number) workflowId (runtime.clock number)
    runtime.maxConflictRetries

/-- Decide one run of a page, and block it where its machine is unavailable or left its
signals pending.
-/
def recoverRow (runtime : WorkflowRuntime) (recovery : Recovery) (row : PendingRow)
    : Except (Failure × Database) Recovery :=
  match runtime.decide recovery.decisions.length row.workflowId recovery.db with
  | .error (.workflowDefinitionUnavailable _) db =>
    .ok
      { recovery with
        db := db
        blocked := insert row.workflowId recovery.blocked
        decisions := ⟨row.workflowId, row.pendingCount, .unavailable⟩ :: recovery.decisions }
  | .error raised db => .error (raised, db)
  | .ok updated db =>
    let pendingAfter := pendingSignalCount db row.workflowId
    .ok
      { db := db
        recovered := assign recovery.recovered row.workflowId updated
        blocked :=
          if row.pendingCount ≤ pendingAfter then insert row.workflowId recovery.blocked
          else recovery.blocked
        decisions :=
          ⟨row.workflowId, row.pendingCount, .left pendingAfter⟩ :: recovery.decisions }

def Recovery.of (db : Database) : Recovery where
  db := db
  recovered := []
  blocked := ∅
  decisions := []

/-- Wake persisted nonterminal workflows; `none` when the fuel runs out. -/
def recoverPendingSignals (runtime : WorkflowRuntime) (limit : Nat) (fuel : Nat) (db : Database)
    : Option (Except (Failure × Database) Recovery) :=
  if limit < 1 then some (.error (.valueError "limit must be positive", db))
  else drain (recoveryPage limit) (recoverRow runtime) fuel (.of db)

end Recover

end Murder.Workflows

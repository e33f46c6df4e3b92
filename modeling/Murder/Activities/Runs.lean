import Murder.Activities.Effects
import Murder.Library.Calls

/-! Runs of the activity operations by any number of dispatchers and workers.
An event is one committed or refused transaction: the wake that follows a completion or a
rejection is an event of its own, so others may act in between.
-/

namespace Murder.Activities

open Murder.Contracts Murder.Facts Murder.Storage Murder.Workflows Library.Tables
open Library.Transactions Library.Runs Library.Calls

/-- What one event does to the store. -/
inductive StoreStep (may : Powers) (now : Timestamp) (start : Database)
    : Database → Prop
  | activity {stop} (effect : Effect may now start stop)
    : StoreStep may now start stop
  | created {run stop} (created : Created run start stop) : StoreStep may now start stop
  | decided {workflowId stop} (decided : Decided workflowId start stop)
    : StoreStep may now start stop

theorem createWorkflowRun_storeStep (may : Powers) (now : Timestamp)
    (supply : Supply) (run : WorkflowRunRecord) (waits : List WaitSpec)
    : Relates (StoreStep may now) (createWorkflowRun supply run waits) := by
  apply Relates.intro
  · intro start value stop h
    exact .created (createWorkflowRun_created h)
  · intro start raised stop h
    rw [createWorkflowRun_raises h]
    exact .activity .nothing

/-- Every row took a step of its own; a row without a past is pristine under a new id. -/
structure Moved (may : Powers) (now : Timestamp)
    (start stop : Table ActivityRecord activityClash) : Prop where
  forward : ∀ row ∈ start, ∃ next ∈ stop, RowStep may now row next
  backward : ∀ next ∈ stop,
    (Pristine next ∧ ∀ row ∈ start, row.activityId ≠ next.activityId)
      ∨ ∃ row ∈ start, RowStep may now row next

section Rows

variable {may : Powers} {now : Timestamp} {start stop : Database}

theorem Moved.refl (records : Table ActivityRecord activityClash)
    : Moved may now records records :=
  ⟨fun row member => ⟨row, member, .unchanged⟩, fun row member => .inr ⟨row, member, .unchanged⟩⟩

theorem moved_update {records : Table ActivityRecord activityClash}
    {where_ : ActivityRecord → Bool} {change : ActivityRecord → ActivityRecord}
    (keeps : Table.KeepsKeys activityClash change)
    (steps : ∀ row ∈ records, where_ row = true → RowStep may now row (change row))
    : Moved may now records (records.update where_ change keeps) := by
  have step : ∀ row ∈ records, RowStep may now row (if where_ row then change row else row) := by
    intro row member
    split
    · exact steps row member ‹_›
    · exact .unchanged
  refine ⟨fun row member => ?_, fun next member => .inr ?_⟩
  · exact ⟨_, Table.mem_update.mpr ⟨row, member, rfl⟩, step row member⟩
  · obtain ⟨row, stored, rfl⟩ := Table.mem_update.mp member
    exact ⟨row, stored, step row stored⟩

theorem moved_byId {tables : ActivityTables} {activity : ActivityRecord}
    {change : ActivityRecord → ActivityRecord} (member : activity ∈ tables.records)
    (step : RowStep may now activity (change activity))
    (keeps : Table.KeepsKeys activityClash change := by
      exact ⟨fun _ _ => rfl, fun _ _ => rfl⟩)
    : Moved may now tables.records (tables.records.update (byId activity.activityId) change keeps)
    := by
  refine moved_update keeps (fun row stored selected => ?_)
  rw [activity_eq_of_id stored member (eq_of_beq selected)]
  exact step

theorem Effect.moved (h : Effect may now start stop)
    : Moved may now start.activities.records stop.activities.records := by
  cases h with
  | nothing => exact .refl _
  | @upkeep _ _ _ keeps rows store =>
    rw [store.activities]
    exact moved_update keeps (fun row member selected => .upkeep (rows row member selected))
  | claimed allowed member _ _ _ idle positive store =>
    rw [store.activities]
    exact moved_byId member (.claimed allowed idle positive)
  | reaped allowed store =>
    have keeps : Table.KeepsKeys activityClash (Activities.reaped now) :=
      ⟨fun _ _ => rfl, fun _ _ => rfl⟩
    rw [store.activities]
    refine moved_update keeps (fun row _ selected => ?_)
    simp only [Bool.and_eq_true] at selected
    exact .reaped allowed selected.1 selected.2
  | admitted _ member waiting reserved =>
    rw [reserved.records, expiredReleased_same.2.2.1]
    exact moved_byId member (.upkeep (.admitted waiting))
  | released _ store =>
    rw [store, expiredReleased_same.2.2.1]
    exact .refl _
  | rejected result member waiting _ store signalled =>
    rw [signalled.activities, store.activities]
    exact moved_byId member (.finished (.rejected waiting))
  | retried result member inProgress holds again _ store =>
    rw [store.activities]
    exact moved_byId member (.retried inProgress holds again)
  | completed result member inProgress holds last _ store signalled =>
    rw [signalled.activities, store.activities]
    exact moved_byId member (.finished (.completed inProgress holds last))

theorem StoreStep.moved (h : StoreStep may now start stop)
    : Moved may now start.activities.records stop.activities.records := by
  cases h with
  | activity effect => exact effect.moved
  | created created =>
    rw [created.activities]
    exact .refl _
  | decided decided =>
    cases decided with
    | nothing => exact .refl _
    | committed commit =>
      have requested : Requested start.activities stop.activities :=
        commit.installed.activities
      refine ⟨fun row member => ⟨row, requested.mem member, .unchanged⟩, ?_⟩
      intro next member
      rcases requested.cases member with stored | pristine
      · exact .inr ⟨next, stored, .unchanged⟩
      · exact .inl pristine

end Rows

/-- The operations that touch activities, with the transitions that request them. -/
inductive ActivityOp
  | createWorkflowRun (run : WorkflowRunRecord) (waits : List WaitSpec)
  | applyTransitionPlan (workflowId : Uuid) (plan : WorkflowTransitionPlan)
  | persistRoute (activityId : Uuid) (route : ExecutionRoute)
  | persistAdmission (activityId : Uuid) (decision : AdmissionDecision)
  | claimActivity (activityId : Uuid) (owner : String) (leaseFor : Duration)
    (capabilityRevision : Nat)
  | startActivity (claim : ActivityClaim)
  | renewActivityClaim (claim : ActivityClaim) (leaseFor : Duration)
  | reapExpiredClaims
  | reapExpiredReservations
  | completeActivity (claim : ActivityClaim) (outcome : ActivityOutcome)
  | wake (workflowId : Uuid)

inductive Reply
  | done
  | run (run : WorkflowRunRecord)
  | activity (activity : ActivityRecord)
  | admission (rejectedWorkflowId : Option Uuid)
  | claim (claim : ActivityClaim)
  | count (count : Nat)
  | completion (completion : Completion)

section Calls

variable [PyRepr] [StaticDagAdapter] [FactPayloadAdapter]

/-- The transaction of an operation. -/
def ActivityOp.exec (op : ActivityOp) (supply : Supply) (now : Timestamp) : Sql Reply :=
  match op with
  | createWorkflowRun run waits =>
    (fun _ => Reply.done) <$> Workflows.createWorkflowRun supply run waits
  | applyTransitionPlan workflowId plan =>
    Reply.run <$> Workflows.applyTransitionPlan supply workflowId plan now
  | persistRoute activityId route => Reply.activity <$> Activities.persistRoute activityId route now
  | persistAdmission activityId decision =>
    Reply.admission <$> storeAdmission supply activityId decision now
  | claimActivity activityId owner leaseFor capabilityRevision =>
    Reply.claim <$> Activities.claimActivity activityId owner leaseFor capabilityRevision now
  | startActivity claim => Reply.activity <$> Activities.startActivity claim now
  | renewActivityClaim claim leaseFor =>
    Reply.claim <$> Activities.renewActivityClaim claim leaseFor now
  | reapExpiredClaims => Reply.count <$> Activities.reapExpiredClaims now
  | reapExpiredReservations => Reply.count <$> Activities.reapExpiredReservations now
  | completeActivity claim outcome =>
    Reply.completion <$> storeCompletion supply claim outcome now
  | wake workflowId => (fun _ => Reply.done) <$> bestEffortWake supply workflowId now

abbrev Call := Library.Calls.Call ActivityOp Timestamp Supply

abbrev Event := Library.Calls.Event ActivityOp Timestamp Supply Failure Reply

abbrev Step : Database → Event → Database → Prop := Library.Calls.Step ActivityOp.exec

abbrev GuardedStep (guard : Database → Call → Bool) : Database → Event → Database → Prop :=
  Library.Calls.GuardedStep ActivityOp.exec guard

abbrev Timed := Library.Calls.Timed Database Timestamp

abbrev TimedStep (Step : Database → Event → Database → Prop) : Timed → Event → Timed → Prop :=
  Library.Calls.TimedStep Step

/-- A store nothing was written to yet. -/
def Fresh (db : Database) : Prop := ∃ repositoryId, db = { repositoryId := repositoryId }

/-- What an operation may do. -/
def ActivityOp.powers : ActivityOp → Powers
  | persistAdmission activityId decision => { release := admits activityId decision }
  | claimActivity activityId .. => { claim := fun claimed => claimed == activityId }
  | reapExpiredClaims => { reap := true }
  | reapExpiredReservations => { release := fun _ => true }
  | _ => {}

/-- Every operation has one of the effects. -/
theorem exec_storeStep (op : ActivityOp) (supply : Supply) (now : Timestamp)
    : Relates (StoreStep op.powers now) (op.exec supply now) := by
  cases op with
  | createWorkflowRun run waits =>
    exact Relates.map _ (createWorkflowRun_storeStep _ now supply run waits)
  | applyTransitionPlan workflowId plan =>
    exact Relates.map _ ((applyTransitionPlan_decided _ _ _ _).imp .decided)
  | persistRoute activityId route =>
    exact Relates.map _ ((persistRoute_effect _ now _ _).imp .activity)
  | persistAdmission activityId decision =>
    exact Relates.map _ ((storeAdmission_effect _ now _ _ _ (fun _ h => h)).imp .activity)
  | claimActivity activityId owner leaseFor capabilityRevision =>
    exact Relates.map _
      ((claimActivity_effect _ now _ _ _ _ (beq_self_eq_true _)).imp .activity)
  | startActivity claim => exact Relates.map _ ((startActivity_effect _ now _).imp .activity)
  | renewActivityClaim claim leaseFor =>
    exact Relates.map _ ((renewActivityClaim_effect _ now _ _).imp .activity)
  | reapExpiredClaims => exact Relates.map _ ((reapExpiredClaims_effect _ now rfl).imp .activity)
  | reapExpiredReservations =>
    exact Relates.map _ ((reapExpiredReservations_effect _ now (fun _ => rfl)).imp .activity)
  | completeActivity claim outcome =>
    exact Relates.map _ ((storeCompletion_effect _ now _ _ _).imp .activity)
  | wake workflowId =>
    exact Relates.map _ ((Relates.bestEffort (decideOnce_decided _ _ _ _ _)).imp .decided)

theorem steps_of_op (op : ActivityOp) (supply : Supply) (now : Timestamp) (db : Database)
    : ∃ events, Steps Step db events (final (op.exec supply now db)) :=
  steps_of_call ActivityOp.exec ⟨op, now, supply⟩ db

/-- A completion is a run of its two transactions: the completion and the wake. -/
theorem completeActivity_steps (supply : Supply) (claim : ActivityClaim)
    (outcome : ActivityOutcome) (now : Timestamp) (start : Database)
    : ∃ events, Steps Step start events
        (final (completeActivity supply claim outcome now start)) := by
  obtain ⟨events, steps⟩ := steps_of_op (.completeActivity claim outcome) supply now start
  rw [ActivityOp.exec, final_map] at steps
  rw [completeActivity, final_bind]
  cases stored : storeCompletion supply claim outcome now start with
  | error raised stop =>
    rw [stored] at steps
    exact ⟨events, steps⟩
  | ok completion middle =>
    rw [stored] at steps
    match completion with
    | .existing result => exact ⟨events, steps⟩
    | .stored result workflowId true => exact ⟨events, steps⟩
    | .stored result workflowId false =>
      obtain ⟨rest, woken⟩ := steps_of_op (.wake workflowId) (supply.drop 3) now middle
      exact ⟨events ++ rest, steps.append woken⟩

theorem persistAdmission_steps (supply : Supply) (activityId : Uuid)
    (decision : AdmissionDecision) (now : Timestamp) (start : Database)
    : ∃ events, Steps Step start events
        (final (persistAdmission supply activityId decision now start)) := by
  obtain ⟨events, steps⟩ :=
    steps_of_op (.persistAdmission activityId decision) supply now start
  rw [ActivityOp.exec, final_map] at steps
  rw [persistAdmission, final_bind]
  cases stored : storeAdmission supply activityId decision now start with
  | error raised stop =>
    rw [stored] at steps
    exact ⟨events, steps⟩
  | ok rejected middle =>
    rw [stored] at steps
    change ∃ events, Steps Step start events (final ((wakeRejected _ now rejected >>= fun _ =>
      requireActivity activityId) middle))
    rw [final_before (fun _ => requireActivity_reads activityId)]
    match rejected with
    | none => exact ⟨events, steps⟩
    | some workflowId =>
      obtain ⟨rest, woken⟩ := steps_of_op (.wake workflowId) (supply.drop 3) now middle
      exact ⟨events ++ rest, steps.append woken⟩

def Opened (state : Timed) : Prop := Fresh state.db

theorem storeStep_of_step {start stop : Database} {event : Event} (h : Step start event stop)
    : StoreStep event.op.powers event.now start stop :=
  h.related (fun op supply now => exec_storeStep op supply now)

end Calls

theorem run_of_timed {Step : Database → Event → Database → Prop} {events : List Event}
    {state : Timed} (h : Run Opened (TimedStep Step) events state)
    : Run Fresh Step events state.db :=
  h.map Timed.db (fun _ opened => opened) (fun _ _ _ timed => timed.step)

namespace Scenario

/-- Validation of stored bodies in runs that validate none: it is never asked. -/
scoped instance : PyRepr := ⟨fun _ => ""⟩

scoped instance : StaticDagAdapter := ⟨fun _ => none, fun _ => none⟩

scoped instance : FactPayloadAdapter := ⟨fun _ _ => none, fun _ => none⟩

def start : Timed := ⟨0, { repositoryId := 7 }⟩

def workflow : WorkflowRunRecord :=
  {
    workflowId := 1
    definitionName := "static_dag"
    definitionVersion := 1
    status := .running
    revision := 0
    state := ⟨"static_dag", 1, .nil⟩
    createdAt := 0
    updatedAt := 0
    startedBy := ⟨.user, "owner"⟩
    correlation := { correlationId := 2 }
  }

/-- A plan at the first revision that only requests activities, each with some retries. -/
def request (activityIds : List Uuid) (retries : Nat) : WorkflowTransitionPlan :=
  {
    state := { expectedRevision := 0, status := .running, state := workflow.state }
    activities := activityIds.map (fun activityId => {
      activityId := activityId
      payload := .runAgentTurn "go" [] {}
      idempotencyKey := activityId.str
      maxAttempts := retries + 1
      positive := Nat.succ_pos retries
    })
  }

def route : ExecutionRoute :=
  {
    routeId := 3
    assignments := [⟨"coder", "claude", "opus", none⟩]
    sessionStrategy := .new
    structuredProtocol := false
    terminalFallback := false
    capabilityRevision := 1
    usageRevision := 1
    rationale := "only candidate"
  }

def admission (reservationId : Uuid) (keys : List String) (now expires : Timestamp)
    : AdmissionDecision :=
  .admitted {
    reservationId := reservationId
    reasons := ["capacity and quota available"]
    reservationKeys := keys
    admittedAt := now
    reservationExpiresAt := expires
  }

def call (second : Int) (first : Nat) (op : ActivityOp) : Call :=
  ⟨op, seconds second, fun index => ⟨BitVec.ofNat 128 (first + index)⟩⟩

/-- The calls pass the guard and end in a state that passes the check. -/
def reaches (guard : Database → Call → Bool) (calls : List Call) (check : Timed → Bool) : Bool :=
  Library.Calls.reaches ActivityOp.exec guard start calls check

theorem run_of_reaches {guard : Database → Call → Bool} {calls : List Call}
    {check : Timed → Bool} (h : reaches guard calls check = true)
    : ∃ events state, Run Opened (TimedStep (GuardedStep guard)) events state
        ∧ check state = true := by
  obtain ⟨events, state, steps, checked⟩ := steps_of_reaches h
  exact ⟨events, state, ⟨start, ⟨7, rfl⟩, steps⟩, checked⟩

theorem run_of_reaches_any {calls : List Call} {check : Timed → Bool}
    (h : reaches (fun _ _ => true) calls check = true)
    : ∃ events state, Run Opened (TimedStep Step) events state ∧ check state = true := by
  obtain ⟨events, state, steps, checked⟩ := steps_of_reaches h
  exact ⟨events, state, ⟨start, ⟨7, rfl⟩, unguarded steps⟩, checked⟩

end Scenario

end Murder.Activities

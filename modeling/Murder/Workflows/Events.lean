import Murder.Workflows.Service
import Murder.Library.Runs

/-! The calls of deciders and signal producers as events.
An event is one load, one application of a plan or one enqueue; a decision that loads,
decides and applies is a sequence of such events, so others may act in between.
-/

namespace Murder.Workflows

open Murder.Contracts Murder.Facts Murder.Storage Library.Transactions Library.Runs

/-- What producers and deciders call. -/
inductive WorkflowOp
  | createWorkflowRun (run : WorkflowRunRecord) (waits : List WaitSpec)
  | enqueueSignal (workflowId : Uuid) (deduplicationKey : String)
    (payload : WorkflowSignalPayload) (signalId : Option Uuid)
  | loadDecisionInput (workflowId : Uuid) (signalLimit : Nat)
  | applyTransitionPlan (workflowId : Uuid) (plan : WorkflowTransitionPlan)

inductive WorkflowReply
  | created
  | enqueued (record : WorkflowSignalRecord)
  | loaded (input : WorkflowDecisionInput)
  | committed (run : WorkflowRunRecord)

/-- One call with its clock reading and identifiers, and how it ended. -/
structure WorkflowEvent where
  op : WorkflowOp
  now : Timestamp
  supply : Supply
  outcome : Except Failure WorkflowReply

section Events

variable [FactPayloadAdapter]

def WorkflowOp.exec (op : WorkflowOp) (supply : Supply) (now : Timestamp) : Sql WorkflowReply :=
  match op with
  | createWorkflowRun run waits =>
    (fun _ => WorkflowReply.created) <$> Workflows.createWorkflowRun supply run waits
  | enqueueSignal workflowId deduplicationKey payload signalId =>
    WorkflowReply.enqueued <$>
      enqueueWorkflowSignal supply workflowId deduplicationKey payload now signalId
  | loadDecisionInput workflowId signalLimit =>
    WorkflowReply.loaded <$> loadWorkflowDecisionInput workflowId now signalLimit
  | applyTransitionPlan workflowId plan =>
    WorkflowReply.committed <$> Workflows.applyTransitionPlan supply workflowId plan now

/-- An event takes the store where its call leaves it, with the outcome it had. -/
def WorkflowStep (start : Database) (event : WorkflowEvent) (stop : Database) : Prop :=
  outcome (event.op.exec event.supply event.now start) = event.outcome
    ∧ final (event.op.exec event.supply event.now start) = stop

def NoWorkflows (db : Database) : Prop :=
  db.workflows.runs = .empty ∧ db.workflows.signals = .empty

theorem steps_of_call (op : WorkflowOp) (supply : Supply) (now : Timestamp) (start : Database)
    : ∃ events, Steps WorkflowStep start events (final (op.exec supply now start)) :=
  ⟨[⟨op, now, supply, outcome (op.exec supply now start)⟩], .cons ⟨rfl, rfl⟩ (.nil _)⟩

end Events

/-- A committed transition of an event list: its workflow, its revision and what it lists. -/
structure Commit where
  workflowId : Uuid
  revision : Nat
  signalIds : List Uuid

def WorkflowEvent.commit? (event : WorkflowEvent) : Option Commit :=
  match event.op, event.outcome with
  | .applyTransitionPlan workflowId plan, .ok _ =>
    some ⟨workflowId, plan.state.expectedRevision + 1, plan.consumeSignalIds⟩
  | _, _ => none

def WorkflowEvent.sent? (event : WorkflowEvent) : Option WorkflowSignalRecord :=
  match event.outcome with
  | .ok (.enqueued record) => some record
  | _ => none

def commits (events : List WorkflowEvent) : List Commit :=
  events.filterMap WorkflowEvent.commit?

/-- What one event did. -/
inductive Progress (start : Database) (event : WorkflowEvent) : Database → Prop
  | idle (uncommitted : event.commit? = none) (unsent : event.sent? = none)
    : Progress start event start
  | created {run stop} (uncommitted : event.commit? = none) (unsent : event.sent? = none)
    (created : Created run start stop)
    : Progress start event stop
  | committed {workflowId plan stop}
    (committed : event.commit?
      = some ⟨workflowId, plan.state.expectedRevision + 1, plan.consumeSignalIds⟩)
    (unsent : event.sent? = none) (commit : Committed workflowId plan event.now start stop)
    : Progress start event stop
  | enqueued {candidate record stop} (uncommitted : event.commit? = none)
    (sent : event.sent? = some record) (named : candidate.deduplicationKey ≠ "")
    (unconsumed : candidate.consumedAt = none ∧ candidate.consumedAtRevision = none)
    (stored : Enqueued candidate record start stop)
    : Progress start event stop

/-- A refused call did nothing. -/
theorem Progress.refused {start : Database} {event : WorkflowEvent} {raised : Failure}
    (h : event.outcome = .error raised)
    : Progress start event start := by
  refine .idle ?_ ?_
  · rw [WorkflowEvent.commit?, h]
    cases event.op <;> rfl
  · rw [WorkflowEvent.sent?, h]

section Progress

variable [FactPayloadAdapter] {start stop : Database} {event : WorkflowEvent}

/-- Every event is refused or makes the progress of its call. -/
theorem WorkflowStep.progress (h : WorkflowStep start event stop) : Progress start event stop := by
  obtain ⟨op, now, supply, outcome⟩ := event
  obtain ⟨ended, last⟩ := h
  dsimp only at ended last
  cases op with
  | createWorkflowRun run waits =>
    rw [WorkflowOp.exec, final_map] at last
    rw [WorkflowOp.exec, outcome_map] at ended
    rcases returns_or_raises (createWorkflowRun supply run waits) start with
      ⟨value, returned⟩ | ⟨raised, refused⟩
    · rw [outcome_of_returns returned] at ended
      rw [last] at returned
      cases ended
      exact .created rfl rfl (createWorkflowRun_created returned)
    · rw [outcome_of_raises refused] at ended
      rw [last] at refused
      obtain rfl := createWorkflowRun_raises refused
      exact .refused ended.symm
  | enqueueSignal workflowId deduplicationKey payload signalId =>
    rw [WorkflowOp.exec, final_map] at last
    rw [WorkflowOp.exec, outcome_map] at ended
    rcases returns_or_raises
      (enqueueWorkflowSignal supply workflowId deduplicationKey payload now signalId) start with
      ⟨record, returned⟩ | ⟨raised, refused⟩
    · rw [outcome_of_returns returned] at ended
      rw [last] at returned
      cases ended
      obtain ⟨named, stored⟩ := enqueueWorkflowSignal_returns returned
      exact .enqueued rfl rfl named ⟨rfl, rfl⟩ stored
    · rw [outcome_of_raises refused] at ended
      rw [last] at refused
      obtain rfl := enqueueWorkflowSignal_raises refused
      exact .refused ended.symm
  | loadDecisionInput workflowId signalLimit =>
    rw [WorkflowOp.exec, final_map] at last
    rw [WorkflowOp.exec, outcome_map] at ended
    have same := loadWorkflowDecisionInput_reads workflowId now signalLimit start
    rw [last] at same
    obtain rfl := same
    rcases returns_or_raises (loadWorkflowDecisionInput workflowId now signalLimit) start with
      ⟨input, returned⟩ | ⟨raised, refused⟩
    · rw [outcome_of_returns returned] at ended
      cases ended
      exact .idle rfl rfl
    · rw [outcome_of_raises refused] at ended
      exact .refused ended.symm
  | applyTransitionPlan workflowId plan =>
    rw [WorkflowOp.exec, final_map] at last
    rw [WorkflowOp.exec, outcome_map] at ended
    rcases returns_or_raises (applyTransitionPlan supply workflowId plan now) start with
      ⟨run, returned⟩ | ⟨raised, refused⟩
    · rw [outcome_of_returns returned] at ended
      rw [last] at returned
      cases ended
      exact .committed rfl rfl (applyTransitionPlan_returns returned).1
    · rw [outcome_of_raises refused] at ended
      rw [last] at refused
      obtain rfl := applyTransitionPlan_raises refused
      exact .refused ended.symm

end Progress

end Murder.Workflows

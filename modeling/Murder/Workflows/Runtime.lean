import Murder.Permissions.Contracts

/-! Typed contracts of the persisted workflow state machine: runs, waits, addressed signals
and the immutable transition plan a decision returns.
-/

namespace Murder.Workflows

open Murder.Contracts Murder.Permissions

inductive WorkflowStatus
  | running
  | waiting
  | completed
  | failed
  | cancelled
  | paused
deriving DecidableEq

def WorkflowStatus.value : WorkflowStatus → String
  | .running => "running"
  | .waiting => "waiting"
  | .completed => "completed"
  | .failed => "failed"
  | .cancelled => "cancelled"
  | .paused => "paused"

/-- Membership in `{COMPLETED, FAILED, CANCELLED}`. -/
def WorkflowStatus.terminal : WorkflowStatus → Bool
  | .completed | .failed | .cancelled => true
  | .running | .waiting | .paused => false

structure VersionedState where
  schemaName : String
  schemaVersion : Nat
  value : JsonObject
deriving DecidableEq

/-- Authoritative current record of one workflow execution. -/
structure WorkflowRunRecord where
  workflowId : Uuid
  definitionName : String
  definitionVersion : Nat
  status : WorkflowStatus
  revision : Nat
  state : VersionedState
  createdAt : Timestamp
  updatedAt : Timestamp
  startedBy : Principal
  correlation : Correlation
  terminalReason : Option String := none
  parentTicketId : Option String := none
  definitionSnapshot : Option JsonObject := none
  stageMap : List (String × String) := []
deriving DecidableEq

/-- How many of a join's activities must finish; only a threshold carries a count. -/
inductive JoinMode
  | all
  | any
  | threshold (count : Nat)
deriving DecidableEq

def JoinMode.fits : JoinMode → Nat → Bool
  | .all, _ | .any, _ => true
  | .threshold count, joined => 1 ≤ count && count ≤ joined

def validJoin (activityIds : List Uuid) (mode : JoinMode) : Bool :=
  !activityIds.isEmpty && decide activityIds.Nodup && mode.fits activityIds.length

/-- The six durable wait variants. -/
inductive WaitSpec
  | activity (activityId : Uuid)
  | approval (approvalId : Uuid)
  | timer (timerId : Uuid) (dueAt : Timestamp)
  | externalSignal (signalName : String) (correlationKey : Option String)
  | resource (resourceKind : String) (selector : JsonObject)
  | join (activityIds : List Uuid) (mode : JoinMode)
    (valid : validJoin activityIds mode = true := by decide)
deriving DecidableEq

structure WorkflowWaitRecord where
  waitId : Uuid
  workflowId : Uuid
  createdAt : Timestamp
  spec : WaitSpec
  satisfiedAt : Option Timestamp := none
  satisfiedBySignalId : Option Uuid := none
deriving DecidableEq

/-- The four addressed durable signal variants. -/
inductive WorkflowSignalPayload
  | activityFinished (activityId resultId : Uuid)
  | approvalResolved (approvalId decisionId : Uuid)
  | timerFired (timerId : Uuid)
  | external (name : String) (correlationKey : Option String) (payload : JsonObject)
deriving DecidableEq

/-- Python's `==` on signal payloads. -/
def WorkflowSignalPayload.pyEq : WorkflowSignalPayload → WorkflowSignalPayload → Bool
  | .external name key payload, .external name' key' payload' =>
    name == name' && key == key' && payload.pyEq payload'
  | left, right => left == right

structure WorkflowSignalRecord where
  signalId : Uuid
  workflowId : Uuid
  deduplicationKey : String
  createdAt : Timestamp
  payload : WorkflowSignalPayload
  consumedAt : Option Timestamp := none
  consumedAtRevision : Option Nat := none
deriving DecidableEq

structure WorkflowDecisionInput where
  run : WorkflowRunRecord
  waits : List WorkflowWaitRecord
  signals : List WorkflowSignalRecord
  now : Timestamp
deriving DecidableEq

structure StateReplacement where
  expectedRevision : Nat
  status : WorkflowStatus
  state : VersionedState
  terminalReason : Option String := none
deriving DecidableEq

structure FactAggregate where
  kind : String
  id : Uuid
  revision : Option Nat := none
deriving DecidableEq

structure FactDraft where
  kind : String
  aggregate : Option FactAggregate := none
  payload : JsonObject
deriving DecidableEq

structure ExecutionRequirements where
  capabilityTags : List String := []
  preferredHarnesses : List String := []
  excludedHarnesses : List String := []
  preferredModels : List String := []
  requireStructuredProtocol : Bool := false
  requireTerminal : Bool := false
  reusableSession : Bool := true
  sessionStrategy : Option String := none
  worktree : Option String := none
  maxParallelismGroup : Option String := none
  policyProfile : Option String := none
deriving DecidableEq

inductive ActivityPayload
  | runAgentTurn (instructions : String) (contextRefs : List String)
    (requirements : ExecutionRequirements)
  | runReview (subjectRef instructions : String) (requirements : ExecutionRequirements)
deriving DecidableEq

def ActivityPayload.requirements : ActivityPayload → ExecutionRequirements
  | .runAgentTurn _ _ requirements => requirements
  | .runReview _ _ requirements => requirements

structure ActivityRequestDraft where
  activityId : Uuid
  payload : ActivityPayload
  idempotencyKey : String
  priority : Int := 0
  retryPolicy : String := "default"
  maxAttempts : Nat := 3
  positive : 1 ≤ maxAttempts := by decide
deriving DecidableEq

/-- One pure workflow decision: a state replacement with everything it consumes,
installs and requests.
-/
structure WorkflowTransitionPlan where
  state : StateReplacement
  consumeSignalIds : List Uuid := []
  replaceWaits : List WaitSpec := []
  activities : List ActivityRequestDraft := []
  approvals : List ApprovalRequestDraft := []
  facts : List FactDraft := []
deriving DecidableEq

end Murder.Workflows

import Murder.Workflows.Runtime

/-! Typed contracts of durable, claimed external work and of its admission. -/

namespace Murder.Activities

open Murder.Contracts Murder.Workflows

inductive ActivityStatus
  | pending
  | routing
  | waitingAdmission
  | claimed
  | running
  | succeeded
  | failed
  | cancelled
deriving DecidableEq

namespace ActivityStatus

def value : ActivityStatus → String
  | pending => "pending"
  | routing => "routing"
  | waitingAdmission => "waiting_admission"
  | claimed => "claimed"
  | running => "running"
  | succeeded => "succeeded"
  | failed => "failed"
  | cancelled => "cancelled"

/-- Membership in `('claimed','running')`. -/
def inProgress : ActivityStatus → Bool
  | claimed | running => true
  | _ => false

/-- The statuses an outcome leaves an activity in for good. -/
def terminal : ActivityStatus → Bool
  | succeeded | failed | cancelled => true
  | _ => false

/-- Membership in `('pending', 'routing', 'waiting_admission')`. -/
def routable : ActivityStatus → Bool
  | pending | routing | waitingAdmission => true
  | _ => false

end ActivityStatus

structure ModelAssignment where
  role : String
  harness : String
  model : String
  effort : Option String := none
deriving DecidableEq

inductive SessionStrategy
  | new
  | reuseIfCompatible
  | requireExisting
deriving DecidableEq

structure ExecutionRoute where
  routeId : Uuid
  assignments : List ModelAssignment
  sessionStrategy : SessionStrategy
  selectedSessionId : Option Uuid := none
  structuredProtocol : Bool
  terminalFallback : Bool
  capabilityRevision : Nat
  usageRevision : Nat
  rationale : String
deriving DecidableEq

structure ActivityRecord where
  activityId : Uuid
  workflowId : Uuid
  workflowRevision : Nat
  ordinal : Nat
  revision : Nat
  status : ActivityStatus
  payload : ActivityPayload
  requirements : ExecutionRequirements
  idempotencyKey : String
  priority : Int
  retryPolicy : String
  maxAttempts : Nat
  positive : maxAttempts ≥ 1
  routeId : Option Uuid := none
  route : Option ExecutionRoute := none
  sessionId : Option Uuid := none
  attempts : Nat := 0
  claimedBy : Option String := none
  claimFence : Nat := 0
  leaseExpiresAt : Option Timestamp := none
  createdAt : Timestamp
  updatedAt : Timestamp
deriving DecidableEq

structure ActivityClaim where
  activityId : Uuid
  owner : String
  attempt : Nat
  fence : Nat
  claimedAt : Timestamp
  expiresAt : Timestamp
deriving DecidableEq

inductive ActivityOutcome
  | success (output : JsonObject)
  | failure (code message : String) (retryable : Bool) (details : JsonObject)
  | cancelled (reason : Option String)
deriving DecidableEq

/-- Python's `==` on outcomes. -/
def ActivityOutcome.pyEq : ActivityOutcome → ActivityOutcome → Bool
  | .success output, .success output' => output.pyEq output'
  | .failure code message retryable details, .failure code' message' retryable' details' =>
    code == code' && message == message' && retryable == retryable'
      && details.pyEq details'
  | left, right => left == right

structure ActivityResultRecord where
  resultId : Uuid
  activityId : Uuid
  attempt : Nat
  outcome : ActivityOutcome
  completedAt : Timestamp
deriving DecidableEq

structure Admitted where
  reservationId : Uuid
  reasons : List String
  reservationKeys : List String := []
  admittedAt : Timestamp
  reservationExpiresAt : Timestamp
deriving DecidableEq

inductive AdmissionDecision
  | admitted (decision : Admitted)
  | deferred (reasons : List String) (retryAt : Option Timestamp)
  | rejected (reasons : List String)
deriving DecidableEq

end Murder.Activities

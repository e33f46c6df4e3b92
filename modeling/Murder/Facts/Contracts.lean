import Murder.Permissions.Contracts

/-! Typed contracts of immutable retained facts and of projection inputs. -/

namespace Murder.Facts

open Murder.Contracts

structure AggregateRef where
  kind : String
  id : Uuid
  revision : Option Nat := none
deriving DecidableEq

/-- Attributed actor of a retained fact: evidence, not an authorization subject. -/
structure FactActor where
  kind : String
  id : String
deriving DecidableEq

/-- The field bounds of an actor, checked where a draft is built. -/
def FactActor.valid (actor : FactActor) : Bool :=
  1 ≤ actor.kind.length && actor.kind.length ≤ 100
    && 1 ≤ actor.id.length && actor.id.length ≤ 500

def factActor (principal : Principal) : FactActor :=
  { kind := principal.kind.value, id := principal.id }

/-- The closed union of public payloads, and the private ones: the kinds the features
append themselves with the data each carries, and the open escape hatch.
-/
inductive FactPayload
  | workflowStarted (workflowId : Uuid) (definitionName : String) (definitionVersion : Nat)
    (status : String)
  | workflowTransitionApplied (workflowId : Uuid) (fromStatus toStatus : String)
    (revision : Nat)
  | workflowStateMigrated (workflowId : Uuid) (migrationName fromSchemaName : String)
    (fromSchemaVersion : Nat) (toSchemaName : String) (toSchemaVersion revision : Nat)
  | workflowOutcomeRecorded (workflowId : Uuid) (definitionName outcome : String)
    (reason : Option String)
  | activityStateChanged (type : String) (activityId workflowId : Uuid) (status : String)
    (revision attempt claimFence : Nat)
  | activityOutcomeRecorded (type : String) (workflowId resultId : Uuid) (attempt : Nat)
    (outcome : JsonObject)
  | writerLeaseAcquired (sessionId leaseId : Uuid) (mode : String) (fence : Nat)
    (expiresAt : Timestamp)
  | writerLeaseRenewed (sessionId leaseId : Uuid) (mode : String) (fence : Nat)
    (expiresAt : Timestamp)
  | writerLeaseReleased (sessionId leaseId : Uuid) (mode : String) (fence : Nat)
    (reason : String)
  | writerLeaseRevoked (sessionId leaseId : Uuid) (mode : String) (fence : Nat)
    (reason : String)
  | writerLeaseTakeover (sessionId previousLeaseId : Uuid) (previousFence : Nat)
    (leaseId : Uuid) (mode : String) (fence : Nat) (reason : String) (expiresAt : Timestamp)
  | sessionLifecycle (type : String) (sessionId : Uuid) (fromStatus : Option String)
    (toStatus : String) (revision : Nat) (harness transport : String)
  | activityAttemptFailed (workflowId resultId : Uuid) (attempt : Nat) (outcome : JsonObject)
  | approvalRequested (approvalId : Uuid) (operationDigest status : String)
    (workflowId : Option Uuid)
  | approvalResolved (approvalId decisionId : Uuid) (operationDigest status : String)
    (grantId : Option Uuid)
  | grantIssued (grantId : Uuid) (approvalId : Option Uuid) (operationDigest : String)
    (issuedTo : Principal) (scope : Permissions.GrantScope)
  | grantRevoked (grantId : Uuid) (reason : String) (uses : Nat)
  | grantUsed (grantId authorizationId operationId : Uuid) (operationDigest : String)
    (useNumber : Nat)
  | private_ (kind : String) (data : JsonObject)
deriving DecidableEq

def FactPayload.kind : FactPayload → String
  | .workflowStarted .. => "workflow.started"
  | .workflowTransitionApplied .. => "workflow.transition.applied"
  | .workflowStateMigrated .. => "workflow.state.migrated"
  | .workflowOutcomeRecorded .. => "workflow.outcome.recorded"
  | .activityStateChanged type .. => type
  | .activityOutcomeRecorded type .. => type
  | .writerLeaseAcquired .. => "session.writer.acquired"
  | .writerLeaseRenewed .. => "session.writer.renewed"
  | .writerLeaseReleased .. => "session.writer.released"
  | .writerLeaseRevoked .. => "session.writer.revoked"
  | .writerLeaseTakeover .. => "session.writer.takeover"
  | .sessionLifecycle type .. => type
  | .activityAttemptFailed .. => "activity.attempt_failed"
  | .approvalRequested .. => "permission.approval.requested"
  | .approvalResolved .. => "permission.approval.resolved"
  | .grantIssued .. => "permission.grant.issued"
  | .grantRevoked .. => "permission.grant.revoked"
  | .grantUsed .. => "permission.grant.used"
  | .private_ kind _ => kind

/-- The kinds whose payloads are registered public models. -/
def publicTypes : List String :=
  ["workflow.started", "workflow.transition.applied", "workflow.state.migrated",
    "workflow.outcome.recorded", "activity.created", "activity.routed", "activity.admitted",
    "activity.claimed", "activity.claim_renewed", "activity.started",
    "activity.claim_reaped", "activity.succeeded", "activity.failed", "activity.cancelled",
    "session.writer.acquired", "session.writer.renewed", "session.writer.released",
    "session.writer.revoked", "session.writer.takeover", "session.ready", "session.stopped",
    "session.failed", "session.lost"]

/-- Pydantic validation of a stored body into a registered public payload, or of a body
that declares itself private.
-/
class FactPayloadAdapter where
  validatePublic : String → JsonObject → Option FactPayload
  validatePrivate : JsonObject → Option FactPayload

def factPayloadFromStorage [FactPayloadAdapter] (kind : String) (raw : JsonObject)
    : Except Failure FactPayload :=
  if raw.get? "type" = some (.str "fact.private") then
    match FactPayloadAdapter.validatePrivate raw with
    | some payload => .ok payload
    | none => .error (.valueError "private fact payload does not validate")
  else if kind ∈ publicTypes then
    match FactPayloadAdapter.validatePublic kind raw with
    | some payload => .ok payload
    | none => .error (.valueError "public fact payload does not validate")
  else
    .ok (.private_ kind raw)

structure RetainedFactDraft where
  factId : Uuid
  schemaVersion : Nat := 1
  occurredAt : Timestamp
  aggregate : Option AggregateRef := none
  actor : FactActor
  correlation : Correlation
  payload : FactPayload
deriving DecidableEq

/-- A stored fact: the draft's content under the sequence and time of its recording. -/
structure RetainedFactRecord where
  sequence : Nat
  recordedAt : Timestamp
  draft : RetainedFactDraft
deriving DecidableEq

def RetainedFactRecord.factId (record : RetainedFactRecord) : Uuid := record.draft.factId

/-- A key-only projection invalidation appended with its source fact. -/
structure ProjectionInputDraft where
  inputId : Uuid
  projection : String
  subjectKey : String
  generation : Nat
deriving DecidableEq

structure ProjectionInputRecord where
  sequence : Nat
  inputId : Uuid
  sourceFactId : Option Uuid
  projection : String
  subjectKey : String
  generation : Nat
  createdAt : Timestamp
deriving DecidableEq

end Murder.Facts

import Murder.Library.Tables
import Murder.Library.Transactions
import Murder.Facts.Contracts
import Murder.Activities.Runtime
import Murder.Sessions.Contracts

/-! One repository's partition of the shared database, and programs over it.
Every statement of the source filters by the bound `repository_id`, so the partition keeps
that column only where a statement binds something else to it.
-/

namespace Murder.Storage

open Murder.Contracts Library.Tables Library.Transactions

/-- Two optional keys clash when both are present and equal: SQL keeps nulls distinct. -/
def sameKey {α : Type} [DecidableEq α] : Option α → Option α → Bool
  | some left, some right => left == right
  | _, _ => false

/-- Primary key `workflow_id`; unique `(repository_id, parent_ticket_id)`. -/
def runClash (left right : Workflows.WorkflowRunRecord) : Bool :=
  left.workflowId == right.workflowId || sameKey left.parentTicketId right.parentTicketId

/-- Primary key `signal_id`; unique `(workflow_id, deduplication_key)`. -/
def signalClash (left right : Workflows.WorkflowSignalRecord) : Bool :=
  left.signalId == right.signalId
    || (left.workflowId == right.workflowId && left.deduplicationKey == right.deduplicationKey)

/-- Primary key `wait_id`. -/
def waitClash (left right : Workflows.WorkflowWaitRecord) : Bool :=
  left.waitId == right.waitId

/-- A row of `workflow_transition_outbox`, the retired dispatch surface. -/
structure OutboxRow where
  outboxId : Uuid
  workflowId : Uuid
  workflowRevision : Nat
  kind : String
  ordinal : Nat
  payload : JsonObject
  createdAt : Timestamp
deriving DecidableEq

/-- Primary key `outbox_id`; unique `(workflow_id, workflow_revision, kind, ordinal)`. -/
def outboxClash (left right : OutboxRow) : Bool :=
  left.outboxId == right.outboxId
    || (left.workflowId == right.workflowId && left.workflowRevision == right.workflowRevision
      && left.kind == right.kind && left.ordinal == right.ordinal)

/-- Primary key `activity_id`; unique `(workflow_id, workflow_revision, ordinal)` and
`(repository_id, idempotency_key)`.
-/
def activityClash (left right : Activities.ActivityRecord) : Bool :=
  left.activityId == right.activityId
    || (left.workflowId == right.workflowId && left.workflowRevision == right.workflowRevision
      && left.ordinal == right.ordinal)
    || left.idempotencyKey == right.idempotencyKey

/-- A text column value: an identifier or the text of an instant, which never agree. -/
inductive ColumnText
  | id (value : Uuid)
  | time (value : Timestamp)
deriving DecidableEq

/-- A row of `activity_reservations`. -/
structure ReservationRow where
  repositoryId : ColumnText
  reservationId : Uuid
  activityId : Uuid
  reservationKeys : List String
  admittedAt : Timestamp
  expiresAt : Timestamp
  releasedAt : Option ColumnText
deriving DecidableEq

/-- Primary key `reservation_id`; unique `activity_id`. -/
def reservationClash (left right : ReservationRow) : Bool :=
  left.reservationId == right.reservationId || left.activityId == right.activityId

/-- A row of `activity_reservation_locks`. -/
structure LockRow where
  resourceKey : String
  activityId : Uuid
  expiresAt : Timestamp
deriving DecidableEq

/-- Primary key `(repository_id, resource_key)`. -/
def lockClash (left right : LockRow) : Bool :=
  left.resourceKey == right.resourceKey

/-- Primary key `result_id`; unique `(activity_id, attempt)`. -/
def resultClash (left right : Activities.ActivityResultRecord) : Bool :=
  left.resultId == right.resultId
    || (left.activityId == right.activityId && left.attempt == right.attempt)

/-- Unique `fact_id`. -/
def factClash (left right : Facts.RetainedFactRecord) : Bool :=
  left.factId == right.factId

/-- Unique `(repository_id, input_id)` and
`(source_fact_id, projection, subject_key, generation)`.
-/
def inputClash (left right : Facts.ProjectionInputRecord) : Bool :=
  left.inputId == right.inputId
    || (sameKey left.sourceFactId right.sourceFactId && left.projection == right.projection
      && left.subjectKey == right.subjectKey && left.generation == right.generation)

/-- Primary key `session_id`. -/
def sessionClash (left right : Sessions.HarnessSessionRecord) : Bool :=
  left.sessionId == right.sessionId

/-- A row of `session_writer_fences`. -/
structure FenceRow where
  sessionId : Uuid
  lastFence : Nat
deriving DecidableEq

/-- Primary key `session_id`. -/
def fenceClash (left right : FenceRow) : Bool :=
  left.sessionId == right.sessionId

/-- Primary key `lease_id`; unique `(session_id, fence)`. -/
def leaseClash (left right : Sessions.WriterLease) : Bool :=
  left.leaseId == right.leaseId
    || (left.sessionId == right.sessionId && left.fence == right.fence)

/-- A row of `writer_lease_audit_facts`: a forced takeover. -/
structure LeaseAuditRow where
  factId : Uuid
  sessionId : Uuid
  occurredAt : Timestamp
  previousLeaseId : Uuid
  previousFence : Nat
  newLeaseId : Uuid
  newFence : Nat
  holder : Principal
  revocationReason : String
deriving DecidableEq

/-- Primary key `fact_id`. -/
def auditClash (left right : LeaseAuditRow) : Bool :=
  left.factId == right.factId

/-- Primary key `decision_id`. -/
def decisionClash (left right : Permissions.PermissionDecisionRecord) : Bool :=
  left.decisionId == right.decisionId

/-- Primary key `decision_id`. -/
def evidenceClash (left right : Permissions.ApprovalDecisionRecord) : Bool :=
  left.decisionId == right.decisionId

/-- Primary key `approval_id`. -/
def approvalClash (left right : Permissions.ApprovalRequest) : Bool :=
  left.approvalId == right.approvalId

/-- Primary key `grant_id`. -/
def grantClash (left right : Permissions.PermissionGrant) : Bool :=
  left.grantId == right.grantId

/-- A row of `permission_authorization_uses`. -/
structure AuthorizationUseRow where
  enforcedAt : Timestamp
  authorization : Permissions.AuthorizationProof
deriving DecidableEq

/-- Primary key `authorization_id`. -/
def useClash (left right : AuthorizationUseRow) : Bool :=
  left.authorization.authorizationId == right.authorization.authorizationId

/-- A row of `permission_grant_revocations`. -/
structure RevocationRow where
  grantId : Uuid
  revokedAt : Timestamp
  reason : String
deriving DecidableEq

/-- Primary key `grant_id`. -/
def revocationClash (left right : RevocationRow) : Bool :=
  left.grantId == right.grantId

structure WorkflowTables where
  runs : Table Workflows.WorkflowRunRecord runClash := .empty
  signals : Table Workflows.WorkflowSignalRecord signalClash := .empty
  waits : Table Workflows.WorkflowWaitRecord waitClash := .empty
  outbox : Table OutboxRow outboxClash := .empty

structure ActivityTables where
  records : Table Activities.ActivityRecord activityClash := .empty
  reservations : Table ReservationRow reservationClash := .empty
  locks : Table LockRow lockClash := .empty
  results : Table Activities.ActivityResultRecord resultClash := .empty

/-- The fact log with the last sequence each autoincrement column handed out. -/
structure FactTables where
  retained : Table Facts.RetainedFactRecord factClash := .empty
  inputs : Table Facts.ProjectionInputRecord inputClash := .empty
  lastFactSequence : Nat := 0
  lastInputSequence : Nat := 0

structure SessionTables where
  records : Table Sessions.HarnessSessionRecord sessionClash := .empty
  fences : Table FenceRow fenceClash := .empty
  leases : Table Sessions.WriterLease leaseClash := .empty
  audit : Table LeaseAuditRow auditClash := .empty

structure PermissionTables where
  decisions : Table Permissions.PermissionDecisionRecord decisionClash := .empty
  evidence : Table Permissions.ApprovalDecisionRecord evidenceClash := .empty
  approvals : Table Permissions.ApprovalRequest approvalClash := .empty
  grants : Table Permissions.PermissionGrant grantClash := .empty
  uses : Table AuthorizationUseRow useClash := .empty
  revocations : Table RevocationRow revocationClash := .empty

/-- The rows a `RepoDb` reads and writes, under the repository it is bound to. -/
structure Database where
  repositoryId : Uuid
  workflows : WorkflowTables := {}
  activities : ActivityTables := {}
  facts : FactTables := {}
  sessions : SessionTables := {}
  permissions : PermissionTables := {}

/-- A program over the partition that may raise. -/
abbrev Sql (α : Type) := Program Database Failure α

/-- Run an insert that an integrity constraint may refuse. -/
def insertInto (insert : Database → Option Database) : Sql Unit := fun db =>
  match insert db with
  | some next => .ok () next
  | none => .error .integrityError db

variable {insert : Database → Option Database}

@[simp] theorem returns_insertInto {start stop : Database} {result : Unit}
    : Returns (insertInto insert) start result stop ↔ insert start = some stop := by
  unfold Returns insertInto
  cases insert start <;> simp

theorem Relates.insertInto {relation : Database → Database → Prop} [IsPreorder Database relation]
    (h : ∀ start stop, insert start = some stop → relation start stop)
    : Relates relation (insertInto insert) := by
  intro start
  unfold Storage.insertInto
  cases hi : insert start with
  | some next => exact h start next hi
  | none => exact refl_of relation start

/-- A refused insert writes nothing. -/
theorem raises_insertInto {start stop : Database}
    {raised : Failure} (h : Raises (insertInto insert) start raised stop)
    : stop = start := by
  unfold Raises insertInto at h
  cases hi : insert start with
  | some next => rw [hi] at h; cases h
  | none => rw [hi] at h; cases h; rfl

end Murder.Storage

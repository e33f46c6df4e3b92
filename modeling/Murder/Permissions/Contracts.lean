import Murder.Contracts.Common

/-! Permission, approval, grant and authorization contracts. -/

namespace Murder.Permissions

open Murder.Contracts

structure TerminalWrite where
  operationId : Uuid
  principal : Principal
  sessionId : Uuid
  encoding : String
  dataDigest : String
  byteCount : Nat
  leaseId : Uuid
  leaseFence : Nat
deriving DecidableEq

structure SessionControl where
  operationId : Uuid
  principal : Principal
  sessionId : Uuid
  command : String
  argumentsDigest : String
deriving DecidableEq

structure ToolInvocation where
  operationId : Uuid
  principal : Principal
  tool : String
  arguments : JsonObject
  argumentsDigest : String
  repositoryId : Option Uuid := none
  workflowId : Option Uuid := none
  activityId : Option Uuid := none
deriving DecidableEq

structure FileMutation where
  operationId : Uuid
  principal : Principal
  repositoryId : Uuid
  path : String
  action : String
  contentDigest : Option String := none
deriving DecidableEq

structure NetworkOperation where
  operationId : Uuid
  principal : Principal
  destination : String
  method : String
  payloadDigest : Option String := none
  workflowId : Option Uuid := none
  activityId : Option Uuid := none
deriving DecidableEq

structure GitOperation where
  operationId : Uuid
  principal : Principal
  repositoryId : Uuid
  action : String
  arguments : List String := []
  worktreePath : Option String := none
  remote : Option String := none
  ref : Option String := none
  argumentsDigest : String
deriving DecidableEq

structure SecretAccess where
  operationId : Uuid
  principal : Principal
  secretRef : String
  access : String
  workflowId : Option Uuid := none
  activityId : Option Uuid := none
deriving DecidableEq

structure WriterTakeover where
  operationId : Uuid
  principal : Principal
  sessionId : Uuid
  requestedMode : String
  currentLeaseId : Uuid
  currentLeaseFence : Nat
  currentHolder : Principal
  requestDigest : String
deriving DecidableEq

/-- The closed union of operations a policy decides on. -/
inductive ProposedOperation
  | terminalWrite (operation : TerminalWrite)
  | sessionControl (operation : SessionControl)
  | toolInvocation (operation : ToolInvocation)
  | fileMutation (operation : FileMutation)
  | networkOperation (operation : NetworkOperation)
  | gitOperation (operation : GitOperation)
  | secretAccess (operation : SecretAccess)
  | writerTakeover (operation : WriterTakeover)
deriving DecidableEq

namespace ProposedOperation

def type : ProposedOperation → String
  | terminalWrite _ => "terminal.write"
  | sessionControl _ => "session.control"
  | toolInvocation _ => "tool.invoke"
  | fileMutation _ => "file.mutate"
  | networkOperation _ => "network.request"
  | gitOperation _ => "git.mutate"
  | secretAccess _ => "secret.access"
  | writerTakeover _ => "session.writer.takeover"

/-- `getattr(operation, "session_id", None)`. -/
def sessionId : ProposedOperation → Option Uuid
  | terminalWrite operation => some operation.sessionId
  | sessionControl operation => some operation.sessionId
  | writerTakeover operation => some operation.sessionId
  | _ => none

/-- `getattr(operation, "repository_id", None)`. -/
def repositoryId : ProposedOperation → Option Uuid
  | toolInvocation operation => operation.repositoryId
  | fileMutation operation => some operation.repositoryId
  | gitOperation operation => some operation.repositoryId
  | _ => none

/-- `getattr(operation, "workflow_id", None)`. -/
def workflowId : ProposedOperation → Option Uuid
  | toolInvocation operation => operation.workflowId
  | networkOperation operation => operation.workflowId
  | secretAccess operation => operation.workflowId
  | _ => none

/-- `getattr(operation, "activity_id", None)`. -/
def activityId : ProposedOperation → Option Uuid
  | toolInvocation operation => operation.activityId
  | networkOperation operation => operation.activityId
  | secretAccess operation => operation.activityId
  | _ => none

/-- `getattr(operation, "destination", None)`. -/
def destination : ProposedOperation → Option String
  | networkOperation operation => some operation.destination
  | _ => none

end ProposedOperation

inductive Reviewer
  | human
  | llm
deriving DecidableEq

inductive ReviewerPolicy
  | any
  | all
  | humanRequired
deriving DecidableEq

inductive PolicyOutcome
  | allow (reason : String)
  | deny (reason : String)
  | requireApproval (reason : String) (requiredReviewers : List Reviewer)
    (reviewerPolicy : ReviewerPolicy)
  | transform (reason : String) (transformedOperation : ProposedOperation)
deriving DecidableEq

structure PermissionDecisionRecord where
  decisionId : Uuid
  operationId : Uuid
  operationDigest : String
  outcome : PolicyOutcome
  policyId : String
  decidedAt : Timestamp
deriving DecidableEq

structure GrantScope where
  repositoryIds : List Uuid := []
  workflowIds : List Uuid := []
  activityIds : List Uuid := []
  sessionIds : List Uuid := []
  operationTypes : List String := []
  pathPrefixes : List String := []
  destinations : List String := []
  maxUses : Nat := 1
  expiresAt : Timestamp
deriving DecidableEq

/-- A workflow's request for an approval, returned by a pure decision. -/
structure ApprovalRequestDraft where
  approvalId : Uuid
  operationDigest : String
  summary : String
  details : JsonObject := .nil
  requiredReviewers : List Reviewer
  policy : ReviewerPolicy
  requestedBy : Principal
  grantScope : GrantScope
deriving DecidableEq

inductive ApprovalStatus
  | pending
  | approved
  | denied
  | expired
  | cancelled
deriving DecidableEq

def ApprovalStatus.value : ApprovalStatus → String
  | .pending => "pending"
  | .approved => "approved"
  | .denied => "denied"
  | .expired => "expired"
  | .cancelled => "cancelled"

/-- What an approval was requested for: one proposed operation, or a workflow's draft. -/
inductive ApprovalPayload
  | operation (operation : ProposedOperation)
  | draft (draft : ApprovalRequestDraft)
deriving DecidableEq

structure ApprovalRequest where
  approvalId : Uuid
  policyDecisionId : Uuid
  operationDigest : String
  status : ApprovalStatus := .pending
  requiredReviewers : List Reviewer
  reviewerPolicy : ReviewerPolicy
  grantScope : GrantScope
  requestedAt : Timestamp
  requestedBy : Principal
  workflowId : Option Uuid := none
  workflowRevision : Option Nat := none
  description : String
  payload : ApprovalPayload
deriving DecidableEq

/-- Required reviewers are non-empty and unique, and a human policy admits a human. -/
def validReviewerPolicy (requiredReviewers : List Reviewer) (policy : ReviewerPolicy) : Bool :=
  !requiredReviewers.isEmpty && decide requiredReviewers.Nodup
    && (policy != .humanRequired || requiredReviewers.contains .human)

inductive ApprovalChoice
  | approve
  | deny
  | abstain
deriving DecidableEq

structure ApprovalDecisionRecord where
  decisionId : Uuid
  approvalId : Uuid
  operationDigest : String
  choice : ApprovalChoice
  reviewer : Principal
  rationale : String := ""
  decidedAt : Timestamp
deriving DecidableEq

structure PermissionGrant where
  grantId : Uuid
  operationDigest : String
  issuedTo : Principal
  issuedBy : Principal
  scope : GrantScope
  issuedAt : Timestamp
  approvalId : Option Uuid := none
  decisionId : Uuid
  revokedAt : Option Timestamp := none
  revocationReason : Option String := none
  uses : Nat := 0
deriving DecidableEq

structure AuthorizationProof where
  authorizationId : Uuid
  grantId : Uuid
  operationId : Uuid
  operationType : String
  operationDigest : String
  subject : Principal
  issuedAt : Timestamp
  expiresAt : Timestamp
  leaseFence : Option Nat := none
deriving DecidableEq

end Murder.Permissions

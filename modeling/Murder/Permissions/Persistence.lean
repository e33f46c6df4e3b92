import Murder.Facts.Log

/-! Persistence of permission decisions, approvals, grants and their uses.
A grant's uses are counted from the rows that consumed it, never stored.
-/

namespace Murder.Permissions

open Murder.Contracts Murder.Facts Murder.Storage Library.Transactions

def namespaceUrl : Uuid := 0x6ba7b8119dad11d180b400c04fd430c8

def saveDecision (decision : PermissionDecisionRecord) : Sql Unit :=
  insertInto fun db => do
    let decisions ← db.permissions.decisions.insert? decision
    pure { db with permissions := { db.permissions with decisions := decisions } }

def insertApprovalRequest (request : ApprovalRequest) : Sql Unit :=
  insertInto fun db => do
    let approvals ← db.permissions.approvals.insert? request
    pure { db with permissions := { db.permissions with approvals := approvals } }

def approvalRequestedFact (request : ApprovalRequest) : RetainedFactDraft :=
  {
    factId := uuid5 namespaceUrl s!"murder:approval-requested:{request.approvalId}"
    occurredAt := request.requestedAt
    aggregate := some {
      kind := if request.workflowId.isSome then "workflow" else "permission"
      id := request.workflowId.getD request.policyDecisionId
      revision := request.workflowRevision
    }
    actor := factActor request.requestedBy
    correlation := { correlationId := request.policyDecisionId }
    payload := .approvalRequested request.approvalId request.operationDigest
      request.status.value request.workflowId
  }

def saveApprovalRequest (supply : Supply) (request : ApprovalRequest) : Sql Unit := do
  insertApprovalRequest request
  let _ ← appendFact (approvalRequestedFact request)
    [{
      inputId := supply 0
      projection := "approvals"
      subjectKey := request.approvalId.str
      generation := request.workflowRevision.getD 0
    }]
    request.requestedAt

def transitionDecision (workflowId : Uuid) (workflowRevision : Nat)
    (draft : ApprovalRequestDraft) (createdAt : Timestamp)
    : PermissionDecisionRecord :=
  {
    decisionId := uuid5 namespaceUrl
      s!"murder:approval-policy:{workflowId}:{workflowRevision}:{draft.approvalId}"
    operationId := draft.approvalId
    operationDigest := draft.operationDigest
    outcome := .requireApproval draft.summary draft.requiredReviewers draft.policy
    policyId := "workflow.transition.v1"
    decidedAt := createdAt
  }

def transitionApproval (workflowId : Uuid) (workflowRevision : Nat)
    (draft : ApprovalRequestDraft) (createdAt : Timestamp) : ApprovalRequest :=
  {
    approvalId := draft.approvalId
    policyDecisionId :=
      (transitionDecision workflowId workflowRevision draft createdAt).decisionId
    operationDigest := draft.operationDigest
    requiredReviewers := draft.requiredReviewers
    reviewerPolicy := draft.policy
    grantScope := draft.grantScope
    requestedAt := createdAt
    requestedBy := draft.requestedBy
    workflowId := some workflowId
    workflowRevision := some workflowRevision
    description := draft.summary
    payload := .draft draft
  }

def insertApprovalRequests (supply : Supply) (workflowId : Uuid) (workflowRevision : Nat)
    (createdAt : Timestamp) : List ApprovalRequestDraft → Sql Unit
  | [] => pure ()
  | draft :: rest => do
      raiseIf (draft.operationDigest.length ≠ 64)
        (.valueError "workflow approval operation_digest must be a SHA-256 digest")
      raiseIf (¬ validReviewerPolicy draft.requiredReviewers draft.policy)
        (.valueError "required reviewers do not validate")
      saveDecision (transitionDecision workflowId workflowRevision draft createdAt)
      saveApprovalRequest supply (transitionApproval workflowId workflowRevision draft createdAt)
      insertApprovalRequests (supply.drop 1) workflowId workflowRevision createdAt rest

/-- Everything but policy decisions, approval requests and facts. -/
def outsideRequests (db : Database) :=
  (db.repositoryId, db.workflows, db.activities, db.sessions, db.permissions.evidence,
    db.permissions.grants, db.permissions.uses, db.permissions.revocations)

theorem OnlyFacts.outsideRequests {start stop : Database} (h : OnlyFacts start stop)
    : Keeps outsideRequests start stop := by
  unfold Keeps Permissions.outsideRequests
  rw [h]

theorem saveDecision_frame (decision : PermissionDecisionRecord)
    : Relates (Keeps outsideRequests) (saveDecision decision) := by
  refine Relates.insertInto (fun start stop h => ?_)
  obtain ⟨decisions, -, hm⟩ := Option.bind_eq_some_iff.mp h
  cases hm
  rfl

theorem saveApprovalRequest_frame (supply : Supply) (request : ApprovalRequest)
    : Relates (Keeps outsideRequests) (saveApprovalRequest supply request) := by
  refine Relates.bind (Relates.insertInto (fun start stop h => ?_)) (fun _ => ?_)
  · obtain ⟨approvals, -, hm⟩ := Option.bind_eq_some_iff.mp h
    cases hm
    rfl
  · exact .bind ((appendFact_onlyFacts _ _ _).imp OnlyFacts.outsideRequests)
      (fun _ => .pure _)

/-- A transition's approvals touch nothing outside requests, by induction over the drafts. -/
theorem insertApprovalRequests_frame (supply : Supply) (workflowId : Uuid)
    (workflowRevision : Nat) (createdAt : Timestamp) (drafts : List ApprovalRequestDraft)
    : Relates (Keeps outsideRequests)
        (insertApprovalRequests supply workflowId workflowRevision createdAt drafts) := by
  induction drafts generalizing supply with
  | nil => exact .pure _
  | cons draft rest ih =>
    refine Relates.bind (.raiseIf _ _) (fun _ => ?_)
    refine Relates.bind (.raiseIf _ _) (fun _ => ?_)
    refine Relates.bind (saveDecision_frame _) (fun _ => ?_)
    exact .bind (saveApprovalRequest_frame _ _) (fun _ => ih _)

end Murder.Permissions

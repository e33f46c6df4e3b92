import Murder.Harness.Operations

/-! The reducer of permission responses: it answers the request a decision was made for once
and waits for evidence that the answer resolved it.
-/

namespace Murder.Harness

open Contracts

inductive AnswerPermissionPhase
  | created
  | awaitingRequest
  | readyToRespond
  | responseEmitted
  | awaitingAcknowledgment
  | resolved
  | ambiguous
  | failed
  | escalated
deriving DecidableEq

def AnswerPermissionPhase.name : AnswerPermissionPhase → String
  | .created => "CREATED"
  | .awaitingRequest => "AWAITING_REQUEST"
  | .readyToRespond => "READY_TO_RESPOND"
  | .responseEmitted => "RESPONSE_EMITTED"
  | .awaitingAcknowledgment => "AWAITING_ACKNOWLEDGMENT"
  | .resolved => "RESOLVED"
  | .ambiguous => "AMBIGUOUS"
  | .failed => "FAILED"
  | .escalated => "ESCALATED"

/-- The response a decision names, by an identifier or by a label. -/
structure PermissionResponseTarget where
  stableResponseId : Option String
  label : String
  named : (given stableResponseId).isSome = true ∨ strip label ≠ ""

/-- A decision bound to one request. -/
structure PermissionAnswerRequest where
  requestIdHint : Option String
  requestFingerprint : Option String
  response : PermissionResponseTarget
  expectedRiskAttributes : Option (Finset String)
  bound : (given requestIdHint).isSome = true ∨ (given requestFingerprint).isSome = true

structure AnswerPermissionOperation where
  envelope : OperationEnvelope AnswerPermissionPhase
  request : PermissionAnswerRequest
  responseActionId : Option ActionId := none
  baselineRevision : Option ObservationRevision := none
  ambiguityReason : Option String := none

/-- `AnswerPermission`, what the response carries. -/
structure AnswerPermission where
  requestIdHint : Option String
  responseId : Option String
  responseLabel : Option String
deriving DecidableEq

abbrev PermissionDecision := ControllerDecision AnswerPermissionPhase AnswerPermission

section Predicates

variable [Sha256]

def permissionFingerprint (request : PermissionRequestState) : String :=
  Sha256.hexdigest (String.intercalate "\x1d"
    [strip (request.toolName.getD ""), strip (request.command.getD ""),
      strip (request.description.getD ""), fingerprintChoices request.choices])

def permissionMatches (expected : PermissionAnswerRequest) (snapshot : ObservationSnapshot)
    : PredicateResult :=
  let result (value : TruthValue) (reason : String) : PredicateResult :=
    ⟨value, "permission_matches", snapshot.revision, reason⟩
  match snapshot.permissionRequest.value with
  | none =>
    result .unknown ("permission request is " ++ snapshot.permissionRequest.knowledge.name)
  | some request =>
    if (given expected.requestIdHint).isSome ∧ request.requestIdHint = none then
      result .unknown "observed permission request has no stable id"
    else
      result
        (.ofBool
          ((given expected.requestIdHint).all (fun hint => request.requestIdHint == some hint)
            && (given expected.requestFingerprint).all (permissionFingerprint request == ·)
            && expected.expectedRiskAttributes.all (request.riskAttributes == ·)))
        "permission request identity and risk binding compared"

def permissionResponseAvailable [PyRepr] (expected : PermissionAnswerRequest)
    (snapshot : ObservationSnapshot)
    : PredicateResult :=
  let result (value : TruthValue) (reason : String) : PredicateResult :=
    ⟨value, "permission_response_available", snapshot.revision, reason⟩
  let label := PyRepr.repr (.str expected.response.label)
  match snapshot.permissionRequest.value with
  | none => result .unknown "permission choices are not currently known"
  | some request =>
    match findChoice request.choices expected.response.stableResponseId
        expected.response.label with
    | .ambiguous => result .unknown ("permission response label " ++ label ++ " is ambiguous")
    | .missing => result .false ("permission response " ++ label ++ " is unavailable")
    | .found choice =>
      match choice.disabled with
      | none => result .unknown "permission response disabled state is unknown"
      | some disabled =>
        result (.ofBool (!disabled)) "permission response availability evaluated"

/-- Only a dialog that reports the recorded response acknowledges it; a dialog that is gone
does not.
-/
def permissionResponseAcknowledged (op : AnswerPermissionOperation)
    (snapshot : ObservationSnapshot)
    : PredicateResult :=
  let result (value : TruthValue) (reason : String) : PredicateResult :=
    ⟨value, "permission_response_acknowledged", snapshot.revision, reason⟩
  if freshSince op.responseActionId op.baselineRevision snapshot.revision = false then
    result .unknown "no fresh observation after permission response emission"
  else
    match snapshot.permissionRequest.value with
    | none =>
      result .unknown
        (if snapshot.permissionRequest.knowledge = .absent then
          "permission request disappeared without a correlated resolution acknowledgment"
        else
          "permission request is " ++ snapshot.permissionRequest.knowledge.name)
    | some request =>
      match (permissionMatches op.request snapshot).value with
      | .false =>
        result .unknown "request changed without a correlated resolution acknowledgment"
      | .unknown =>
        result .unknown "current permission request cannot be safely correlated"
      | .true =>
        if op.request.response.stableResponseId ≠ none
            ∧ request.acknowledgedResponseId = op.request.response.stableResponseId then
          result .true "permission dialog reports the recorded response as acknowledged"
        else
          result .false "same permission request remains after unsafe response emission"

end Predicates

def AnswerPermissionOperation.expired (op : AnswerPermissionOperation) (now : Timestamp)
    : Bool :=
  op.envelope.deadline.any (· ≤ now)

def responseAction (op : AnswerPermissionOperation) : SemanticAction AnswerPermission where
  actionId := (uuid5 namespaceUrl (op.envelope.operationId ++ ":answer-permission")).str
  operationId := op.envelope.operationId
  duplicatePolicy := .neverAutomaticallyReplay
  payload := {
    requestIdHint := op.request.requestIdHint
    responseId := op.request.response.stableResponseId
    responseLabel := some op.request.response.label }

section Reconcile

variable [Sha256] [PyRepr] (op : AnswerPermissionOperation) (snapshot : ObservationSnapshot)

def reconcileAwaitingRequest : PermissionDecision :=
  let identity := permissionMatches op.request snapshot
  match identity.value with
  | .true => .observe .readyToRespond "target permission request is visible" [identity]
  | .false => .escalate .escalated "a different permission request is visible" [identity]
  | .unknown => .observe .awaitingRequest "await target permission evidence" [identity]

def reconcileReadyToRespond : PermissionDecision :=
  let identity := permissionMatches op.request snapshot
  let availability := permissionResponseAvailable op.request snapshot
  let predicates := [identity, availability]
  if identity.value = .false ∨ availability.value = .false then
    .escalate .escalated "permission request or response changed" predicates
  else if identity.value ≠ .true ∨ availability.value ≠ .true then
    .observe .readyToRespond "permission-response preconditions remain uncertain" predicates
  else if op.responseActionId ≠ none then
    .escalate .ambiguous "a permission response action already exists" predicates
  else
    .emit .responseEmitted (responseAction op) "respond to verified permission request"
      predicates

def reconcileResponse : PermissionDecision :=
  let acknowledged := permissionResponseAcknowledged op snapshot
  match acknowledged.value with
  | .true => .succeed .resolved "permission response acknowledged" [acknowledged]
  | .false =>
    .escalate .ambiguous "permission response lacks compatible acknowledgment" [acknowledged]
  | .unknown =>
    .observe .awaitingAcknowledgment "await fresh permission-response acknowledgment"
      [acknowledged]

def reconcilePermissionPhase : PermissionDecision :=
  match op.envelope.phase with
  | .created => .observe .awaitingRequest "begin verified permission response"
  | .awaitingRequest => reconcileAwaitingRequest op snapshot
  | .readyToRespond => reconcileReadyToRespond op snapshot
  | .responseEmitted => reconcileResponse op snapshot
  | .awaitingAcknowledgment => reconcileResponse op snapshot
  | .ambiguous =>
    .escalate .escalated ((given op.ambiguityReason).getD "ambiguous permission response")
  | phase => .fail .failed ("invalid permission phase " ++ phase.name)

def reconcileAnswerPermission (now : Timestamp) : PermissionDecision :=
  if op.expired now then
    if op.envelope.phase = .responseEmitted ∨ op.envelope.phase = .awaitingAcknowledgment then
      .escalate .ambiguous
        "permission response was emitted without verified acknowledgment before deadline"
    else
      .fail .failed "permission response deadline exceeded before emission"
  else if snapshot.health.requiresEscalation then
    .escalate .escalated "observation health requires escalation"
  else
    reconcilePermissionPhase op snapshot

end Reconcile

/-- The operation behind a decision, recorded before the response is emitted. -/
def advanceAnswerPermission (op : AnswerPermissionOperation) (decision : PermissionDecision)
    (snapshot : ObservationSnapshot) (now : Timestamp)
    : AnswerPermissionOperation :=
  { op with
    envelope := { op.envelope with
      phase := decision.nextPhase
      status := statusAfter op.envelope.status decision.kind
      updatedAt := now
      lastObservationRevision := some snapshot.revision
      actionHistory := op.envelope.actionHistory ++ (decision.action.map (·.actionId)).toList }
    responseActionId :=
      match decision.action with
      | some action => some action.actionId
      | none => op.responseActionId
    baselineRevision :=
      if decision.action.isSome then some snapshot.revision else op.baselineRevision
    ambiguityReason :=
      if decision.kind = .escalate then some decision.reason else op.ambiguityReason }

end Murder.Harness

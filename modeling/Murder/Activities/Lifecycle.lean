import Murder.Workflows.Service

/-! The fenced lifecycle of durable activities: routing, admission under resource locks,
claims with a lease, and completion that wakes the owning workflow.
-/

namespace Murder.Activities

open Murder.Contracts Murder.Facts Murder.Storage Murder.Workflows Library.Tables
open Library.Transactions

def withRecords (db : Database) (records : Table ActivityRecord activityClash) : Database :=
  { db with activities := { db.activities with records := records } }

/-- `UPDATE activities SET … WHERE …`, with the number of updated rows. -/
def updateActivities (where_ : ActivityRecord → Bool) (change : ActivityRecord → ActivityRecord)
    (keeps : Table.KeepsKeys activityClash change := by
      exact ⟨fun _ _ => rfl, fun _ _ => rfl⟩) : Sql Nat := do
  let db ← get
  set (withRecords db (db.activities.records.update where_ change keeps))
  pure (db.activities.records.count where_)

/-- The row carries exactly the claim, and its lease is not over. -/
def holdsClaim (claim : ActivityClaim) (now : Timestamp) (activity : ActivityRecord) : Bool :=
  activity.activityId == claim.activityId && activity.attempts == claim.attempt
    && activity.claimedBy == some claim.owner && activity.claimFence == claim.fence
    && activity.leaseExpiresAt.any (fun expiry => now < expiry)

/-- `claim_expires_at <= ?`, false of a missing lease. -/
def leaseOver (now : Timestamp) (activity : ActivityRecord) : Bool :=
  activity.leaseExpiresAt.any (fun expiry => expiry ≤ now)

def routed (route : ExecutionRoute) (now : Timestamp) (activity : ActivityRecord)
    : ActivityRecord :=
  {
    activity with
      status := .waitingAdmission
      revision := activity.revision + 1
      route := some route
      routeId := some route.routeId
      sessionId := route.selectedSessionId
      updatedAt := now
  }

def persistRoute (activityId : Uuid) (route : ExecutionRoute) (now : Timestamp)
    : Sql ActivityRecord :=
  transaction do
    let updated ← updateActivities
      (fun activity => activity.activityId == activityId && activity.status.routable)
      (routed route now)
    raiseIf (updated ≠ 1)
      (.activityLifecycle "activity cannot be routed from its current state")
    let activity ← requireActivity activityId
    appendActivityInput activity "routed" now
    pure activity

/-- The activities whose unreleased reservation is over. -/
def expiredReservations (db : Database) (timestamp : Timestamp) : List Uuid :=
  (db.activities.reservations.select (fun row =>
    row.repositoryId == .id db.repositoryId && row.releasedAt.isNone
      && row.expiresAt ≤ timestamp)).map ReservationRow.activityId

/-- Release the listed reservations and drop their locks. The update of the reservations
binds the repository id to `released_at` and the timestamp to `repository_id`.
-/
def released (ids : List Uuid) (timestamp : Timestamp) (db : Database) : Database :=
  { db with activities := {
    db.activities with
      reservations := db.activities.reservations.update
        (fun row => row.repositoryId == .time timestamp && ids.contains row.activityId)
        (fun row => { row with releasedAt := some (.id db.repositoryId) })
      locks := db.activities.locks.delete (fun row => ids.contains row.activityId)
  } }

def releaseExpiredReservations (timestamp : Timestamp) : Sql Nat := do
  let db ← get
  let ids := expiredReservations db timestamp
  if ids = [] then
    pure 0
  else
    modify (released ids timestamp)
    pure ids.length

/-- `INSERT … ON CONFLICT(activity_id) DO UPDATE`: the row of the activity is replaced. -/
def upsertReservation (activityId : Uuid) (decision : Admitted) (timestamp : Timestamp)
    : Sql Unit :=
  insertInto fun db => do
    let reservations ←
      (db.activities.reservations.delete (fun row => row.activityId == activityId)).insert? {
        repositoryId := .id db.repositoryId
        reservationId := decision.reservationId
        activityId := activityId
        reservationKeys := decision.reservationKeys
        admittedAt := timestamp
        expiresAt := decision.reservationExpiresAt
        releasedAt := none
      }
    pure { db with activities := { db.activities with reservations := reservations } }

def lockRows (activityId : Uuid) (decision : Admitted) : List LockRow :=
  decision.reservationKeys.map (fun key => {
    resourceKey := key
    activityId := activityId
    expiresAt := decision.reservationExpiresAt
  })

def dropLocks (activityId : Uuid) (db : Database) : Database :=
  { db with activities := {
    db.activities with
      locks := db.activities.locks.delete (fun row => row.activityId == activityId)
  } }

def insertLocks (activityId : Uuid) (decision : Admitted) : Sql Unit := do
  let db ← get
  let locks ← orRaise (db.activities.locks.insertAll? (lockRows activityId decision))
    (.activityLifecycle "admission resource lock is already reserved")
  set { db with activities := { db.activities with locks := locks } }

/-- `_outcome_status` -/
def outcomeStatus : ActivityOutcome → ActivityStatus
  | .success _ => .succeeded
  | .failure .. => .failed
  | .cancelled _ => .cancelled

def dumpOutcome : ActivityOutcome → JsonObject
  | .success output => .ofList [("output", .obj output), ("type", .str "success")]
  | .failure code message retryable details =>
    .ofList [("code", .str code), ("details", .obj details), ("message", .str message),
      ("retryable", .bool retryable), ("type", .str "failure")]
  | .cancelled reason =>
    .ofList [("reason", match reason with | some text => .str text | none => .null),
      ("type", .str "cancelled")]

def completionFact (activity : ActivityRecord) (result : ActivityResultRecord)
    (retrying : Bool) (actor : FactActor) (correlation : Correlation) : RetainedFactDraft :=
  {
    factId := result.resultId
    occurredAt := result.completedAt
    aggregate := some {
      kind := "activity"
      id := activity.activityId
      revision := some result.attempt
    }
    actor := actor
    correlation := correlation
    payload :=
      if retrying then
        .activityAttemptFailed activity.workflowId result.resultId result.attempt
          (dumpOutcome result.outcome)
      else
        .activityOutcomeRecorded ("activity." ++ (outcomeStatus result.outcome).value)
          activity.workflowId result.resultId result.attempt (dumpOutcome result.outcome)
  }

def appendCompletionFact (supply : Supply) (activity : ActivityRecord)
    (result : ActivityResultRecord) (retrying : Bool) (actor : FactActor) : Sql Unit := do
  let run ← requireWorkflowRun activity.workflowId
  let current ← requireActivity activity.activityId
  let _ ← appendFact (completionFact activity result retrying actor run.correlation)
    [{
      inputId := supply 0
      projection := "activities"
      subjectKey := activity.activityId.str
      generation := current.revision
    }]
    result.completedAt

def insertResult (result : ActivityResultRecord) : Sql Unit :=
  insertInto fun db => do
    let results ← db.activities.results.insert? result
    pure { db with activities := { db.activities with results := results } }

def enqueueFinished (supply : Supply) (activity : ActivityRecord) (deduplicationKey : String)
    (result : ActivityResultRecord) : Sql WorkflowSignalRecord :=
  enqueueWorkflowSignal supply activity.workflowId deduplicationKey
    (.activityFinished activity.activityId result.resultId) result.completedAt

section Wake

variable [PyRepr] [StaticDagAdapter] [FactPayloadAdapter]

/-- Let the workflow decide; what goes wrong is logged and forgotten. -/
def bestEffortWake (supply : Supply) (workflowId : Uuid) (timestamp : Timestamp) : Sql Unit :=
  bestEffort (decideOnce resolvePersistedMachine supply workflowId timestamp)

end Wake

def touched (now : Timestamp) (activity : ActivityRecord) : ActivityRecord :=
  { activity with revision := activity.revision + 1, updatedAt := now }

def reserve (activityId : Uuid) (decision : Admitted) (now : Timestamp) : Sql Unit := do
  let _ ← releaseExpiredReservations now
  upsertReservation activityId decision now
  modify (dropLocks activityId)
  insertLocks activityId decision
  let _ ← updateActivities (fun activity => activity.activityId == activityId) (touched now)
  let activity ← requireActivity activityId
  appendActivityInput activity "admitted" now

/-- The cancellation a rejected admission records as attempt zero. -/
def rejection (supply : Supply) (activityId : Uuid) (reasons : List String) (now : Timestamp)
    : ActivityResultRecord :=
  {
    resultId := supply 0
    activityId := activityId
    attempt := 0
    outcome := .cancelled (some ("; ".intercalate reasons))
    completedAt := now
  }

def cancelledBy (now : Timestamp) (activity : ActivityRecord) : ActivityRecord :=
  { activity with
      status := .cancelled
      revision := activity.revision + 1
      updatedAt := now }

def reject (supply : Supply) (current : ActivityRecord) (reasons : List String)
    (now : Timestamp) : Sql Unit := do
  let result := rejection supply current.activityId reasons now
  insertResult result
  let _ ← updateActivities (fun activity => activity.activityId == current.activityId)
    (cancelledBy now)
  appendCompletionFact (supply.drop 1) current result false
    { kind := "admission", id := "scheduler" }
  let _ ← enqueueFinished (supply.drop 2) current
    s!"activity:{current.activityId}:admission:rejected" result

/-- The transaction of an admission, with the workflow a rejection has to wake. -/
def storeAdmission (supply : Supply) (activityId : Uuid) (decision : AdmissionDecision)
    (now : Timestamp) : Sql (Option Uuid) :=
  transaction do
    let current ← requireActivity activityId
    raiseIf (current.status ≠ .waitingAdmission)
      (.activityLifecycle "only routed activities may be admitted")
    match decision with
    | .admitted admitted =>
      reserve activityId admitted now
      pure none
    | .rejected reasons =>
      reject supply current reasons now
      pure (some current.workflowId)
    | .deferred .. => pure none

section Wake

variable [PyRepr] [StaticDagAdapter] [FactPayloadAdapter]

def wakeRejected (supply : Supply) (timestamp : Timestamp) : Option Uuid → Sql Unit
  | some workflowId => bestEffortWake supply workflowId timestamp
  | none => pure ()

def persistAdmission (supply : Supply) (activityId : Uuid) (decision : AdmissionDecision)
    (now : Timestamp) : Sql ActivityRecord := do
  let rejectedWorkflowId ← storeAdmission supply activityId decision now
  wakeRejected (supply.drop 3) now rejectedWorkflowId
  requireActivity activityId

end Wake

def activeReservation (activityId : Uuid) (now : Timestamp) : Sql ActivityRecord := do
  let db ← get
  let inactive := .activityLifecycle "activity has no active admission reservation"
  let activity ← orRaise (getActivity db.activities activityId) inactive
  let reservation ← orRaise
    (db.activities.reservations.find? (fun row =>
      row.activityId == activityId && row.repositoryId == .id db.repositoryId)) inactive
  raiseIf (reservation.releasedAt.isSome ∨ reservation.expiresAt ≤ now) inactive
  pure activity

def claimed (claim : ActivityClaim) (activity : ActivityRecord) : ActivityRecord :=
  {
    activity with
      status := .claimed
      revision := activity.revision + 1
      attempts := claim.attempt
      claimedBy := some claim.owner
      claimFence := claim.fence
      leaseExpiresAt := some claim.expiresAt
      updatedAt := claim.claimedAt
  }

def nextClaim (activity : ActivityRecord) (owner : String) (leaseFor : Duration)
    (now : Timestamp) : ActivityClaim :=
  {
    activityId := activity.activityId
    owner := owner
    attempt := activity.attempts + 1
    fence := activity.claimFence + 1
    claimedAt := now
    expiresAt := now + leaseFor
  }

def claimActivity (activityId : Uuid) (owner : String) (leaseFor : Duration)
    (capabilityRevision : Nat) (now : Timestamp) : Sql ActivityClaim := do
  raiseIf (owner = "" ∨ leaseFor ≤ 0)
    (.valueError "claim owner and positive lease are required")
  transaction do
    let activity ← activeReservation activityId now
    raiseIf (activity.status ≠ .waitingAdmission ∧ activity.status ≠ .claimed)
      (.activityLifecycle "activity is not claimable")
    raiseIf (activity.status = .claimed ∧ activity.leaseExpiresAt.any (fun expiry => now < expiry))
      (.activityLifecycle "activity claim is still live")
    raiseIf (activity.route.map ExecutionRoute.capabilityRevision ≠ some capabilityRevision)
      (.activityLifecycle "activity route capability revision is stale")
    let claim := nextClaim activity owner leaseFor now
    let _ ← updateActivities (fun row => row.activityId == activityId) (claimed claim)
    let current ← requireActivity activityId
    appendActivityInput current "claimed" now
    pure claim

def renewed (expires now : Timestamp) (activity : ActivityRecord) : ActivityRecord :=
  {
    activity with
      revision := activity.revision + 1
      leaseExpiresAt := some expires
      updatedAt := now
  }

def renewActivityClaim (claim : ActivityClaim) (leaseFor : Duration) (now : Timestamp)
    : Sql ActivityClaim := do
  let expires := now + leaseFor
  raiseIf (leaseFor ≤ 0) (.valueError "lease_for must be positive")
  transaction do
    let updated ← updateActivities
      (fun activity => activity.status.inProgress && holdsClaim claim now activity)
      (renewed expires now)
    raiseIf (updated ≠ 1) (.activityLifecycle "activity claim is stale or expired")
    let activity ← requireActivity claim.activityId
    appendActivityInput activity "claim_renewed" now
  pure { claim with expiresAt := expires }

def started (now : Timestamp) (activity : ActivityRecord) : ActivityRecord :=
  { activity with
      status := .running
      revision := activity.revision + 1
      updatedAt := now }

def startActivity (claim : ActivityClaim) (now : Timestamp) : Sql ActivityRecord :=
  transaction do
    let updated ← updateActivities
      (fun activity => activity.status == .claimed && holdsClaim claim now activity)
      (started now)
    raiseIf (updated ≠ 1) (.activityLifecycle "activity claim is stale or expired")
    let activity ← requireActivity claim.activityId
    appendActivityInput activity "started" now
    pure activity

/-- Give the activity back to admission, without a claim. -/
def reaped (now : Timestamp) (activity : ActivityRecord) : ActivityRecord :=
  {
    activity with
      status := .waitingAdmission
      revision := activity.revision + 1
      claimedBy := none
      leaseExpiresAt := none
      updatedAt := now
  }

def reapExpiredClaims (now : Timestamp) : Sql Nat :=
  transaction do
    let db ← get
    let expired (activity : ActivityRecord) : Bool :=
      activity.status.inProgress && leaseOver now activity
    let ids := (db.activities.records.select expired).map ActivityRecord.activityId
    let updated ← updateActivities expired (reaped now)
    ids.forM (fun activityId => do
      let activity ← requireActivity activityId
      appendActivityInput activity "claim_reaped" now)
    pure updated

def reapExpiredReservations (now : Timestamp) : Sql Nat :=
  transaction (releaseExpiredReservations now)

def completion (supply : Supply) (claim : ActivityClaim) (outcome : ActivityOutcome)
    (now : Timestamp) : ActivityResultRecord :=
  {
    resultId := supply 0
    activityId := claim.activityId
    attempt := claim.attempt
    outcome := outcome
    completedAt := now
  }

/-- A retryable failure before the last attempt does not finish the activity. -/
def retries (claim : ActivityClaim) (outcome : ActivityOutcome) (activity : ActivityRecord)
    : Bool :=
  match outcome with
  | .failure _ _ retryable _ => retryable && claim.attempt < activity.maxAttempts
  | _ => false

def completed (status : ActivityStatus) (now : Timestamp) (activity : ActivityRecord)
    : ActivityRecord :=
  {
    activity with
      status := status
      revision := activity.revision + 1
      claimedBy := none
      leaseExpiresAt := none
      updatedAt := now
  }

def releaseReservation (activityId : Uuid) (now : Timestamp) (db : Database) : Database :=
  { db with activities := {
    db.activities with
      reservations := db.activities.reservations.update
        (fun row => row.activityId == activityId && row.repositoryId == .id db.repositoryId)
        (fun row => { row with releasedAt := some (.time now) })
  } }

/-- How the transaction of a completion ended. -/
inductive Completion
  | existing (result : ActivityResultRecord)
  | stored (result : ActivityResultRecord) (workflowId : Uuid) (retrying : Bool)

def existingResult (existing : ActivityResultRecord) (outcome : ActivityOutcome)
    : Sql Completion := do
  raiseIf (¬ existing.outcome.pyEq outcome)
    (.activityLifecycle "activity attempt already completed with a different outcome")
  pure (.existing existing)

/-- Store a new result for the current claim and free what the claim held. -/
def finish (supply : Supply) (activity : ActivityRecord) (claim : ActivityClaim)
    (outcome : ActivityOutcome) (now : Timestamp) : Sql Completion := do
  let result := completion supply claim outcome now
  let retrying := retries claim outcome activity
  raiseIf (¬ (activity.status.inProgress && holdsClaim claim now activity))
    (.activityLifecycle "completion claim/attempt is stale or expired")
  insertResult result
  let _ ← updateActivities (fun row => row.activityId == claim.activityId)
    (completed (if retrying then .waitingAdmission else outcomeStatus outcome) now)
  modify (releaseReservation claim.activityId now)
  modify (dropLocks claim.activityId)
  appendCompletionFact (supply.drop 1) activity result retrying
    { kind := "activity_worker", id := claim.owner }
  if retrying then
    pure (.stored result activity.workflowId retrying)
  else
    let _ ← enqueueFinished (supply.drop 2) activity
      s!"activity:{activity.activityId}:attempt:{claim.attempt}:finished" result
    pure (.stored result activity.workflowId retrying)

/-- The transaction of a completion: terminalize once and leave the signal. -/
def storeCompletion (supply : Supply) (claim : ActivityClaim) (outcome : ActivityOutcome)
    (now : Timestamp) : Sql Completion :=
  transaction do
    let activity ← requireActivity claim.activityId
    let db ← get
    match db.activities.results.find? (fun result =>
      result.activityId == claim.activityId && result.attempt == claim.attempt) with
    | some existing => existingResult existing outcome
    | none => finish supply activity claim outcome now

section Wake

variable [PyRepr] [StaticDagAdapter] [FactPayloadAdapter]

def completeActivity (supply : Supply) (claim : ActivityClaim) (outcome : ActivityOutcome)
    (now : Timestamp) : Sql ActivityResultRecord := do
  let completion ← storeCompletion supply claim outcome now
  match completion with
  | .existing result => pure result
  | .stored result _ true => pure result
  | .stored result workflowId false =>
    bestEffortWake (supply.drop 3) workflowId now
    pure result

end Wake

end Murder.Activities

import Murder.Activities.Runs

/-! One tick of the activity dispatcher over durable state: what the clock shows as each
claim is granted, and how the executions of the tick end.
-/

namespace Murder.Activities

open Murder.Contracts Murder.Facts Murder.Storage Murder.Workflows
open Library.Transactions

/-- A renewal of the claim of a running executor, by the heartbeat or by the executor, with
the time that passed before it.
-/
structure Renewal where
  elapsed : Nat
  heartbeat : Bool
deriving DecidableEq

/-- What an executor does: it renews, and some time after the last renewal it returns an outcome
or raises.
-/
structure Execution where
  renewals : List Renewal
  elapsed : Nat
  result : Except String ActivityOutcome

/-- What router, admission and executor do about one candidate, the time the first two take,
and the identifiers drawn.
-/
structure Turn where
  route : Except Failure (Option ExecutionRoute)
  decision : Except Failure AdmissionDecision
  deciding : Nat
  execution : Execution
  admissionIds : Supply
  completionIds : Supply

structure DispatchSettings where
  workerId : String
  leaseFor : Duration

structure DispatchReport where
  routed : Nat := 0
  admitted : Nat := 0
  completed : Nat := 0
  deferred : Nat := 0
  reapedClaims : Nat := 0
  reapedReservations : Nat := 0
deriving DecidableEq

/-- How an execution ended: the clock and the outcome as the executor returned, what became of
the outcome, and the store behind it.
-/
structure Ending where
  returnedAt : Timestamp
  outcome : ActivityOutcome
  reply : Except Failure ActivityResultRecord
  after : Database

/-- A claim a tick granted, with the clock as it was granted, and the end of its execution. -/
structure Grant where
  claim : ActivityClaim
  grantedAt : Timestamp
  ending : Option Ending

/-- The clock, the store and the report of a tick; the grants are a record of its course. -/
structure TickState where
  clock : Timestamp
  db : Database
  report : DispatchReport := {}
  grants : List Grant := []

abbrev Ticking (α : Type) := Program TickState Failure α

def onStore {α : Type} (program : Sql α) : Ticking α := fun state =>
  match program state.db with
  | .ok value db => .ok value { state with db := db }
  | .error raised db => .error raised { state with db := db }

def pass (elapsed : Nat) : Ticking Unit :=
  modify (fun state => { state with clock := state.clock + elapsed })

def tally (change : DispatchReport → DispatchReport) : Ticking Unit :=
  modify (fun state => { state with report := change state.report })

/-- What a part raised, as a value. -/
def attempt {α : Type} (body : Ticking α) : Ticking (Except Failure α) := fun state =>
  match body state with
  | .ok value stop => .ok (.ok value) stop
  | .error raised stop => .ok (.error raised) stop

section Tick

variable [PyRepr] [StaticDagAdapter] [FactPayloadAdapter]
variable (settings : DispatchSettings) (now : Timestamp)

/-- The renewals while an executor runs, with the claim they leave and the failure that ended
the heartbeat. A failed renewal of the executor is the executor's to handle.
-/
def renewAll : List Renewal → ActivityClaim → Option Failure
    → Ticking (ActivityClaim × Option Failure)
  | [], claim, broken => pure (claim, broken)
  | renewal :: rest, claim, broken => do
      pass renewal.elapsed
      if renewal.heartbeat ∧ broken.isSome then
        renewAll rest claim broken
      else
        let state ← get
        match ← attempt (onStore (renewActivityClaim claim settings.leaseFor state.clock)) with
        | .ok next => renewAll rest next broken
        | .error failure =>
          renewAll rest claim (if renewal.heartbeat then some failure else broken)

def executionOutcome (activity : ActivityRecord) (claim : ActivityClaim)
    : Except String ActivityOutcome → ActivityOutcome
  | .ok outcome => outcome
  | .error message =>
    .failure "executor_error" message (claim.attempt < activity.maxAttempts) .nil

/-- Run the executor and complete its activity. Awaiting a heartbeat that failed raises, and
the outcome is not offered.
-/
def execute (activity : ActivityRecord) (claim : ActivityClaim) (turn : Turn)
    : Ticking Ending := do
  let (claim, broken) ← renewAll settings turn.execution.renewals claim none
  pass turn.execution.elapsed
  let outcome := executionOutcome activity claim turn.execution.result
  let returned ← get
  let reply ←
    match broken with
    | some failure => pure (.error failure)
    | none =>
      attempt (onStore (completeActivity turn.completionIds claim outcome returned.clock))
  let stopped ← get
  pure {
    returnedAt := returned.clock
    outcome := outcome
    reply := reply
    after := stopped.db
  }

def noteGrant (grant : Grant) : Ticking Unit :=
  modify (fun state => { state with grants := state.grants ++ [grant] })

/-- Claim the admitted activity, start it and run it. Claim and start take the time the tick
began at.
-/
def grantClaim (activity : ActivityRecord) (turn : Turn) : Ticking Unit := do
  let route ← orRaise activity.route (.assertionError "activity.route is not None")
  let claim ← onStore
    (claimActivity activity.activityId settings.workerId settings.leaseFor
      route.capabilityRevision now)
  let granted ← get
  match ← attempt (onStore (startActivity claim now)) with
  | .error failure =>
    noteGrant { claim := claim, grantedAt := granted.clock, ending := none }
    throw failure
  | .ok activity =>
    let ending ← execute settings activity claim turn
    noteGrant { claim := claim, grantedAt := granted.clock, ending := some ending }
    match ending.reply with
    | .ok _ => tally (fun report => { report with completed := report.completed + 1 })
    | .error failure => throw failure

def routeCandidate (candidate : ActivityRecord) (turn : Turn)
    : Ticking (Option ActivityRecord) := do
  if candidate.status = .pending ∨ candidate.status = .routing then
    match ← fromExcept turn.route with
    | none =>
      tally (fun report => { report with deferred := report.deferred + 1 })
      pure none
    | some route =>
      let activity ← onStore (persistRoute candidate.activityId route now)
      tally (fun report => { report with routed := report.routed + 1 })
      pure (some activity)
  else
    pure (some candidate)

def admitCandidate (activity : ActivityRecord) (turn : Turn)
    : Ticking (ActivityRecord × AdmissionDecision) := do
  let decision ← fromExcept turn.decision
  pass turn.deciding
  let activity ← onStore
    (persistAdmission turn.admissionIds activity.activityId decision now)
  pure (activity, decision)

def dispatchOne (candidate : ActivityRecord) (turn : Turn) : Ticking Unit := do
  match ← routeCandidate now candidate turn with
  | none => pure ()
  | some activity =>
    let (activity, decision) ← admitCandidate now activity turn
    if activity.status = .cancelled then
      tally (fun report => { report with completed := report.completed + 1 })
    else
      match decision with
      | .admitted _ =>
        tally (fun report => { report with admitted := report.admitted + 1 })
        grantClaim settings now activity turn
      | _ => tally (fun report => { report with deferred := report.deferred + 1 })

def dispatchAll (turn : ActivityRecord → Turn) : List ActivityRecord → Ticking Unit
  | [] => pure ()
  | candidate :: rest => do
      match ← attempt (dispatchOne settings now candidate (turn candidate)) with
      | .ok _ => dispatchAll turn rest
      | .error _ =>
        tally (fun report => { report with deferred := report.deferred + 1 })
        dispatchAll turn rest

/-- The order of priority, then of age. -/
def dispatchedBefore (left right : ActivityRecord) : Bool :=
  right.priority < left.priority
    || (left.priority == right.priority
      && (left.createdAt < right.createdAt
        || (left.createdAt == right.createdAt
          && left.activityId.str ≤ right.activityId.str)))

def runnable (db : Database) : List ActivityRecord :=
  let with_ (status : ActivityStatus) : List ActivityRecord :=
    db.activities.records.select (fun activity => activity.status == status)
  (with_ .pending ++ with_ .routing ++ with_ .waitingAdmission).insertionSort
    (fun left right => dispatchedBefore left right = true)

def tick (turn : ActivityRecord → Turn) (limit : Int) : Ticking DispatchReport := do
  raiseIf (limit < 1) (.valueError "limit must be positive")
  let started ← get
  let reapedClaims ← onStore (reapExpiredClaims started.clock)
  let reapedReservations ← onStore (reapExpiredReservations started.clock)
  tally (fun report => {
    report with
      reapedClaims := reapedClaims
      reapedReservations := reapedReservations
  })
  let reaped ← get
  dispatchAll settings started.clock turn ((runnable reaped.db).take limit.toNat)
  let stopped ← get
  pure stopped.report

end Tick

end Murder.Activities

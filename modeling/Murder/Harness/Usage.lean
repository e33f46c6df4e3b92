import Murder.Harness.Questions

/-! The reducer of usage collections: usage is requested from a safe surface, a stale advisory
is retried behind a delay, and the surface is restored.
-/

namespace Murder.Harness

open Contracts

inductive UsagePhase
  | created
  | ensuringSurface
  | requestEmitted
  | awaitingFreshUsage
  | waitingToRetryStale
  | restoringSurface
  | succeeded
  | escalated
deriving DecidableEq

structure UsageRequest where
  deadline : Duration
  requireCurrent : Bool := false
  preferredSource : Option String := none
  maximumAttempts : Int := 2
  staleRetryDelay : Duration := seconds 2
deriving DecidableEq

structure UsageOperation where
  envelope : OperationEnvelope UsagePhase
  request : UsageRequest
  baselineRevision : Option ObservationRevision := none
  requestActionId : Option ActionId := none
  restorationActionId : Option ActionId := none
  restorationBaselineRevision : Option ObservationRevision := none
  priorSurface : Option SurfaceKind := none
  requestAttempt : Nat := 0
  lastAdvisory : Option String := none
  retryNotBefore : Option Timestamp := none
deriving DecidableEq

structure UsageState where
  freshness : String
  advisoryText : Option String
deriving DecidableEq

/-- A snapshot with the usage it shows. -/
structure UsageSnapshot extends ObservationSnapshot where
  usage : Observed UsageState := .unknown
deriving DecidableEq

/-- What a usage action carries. -/
inductive UsageAction
  | requestUsage (preferredSource : Option String)
  | dismissOverlay (overlayKind : Option String)
deriving DecidableEq

abbrev UsageDecision := ControllerDecision UsagePhase UsageAction

def SurfaceKind.name : SurfaceKind → String
  | .composer => "COMPOSER"
  | .transcript => "TRANSCRIPT"
  | .modelPicker => "MODEL_PICKER"
  | .usagePanel => "USAGE_PANEL"
  | .statusPanel => "STATUS_PANEL"
  | .permissionDialog => "PERMISSION_DIALOG"
  | .questionPicker => "QUESTION_PICKER"
  | .resumePicker => "RESUME_PICKER"
  | .contextPanel => "CONTEXT_PANEL"
  | .trustDialog => "TRUST_DIALOG"
  | .loginDialog => "LOGIN_DIALOG"
  | .shell => "SHELL"
  | .unknownOverlay => "UNKNOWN_OVERLAY"

/-- `_safe_surface` -/
def safeSurface (snapshot : UsageSnapshot) : Bool :=
  snapshot.surface.value.any (fun surface =>
    surface.primary == .composer || surface.primary == .transcript)

/-- `snapshot.revision <= baseline`, or there is no baseline. -/
def predates (snapshot : UsageSnapshot) (baseline : Option ObservationRevision) : Bool :=
  baseline.all (fun before => !decide (before < snapshot.revision))

/-- `_freshness_value` -/
def freshnessValue [CaseMapping] (value : String) : String :=
  let normalized := CaseMapping.lower (strip value)
  if normalized = "current" then "current"
  else if normalized = "harness_advisory_stale" then "advisory_stale"
  else if normalized = "advisory_stale" then "advisory_stale"
  else "unknown"

def usageFreshness [CaseMapping] (snapshot : UsageSnapshot) : String :=
  match snapshot.usage.value with
  | some usage => freshnessValue usage.freshness
  | none => "unknown"

def isFresh [CaseMapping] (op : UsageOperation) (snapshot : UsageSnapshot) : Bool :=
  snapshot.usage.value.isSome
    && (!op.request.requireCurrent || usageFreshness snapshot == "current")

namespace UsageOperation

variable (op : UsageOperation) (actionId : ActionId)

def expired (now : Timestamp) : Bool := op.envelope.deadline.any (· < now)

def act (payload : UsageAction) : SemanticAction UsageAction :=
  ⟨actionId, op.envelope.operationId, .replaySafeWhilePreconditionHolds, payload⟩

def requestUsage : SemanticAction UsageAction :=
  op.act actionId (.requestUsage op.request.preferredSource)

def dismissOverlay (snapshot : UsageSnapshot) : SemanticAction UsageAction :=
  op.act actionId (.dismissOverlay (snapshot.surface.value.map (·.primary.name)))

end UsageOperation

section Reconcile

variable (op : UsageOperation) (snapshot : UsageSnapshot) (actionId : ActionId)

/-- `_restore_after_fresh_usage` -/
def restoreAfterFreshUsage : UsageDecision :=
  if safeSurface snapshot then
    .succeed .succeeded "fresh usage observed and composer surface already restored"
  else if op.restorationActionId ≠ none then
    .escalate .escalated
      "usage overlay dismissal already emitted without safe-surface convergence"
  else
    .emit .restoringSurface (op.dismissOverlay actionId snapshot)
      "dismiss usage surface before reporting collection success"

def reconcileUsageSurface : UsageDecision :=
  if snapshot.surface.value = none then
    .observe .ensuringSurface "surface unknown"
  else if safeSurface snapshot = false then
    .escalate .escalated "usage probe would disturb an unknown prior surface"
  else
    .emit .requestEmitted (op.requestUsage actionId) "request fresh usage"

def reconcileStaleRetry (now : Timestamp) : UsageDecision :=
  if op.retryNotBefore.any (now < ·) then
    .observe .waitingToRetryStale "waiting for stale usage retry interval"
  else if op.request.maximumAttempts ≤ op.requestAttempt then
    .escalate .escalated "stale usage retry budget exhausted"
  else
    .emit .requestEmitted (op.requestUsage actionId)
      "retry stale usage with a distinct request"

def reconcileUsageRestoring : UsageDecision :=
  if predates snapshot op.restorationBaselineRevision then
    .observe .restoringSurface "wait for fresh post-dismissal surface evidence"
  else if safeSurface snapshot then
    .succeed .succeeded "usage collection restored an actionable composer surface"
  else
    .escalate .escalated "usage surface did not restore to a safe composer"

variable [CaseMapping]

def reconcileUsageEmitted : UsageDecision :=
  if isFresh op snapshot then
    restoreAfterFreshUsage op snapshot actionId
  else
    .observe .awaitingFreshUsage "await post-request observation"

def reconcileFreshUsage : UsageDecision :=
  if predates snapshot op.baselineRevision then
    .observe .awaitingFreshUsage "usage evidence predates request"
  else if isFresh op snapshot then
    restoreAfterFreshUsage op snapshot actionId
  else if op.request.requireCurrent ∧ usageFreshness snapshot = "advisory_stale"
      ∧ op.requestAttempt < op.request.maximumAttempts then
    .observe .waitingToRetryStale
      "Codex reported stale limits. Wait before one bounded retry"
  else
    .escalate .escalated "usage request emitted without fresh usable evidence"

def reconcileUsagePhase (now : Timestamp) : UsageDecision :=
  match op.envelope.phase with
  | .created => reconcileUsageSurface op snapshot actionId
  | .ensuringSurface => reconcileUsageSurface op snapshot actionId
  | .requestEmitted => reconcileUsageEmitted op snapshot actionId
  | .awaitingFreshUsage => reconcileFreshUsage op snapshot actionId
  | .waitingToRetryStale => reconcileStaleRetry op actionId now
  | .restoringSurface => reconcileUsageRestoring op snapshot
  | _ => .escalate .escalated "invalid usage phase"

/-- `reconcile_usage`, which draws the identifier of its action from `uuid4`. -/
def reconcileUsage (now : Timestamp) : UsageDecision :=
  if op.expired now then
    .escalate .escalated "usage deadline elapsed"
  else if isFresh op snapshot ∧ op.requestActionId = none then
    .succeed .succeeded "fresh visible usage already satisfies request"
  else
    reconcileUsagePhase op snapshot actionId now

end Reconcile

def requested? (decision : UsageDecision) : Option ActionId :=
  match decision.action with
  | some ⟨actionId, _, _, .requestUsage _⟩ => some actionId
  | _ => none

def dismissed? (decision : UsageDecision) : Option ActionId :=
  match decision.action with
  | some ⟨actionId, _, _, .dismissOverlay _⟩ => some actionId
  | _ => none

def usageStatus : ControllerDecisionKind → OperationStatus
  | .succeed => .succeeded
  | .escalate => .escalated
  | .fail => .failed
  | _ => .running

/-- Whatever leads to the retry phase sets its timer anew. -/
def advanceUsage (op : UsageOperation) (decision : UsageDecision) (snapshot : UsageSnapshot)
    (now : Timestamp) : UsageOperation :=
  let retries := decision.nextPhase = .waitingToRetryStale
  { op with
    envelope := { op.envelope with
      phase := decision.nextPhase
      status := usageStatus decision.kind
      updatedAt := now
      lastObservationRevision := some snapshot.revision
      actionHistory := op.envelope.actionHistory ++ (decision.action.map (·.actionId)).toList }
    baselineRevision :=
      if (requested? decision).isSome then some snapshot.revision else op.baselineRevision
    requestActionId := requested? decision <|> op.requestActionId
    requestAttempt := op.requestAttempt + (if (requested? decision).isSome then 1 else 0)
    lastAdvisory :=
      if retries then
        match snapshot.usage.value with
        | some usage => usage.advisoryText
        | none => op.lastAdvisory
      else op.lastAdvisory
    retryNotBefore :=
      if retries then some (now + op.request.staleRetryDelay)
      else if (requested? decision).isSome then none
      else op.retryNotBefore
    restorationActionId := dismissed? decision <|> op.restorationActionId
    restorationBaselineRevision :=
      if (dismissed? decision).isSome then some snapshot.revision
      else op.restorationBaselineRevision
    priorSurface := op.priorSurface <|> snapshot.surface.value.map (·.primary) }

end Murder.Harness

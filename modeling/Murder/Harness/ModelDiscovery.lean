import Murder.Harness.SafeFailure
import Murder.Library.Histories

/-! The discovery of the models a picker offers: the cursor is moved through the rows until it is
back where it started, and the picker is dismissed.
-/

namespace Murder.Harness

open Contracts Library.Histories Library.Runs

inductive ModelDiscoveryPhase
  | created
  | awaitingPicker
  | scanning
  | awaitingStep
  | awaitingDismissal
  | succeeded
  | failed
  | escalated
deriving DecidableEq

def ModelDiscoveryPhase.name : ModelDiscoveryPhase → String
  | .created => "CREATED"
  | .awaitingPicker => "AWAITING_PICKER"
  | .scanning => "SCANNING"
  | .awaitingStep => "AWAITING_STEP"
  | .awaitingDismissal => "AWAITING_DISMISSAL"
  | .succeeded => "SUCCEEDED"
  | .failed => "FAILED"
  | .escalated => "ESCALATED"

structure DiscoverModelsRequest where
  deadline : Duration
deriving DecidableEq

structure DiscoverModelsOperation where
  envelope : OperationEnvelope ModelDiscoveryPhase
  request : DiscoverModelsRequest
  pickerActionId : Option ActionId := none
  pickerBaselineRevision : Option ObservationRevision := none
  navigationActionIds : List ActionId := []
  navigationBaselineRevision : Option ObservationRevision := none
  dismissalActionId : Option ActionId := none
  dismissalBaselineRevision : Option ObservationRevision := none
  startModelId : Option String := none
  models : List (String × String) := []
deriving DecidableEq

/-- What a discovery action carries. -/
inductive DiscoveryAction
  | openModelPicker (filterText : Option String) (editParameters : Bool)
  | navigateModelPicker (direction : String)
  | dismissOverlay (overlayKind : String)
deriving DecidableEq

abbrev DiscoveryDecision := ControllerDecision ModelDiscoveryPhase DiscoveryAction

/-- `_picker_visible` -/
def pickerVisible (snapshot : ObservationSnapshot) : Bool :=
  modelPickerIsActive snapshot && snapshot.modelConfiguration.value.isSome

/-- `_highlighted` -/
def highlightedRow (snapshot : ObservationSnapshot) : Option String :=
  if pickerVisible snapshot then highlightedModelId snapshot else none

/-- `_visible_models` -/
def visibleModels (snapshot : ObservationSnapshot) : List (String × String) :=
  if pickerVisible snapshot then
    match snapshot.modelConfiguration.value with
    | some config =>
      config.available.filterMap (fun choice =>
        choice.stableChoiceId.map (·, choice.label))
    | none => []
  else []

namespace DiscoverModelsOperation

variable (op : DiscoverModelsOperation) (actionId : ActionId)

def act (payload : DiscoveryAction) : SemanticAction DiscoveryAction :=
  ⟨actionId, op.envelope.operationId, .replaySafeWhilePreconditionHolds, payload⟩

def openAction : SemanticAction DiscoveryAction := op.act actionId (.openModelPicker none false)

def downAction : SemanticAction DiscoveryAction :=
  op.act actionId (.navigateModelPicker "down")

def dismissAction : SemanticAction DiscoveryAction :=
  op.act actionId (.dismissOverlay "model_picker")

def expired (now : Timestamp) : Bool := op.envelope.deadline.any (· < now)

end DiscoverModelsOperation

section Reconcile

variable (op : DiscoverModelsOperation) (snapshot : ObservationSnapshot) (actionId : ActionId)

def reconcileDiscoveryCreated : DiscoveryDecision :=
  if pickerVisible snapshot then
    .observe .scanning "use the already visible model picker"
  else if safeComposerSurface snapshot = false then
    .observe .created "wait for a safe composer before opening the model picker"
  else
    .emit .awaitingPicker (op.openAction actionId) "open the interactive model picker"

def reconcileDiscoveryPicker : DiscoveryDecision :=
  if op.pickerActionId = none ∨ op.pickerBaselineRevision = none then
    .escalate .escalated "model discovery lacks picker action persistence"
  else if isAfter snapshot op.pickerBaselineRevision = false then
    .observe .awaitingPicker "wait for picker evidence"
  else if pickerVisible snapshot = false then
    if safeComposerSurface snapshot ∧ modelSlashCommandIsPending snapshot then
      .emit .awaitingPicker (op.openAction actionId)
        "confirm the pending /model slash-command selection"
    else
      .escalate .escalated "interactive model picker did not become visible"
  else
    .observe .scanning "model picker is visible; begin exhaustive traversal"

/-- The traversal is over when a step led back to the row it started from, which is told by its
marker.
-/
def reconcileScanning : DiscoveryDecision :=
  match highlightedRow snapshot with
  | none => .escalate .escalated "model picker cursor is not observable"
  | some highlighted =>
    if op.navigationActionIds ≠ [] ∧ some highlighted = op.startModelId then
      .emit .awaitingDismissal (op.dismissAction actionId)
        "picker traversal returned to its starting row"
    else
      .emit .awaitingStep (op.downAction actionId)
        "advance one picker row and capture the next viewport"

def reconcileDiscoveryStep : DiscoveryDecision :=
  if op.navigationActionIds = [] ∨ op.navigationBaselineRevision = none then
    .escalate .escalated "model traversal step lacks persisted action state"
  else if isAfter snapshot op.navigationBaselineRevision = false then
    .observe .awaitingStep "wait for a fresh picker viewport"
  else
    .observe .scanning "fresh picker viewport observed"

def reconcileDismissal : DiscoveryDecision :=
  if op.dismissalActionId = none ∨ op.dismissalBaselineRevision = none then
    .escalate .escalated "picker dismissal lacks persisted action state"
  else if isAfter snapshot op.dismissalBaselineRevision = false then
    .observe .awaitingDismissal "wait for picker dismissal"
  else if safeComposerSurface snapshot then
    .succeed .succeeded "exhaustive model traversal completed and picker was dismissed"
  else
    .observe .awaitingDismissal "await a safe composer readback"

def reconcileDiscoveryPhase : DiscoveryDecision :=
  match op.envelope.phase with
  | .created => reconcileDiscoveryCreated op snapshot actionId
  | .awaitingPicker => reconcileDiscoveryPicker op snapshot actionId
  | .scanning => reconcileScanning op snapshot actionId
  | .awaitingStep => reconcileDiscoveryStep op snapshot
  | .awaitingDismissal => reconcileDismissal op snapshot
  | phase => .fail .failed ("invalid model discovery phase " ++ phase.name)

/-- `reconcile_model_discovery`, which draws the identifier of its action from `uuid4`. -/
def reconcileModelDiscovery (now : Timestamp) : DiscoveryDecision :=
  if snapshot.health.requiresEscalation then
    .escalate .escalated "observation health requires escalation"
  else if op.expired now then
    .escalate .escalated "model discovery deadline exceeded"
  else
    reconcileDiscoveryPhase op snapshot actionId

end Reconcile

/-- The identity and the baseline of an action are those of the phase it leads to. -/
def DiscoverModelsOperation.record (op : DiscoverModelsOperation)
    (phase : ModelDiscoveryPhase) (actionId : ActionId) (snapshot : ObservationSnapshot)
    : DiscoverModelsOperation :=
  match phase with
  | .awaitingPicker =>
    { op with pickerActionId := actionId, pickerBaselineRevision := snapshot.revision }
  | .awaitingStep =>
    { op with
      navigationActionIds := op.navigationActionIds ++ [actionId]
      navigationBaselineRevision := snapshot.revision
      startModelId := op.startModelId <|> highlightedRow snapshot }
  | .awaitingDismissal =>
    { op with dismissalActionId := actionId, dismissalBaselineRevision := snapshot.revision }
  | _ => op

def advanceModelDiscovery (op : DiscoverModelsOperation) (decision : DiscoveryDecision)
    (snapshot : ObservationSnapshot) (now : Timestamp) : DiscoverModelsOperation :=
  let recorded := match decision.action with
    | some action => op.record decision.nextPhase action.actionId snapshot
    | none => op
  { recorded with
    envelope := { op.envelope with
      phase := decision.nextPhase
      status := statusAfter op.envelope.status decision.kind
      updatedAt := now
      lastObservationRevision := some snapshot.revision
      actionHistory := op.envelope.actionHistory ++ (decision.action.map (·.actionId)).toList }
    models := (op.models ++ visibleModels snapshot).eraseDups }

structure PickerRow where
  id : Option String
  label : String
deriving DecidableEq

def PickerRow.marker (row : PickerRow) : String := row.id.getD "" ++ "\x1f" ++ row.label

def PickerRow.model? (row : PickerRow) : Option (String × String) :=
  row.id.map (·, row.label)

/-- A picker of pairwise distinct rows, at least one. -/
structure Picker where
  rows : List PickerRow
  distinct : rows.Nodup
  some_ : 0 < rows.length

def Picker.at (picker : Picker) (position : Nat) : PickerRow :=
  picker.rows.get ⟨position % picker.rows.length, Nat.mod_lt _ picker.some_⟩

/-- A discovery with the picker it drives: where its cursor stands, and whether it is open. -/
structure Driven where
  op : DiscoverModelsOperation
  cursor : Nat
  opened : Bool

/-- What a discovery is reconciled with. -/
structure DiscoveryFrame where
  snapshot : ObservationSnapshot
  actionId : ActionId
  now : Timestamp

def ChoiceState.row (choice : ChoiceState) : PickerRow := ⟨choice.stableChoiceId, choice.label⟩

/-- The frame shows some rows of the picker, the one under the cursor among them, and marks
this one.
-/
structure ShowsRows (picker : Picker) (cursor : Nat) (snapshot : ObservationSnapshot) : Prop where
  active : modelPickerIsActive snapshot = true
  rows
    : ∃ config, snapshot.modelConfiguration.value = some config
      ∧ picker.at cursor ∈ config.available.map ChoiceState.row
      ∧ ∀ choice ∈ config.available, choice.row ∈ picker.rows
        ∧ (choice.highlighted = some true ↔ choice.row = picker.at cursor)

/-- A fresh frame of the picker before the deadline: it is newer than every recorded action and
shows the picker as the actions left it, or a safe composer while it is closed.
-/
structure FreshFrame (picker : Picker) (driven : Driven) (frame : DiscoveryFrame) : Prop where
  healthy : frame.snapshot.health.requiresEscalation = false
  timely : driven.op.expired frame.now = false
  fresh
    : ∀ baseline, driven.op.pickerBaselineRevision = some baseline
        ∨ driven.op.navigationBaselineRevision = some baseline
        ∨ driven.op.dismissalBaselineRevision = some baseline
      → baseline < frame.snapshot.revision
  shows
    : if driven.opened = true then ShowsRows picker driven.cursor frame.snapshot
      else safeComposerSurface frame.snapshot = true

def Driven.perform (driven : Driven) (op : DiscoverModelsOperation)
    : Option DiscoveryAction → Driven
  | some (.openModelPicker _ _) => { driven with op, opened := true }
  | some (.navigateModelPicker _) => { driven with op, cursor := driven.cursor + 1 }
  | some (.dismissOverlay _) => { driven with op, opened := false }
  | none => { driven with op }

def discoveryReducer : Reducer Driven DiscoveryFrame DiscoveryDecision where
  decide driven frame :=
    some (reconcileModelDiscovery driven.op frame.snapshot frame.actionId frame.now)
  advance driven frame decision :=
    driven.perform (advanceModelDiscovery driven.op decision frame.snapshot frame.now)
      (decision.action.map (·.payload))
  settles decision := decision.kind.settles

abbrev DiscoveryEntry := Entry Driven DiscoveryFrame DiscoveryDecision

abbrev DiscoveryHistory := History Driven DiscoveryFrame DiscoveryDecision

abbrev DiscoveryStep (picker : Picker) := Extended discoveryReducer (FreshFrame picker)

/-- A new discovery, with the cursor on any row of a picker that is open already or not. -/
def DiscoveryCreated (start : Nat) (driven : Driven) : Prop :=
  driven.cursor = start
  ∧ ∃ envelope request, envelope.phase = .created ∧ driven.op = { envelope, request }

/-- The emitted steps and dismissals. -/
def traversal (entries : List DiscoveryEntry) : List DiscoveryAction :=
  entries.filterMap (fun entry => (entry.decision.action.map (·.payload)).filter (fun payload =>
    match payload with
    | .openModelPicker _ _ => false
    | _ => true))

/-- Once for each row down, and one dismissal. -/
def fullTraversal (picker : Picker) : List DiscoveryAction :=
  List.replicate picker.rows.length (.navigateModelPicker "down")
    ++ [.dismissOverlay "model_picker"]

/-- Whatever fresh frames a discovery is driven with, it ends within a bounded number of them, in
success behind the full traversal and with every row that has an identifier exactly once.
-/
def Discovers (picker : Picker) (start : Nat) : Prop :=
  ∀ frames history, Run (Started (DiscoveryCreated start)) (DiscoveryStep picker) frames history
  → (history.open_ discoveryReducer = true
      → history.entries.length < 2 * picker.rows.length + 4)
    ∧ (history.open_ discoveryReducer = false
      → history.state.op.envelope.phase = .succeeded
        ∧ traversal history.entries = fullTraversal picker
        ∧ history.state.op.models.Perm (picker.rows.filterMap PickerRow.model?))

def SingleMarker (picker : Picker) (start : Nat) : Prop :=
  ∀ row ∈ picker.rows, row.marker = (picker.at start).marker → row = picker.at start

end Murder.Harness

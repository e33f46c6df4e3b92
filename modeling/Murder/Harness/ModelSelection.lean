import Murder.Harness.Questions
import Murder.Harness.SubmitPrompt

/-! Which spellings name the same model, and the reducer of model selections: it configures a target,
activates it separately and restores the composer, each on evidence newer than the action before.
-/

namespace Murder.Harness

open Contracts

----------------------------------------
-- Model identifiers
----------------------------------------

/-- The text in front of a bracketed suffix `\[.*\]\s*$`, which stays on one line. -/
def beforeBrackets : List Char → List Char
  | [] => []
  | c :: rest =>
    let inside := (rest.reverse.dropWhile isSpace).reverse
    if c = '[' ∧ inside.getLast? = some ']' ∧ '\n' ∉ inside then [] else c :: beforeBrackets rest

/-- `model_base_id` -/
def modelBaseId (value : String) : String := strip (String.ofList (beforeBrackets value.toList))

def isSlugCharacter (c : Char) : Bool :=
  (decide ('a' ≤ c) && decide (c ≤ 'z')) || (decide ('0' ≤ c) && decide (c ≤ '9'))

/-- Every run of other characters becomes one hyphen. -/
def slug (inside : Bool) : List Char → List Char
  | [] => []
  | c :: rest =>
    if isSlugCharacter c then c :: slug false rest
    else if inside then slug true rest
    else '-' :: slug true rest

def stripHyphens (text : List Char) : List Char :=
  ((text.dropWhile (· = '-')).reverse.dropWhile (· = '-')).reverse

section Identity

variable [CaseMapping]

def canonicalModelId (value : String) : String :=
  let base := strip (CaseMapping.casefold (modelBaseId value))
  String.ofList (stripHyphens (slug false base.toList))

/-- `_AUTO_IDS`. -/
def autoIds : Finset String := {"auto", "default"}

def modelIdentityTokens (value : String) : Finset String :=
  let canon := canonicalModelId value
  if canon ∈ autoIds then insert canon autoIds else {canon}

def sameModelId (left right : String) : Bool :=
  left == right || decide ((modelIdentityTokens left ∩ modelIdentityTokens right).Nonempty)

end Identity

----------------------------------------
-- Targets
----------------------------------------

/-- A requested configuration. -/
structure ModelTarget where
  modelId : String
  provider : Option String := none
  effort : Option String := none
  contextMode : Option String := none
  fastEnabled : Option Bool := none
  maxModeEnabled : Option Bool := none
  thinkingEnabled : Option Bool := none
  runMode : Option String := none
deriving DecidableEq

def ModelTarget.parameters (target : ModelTarget) : List (String × ParameterValue) :=
  [("effort", target.effort.map .text), ("context_mode", target.contextMode.map .text),
    ("fast_enabled", target.fastEnabled.map .flag),
    ("max_mode_enabled", target.maxModeEnabled.map .flag),
    ("thinking_enabled", target.thinkingEnabled.map .flag),
    ("run_mode", target.runMode.map .text)].filterMap
      (fun (name, value) => value.map (name, ·))

structure SelectModelRequest where
  target : ModelTarget
  deadline : Duration
deriving DecidableEq

inductive ModelSelectionPhase
  | created
  | ensuringConfiguration
  | awaitingConfigurationPicker
  | awaitingConfigurationSearchStep
  | awaitingConfiguration
  | awaitingParameterSelection
  | awaitingConfigurationConfirmation
  | reopeningPicker
  | awaitingActivationPicker
  | awaitingActiveReadback
  | restoringComposer
  | ambiguous
  | succeeded
  | failed
  | escalated
deriving DecidableEq

def ModelSelectionPhase.name : ModelSelectionPhase → String
  | .created => "CREATED"
  | .ensuringConfiguration => "ENSURING_CONFIGURATION"
  | .awaitingConfigurationPicker => "AWAITING_CONFIGURATION_PICKER"
  | .awaitingConfigurationSearchStep => "AWAITING_CONFIGURATION_SEARCH_STEP"
  | .awaitingConfiguration => "AWAITING_CONFIGURATION"
  | .awaitingParameterSelection => "AWAITING_PARAMETER_SELECTION"
  | .awaitingConfigurationConfirmation => "AWAITING_CONFIGURATION_CONFIRMATION"
  | .reopeningPicker => "REOPENING_PICKER"
  | .awaitingActivationPicker => "AWAITING_ACTIVATION_PICKER"
  | .awaitingActiveReadback => "AWAITING_ACTIVE_READBACK"
  | .restoringComposer => "RESTORING_COMPOSER"
  | .ambiguous => "AMBIGUOUS"
  | .succeeded => "SUCCEEDED"
  | .failed => "FAILED"
  | .escalated => "ESCALATED"

structure SelectModelOperation where
  envelope : OperationEnvelope ModelSelectionPhase
  request : SelectModelRequest
  configurationActionId : Option ActionId := none
  activationActionId : Option ActionId := none
  configurationPickerActionId : Option ActionId := none
  parameterActionId : Option ActionId := none
  confirmationActionId : Option ActionId := none
  activationPickerActionId : Option ActionId := none
  configurationBaselineRevision : Option ObservationRevision := none
  activationBaselineRevision : Option ObservationRevision := none
  configurationPickerBaselineRevision : Option ObservationRevision := none
  parameterBaselineRevision : Option ObservationRevision := none
  confirmationBaselineRevision : Option ObservationRevision := none
  configurationAcknowledged : Bool := false
  activationPickerBaselineRevision : Option ObservationRevision := none
  restorationActionId : Option ActionId := none
  restorationBaselineRevision : Option ObservationRevision := none
  ambiguityReason : Option String := none
  configurationSearchActionIds : List ActionId := []
  configurationSearchBaselineRevision : Option ObservationRevision := none
  configurationSearchStartModelId : Option String := none
  configurationSeenModelIds : List String := []
deriving DecidableEq

/-- What a model-selection action carries. -/
inductive ModelAction
  | selectModel (target : ModelTarget)
  | openModelPicker (filterText : String) (editParameters : Bool)
  | navigateModelPicker (direction : String)
  | dismissOverlay (overlayKind : String)
deriving DecidableEq

abbrev ModelDecision := ControllerDecision ModelSelectionPhase ModelAction

----------------------------------------
-- What a snapshot shows of the picker
----------------------------------------

/-- `dict(parameters).get(name)`: the last entry counts. -/
def ModelConfigurationState.parameter? (config : ModelConfigurationState) (name : String)
    : Option ParameterValue :=
  ((config.parameters.reverse.find? (fun entry => entry.1 == name)).map (·.2)).join

/-- `_configuration_parameters(snapshot).get(name)` -/
def configurationParameter (snapshot : ObservationSnapshot) (name : String)
    : Option ParameterValue :=
  snapshot.modelConfiguration.value.bind (·.parameter? name)

def modelPickerIsActive (snapshot : ObservationSnapshot) : Bool :=
  snapshot.surface.value.any (fun surface => surface.primary == .modelPicker)

def safeComposerSurface (snapshot : ObservationSnapshot) : Bool :=
  snapshot.surface.value.any (fun surface =>
    surface.primary == .composer || surface.primary == .transcript)

def modelSlashCommandIsPending (snapshot : ObservationSnapshot) : Bool :=
  snapshot.composer.value.any (fun composer =>
    composer.text.any (fun text => "/model".toList.isPrefixOf (strip text).toList))

def visibleModelIds (snapshot : ObservationSnapshot) : List String :=
  match snapshot.modelConfiguration.value with
  | some config => config.available.filterMap ChoiceState.stableChoiceId
  | none => []

/-- The row under the cursor. -/
def highlightedModelId (snapshot : ObservationSnapshot) : Option String :=
  snapshot.modelConfiguration.value.bind (fun config =>
    match config.available.find? (fun choice => choice.highlighted == some true) with
    | some choice => some (choice.stableChoiceId.getD "" ++ "\x1f" ++ choice.label)
    | none => config.highlightedModelId)

/-- `snapshot.revision > baseline` for a recorded baseline. -/
def isAfter (snapshot : ObservationSnapshot) (baseline : Option ObservationRevision) : Bool :=
  baseline.any (fun before => decide (before < snapshot.revision))

/-- `str.isdigit` of one character; not every such character is a decimal digit. -/
class DigitCharacters where
  isDigit : Char → Bool

/-- `text.isdigit()` -/
def isDigits [DigitCharacters] (text : String) : Bool :=
  text != "" && text.toList.all DigitCharacters.isDigit

/-- `int(text)` of a text of digits, which takes decimal ones only. -/
def readCount [DecimalDigits] (text : String) : Except SubmitError Nat :=
  if text.toList.all isDecimal then parseCount text.toList else .error .valueError

----------------------------------------
-- Predicates
----------------------------------------

section Predicates

variable [CaseMapping]

/-- The fast mode an effort or a spelled-out model identifier shows. -/
def observedFastEnabled (model : ModelState) : Option Bool :=
  if model.effort = some "fast" then some true
  else if model.effort = some "slow" then some false
  else
    let lowered := CaseMapping.casefold model.modelId
    if occursIn "fast=true" lowered || "-fast".toList.isSuffixOf lowered.toList then some true
    else if occursIn "fast=false" lowered then some false
    else none

def modelMatches (target : ModelTarget) (model : ModelState) : Bool :=
  sameModelId model.modelId target.modelId
    && target.provider.all (fun provider => model.provider == some provider)
    && target.effort.all (fun effort => model.effort == some effort)
    && target.fastEnabled.all (fun fast => (observedFastEnabled model).all (· == fast))

def activeModelMatches (target : ModelTarget) (snapshot : ObservationSnapshot)
    : PredicateResult :=
  let result (value : TruthValue) (reason : String) : PredicateResult :=
    ⟨value, "active_model_matches", snapshot.revision, reason⟩
  match snapshot.activeModel.value with
  | none =>
    result .unknown ("active-model readback is " ++ snapshot.activeModel.knowledge.name)
  | some model =>
    result (.ofBool (modelMatches target model))
      "active model/provider/effort readback compared with target"

def mismatchedParameters (target : ModelTarget) (config : ModelConfigurationState)
    : List String :=
  (target.parameters.filter (fun (name, expected) =>
    config.parameter? name != some expected)).map (·.1)

def modelConfigurationMatches (target : ModelTarget) (snapshot : ObservationSnapshot)
    : PredicateResult :=
  let result (value : TruthValue) (reason : String) : PredicateResult :=
    ⟨value, "configuration_matches", snapshot.revision, reason⟩
  match snapshot.modelConfiguration.value with
  | none =>
    result .unknown ("model configuration is " ++ snapshot.modelConfiguration.knowledge.name)
  | some config =>
    if config.configuredModelId.any (sameModelId · target.modelId) = false then
      result .false "configured model differs from target"
    else if config.pendingChanges ≠ some false then
      result .unknown "configured model has pending or unknown changes"
    else
      let missing := mismatchedParameters target config
      if missing ≠ [] then
        result .false
          ("configured parameter mismatch: " ++ String.intercalate ", " missing)
      else
        result .true "configured model and requested parameters match"

def ChoiceState.isTarget (choice : ChoiceState) (target : ModelTarget) : Bool :=
  choice.stableChoiceId.any (sameModelId target.modelId) || target.modelId == choice.label

variable [DecimalDigits] [DigitCharacters]

/-- The page the picker shows ends before its last one. -/
def pageIsPartial (config : ModelConfigurationState) : Except SubmitError Bool :=
  match config.parameter? "model_page_end", config.parameter? "model_page_total" with
  | some (.text last), some (.text total) =>
    if isDigits last && isDigits total then do
      let last ← readCount last
      let total ← readCount total
      pure (decide (last < total))
    else
      .ok false
  | _, _ => .ok false

def targetIsAvailable (target : ModelTarget) (snapshot : ObservationSnapshot)
    : Except SubmitError PredicateResult :=
  let result (value : TruthValue) (reason : String) : PredicateResult :=
    ⟨value, "configuration_target_available", snapshot.revision, reason⟩
  match snapshot.modelConfiguration.value with
  | none => .ok (result .unknown "model choices are not currently visible")
  | some config =>
    if config.available = [] then
      .ok (result .unknown "configuration surface did not expose model choices")
    else
      match config.available.find? (·.isTarget target) with
      | some choice =>
        if choice.disabled = some true then
          .ok (result .false "target model is visible but disabled")
        else
          .ok (result .true "target model is visible in the picker")
      | none => do
          if ← pageIsPartial config then
            pure (result .unknown "target model is absent from the current paginated viewport")
          else
            pure (result .false "target model is absent from a known picker")

end Predicates

section Operation

variable [CaseMapping]

/-- `_configured_model_is_target` -/
def configuredModelIsTarget (op : SelectModelOperation) (snapshot : ObservationSnapshot)
    : Bool :=
  snapshot.modelConfiguration.value.any (fun config =>
    config.configuredModelId.any (sameModelId · op.request.target.modelId))

def targetIsVisiblyDisabled (target : ModelTarget) (snapshot : ObservationSnapshot) : Bool :=
  snapshot.modelConfiguration.value.any (fun config =>
    config.available.any (fun choice =>
      choice.isTarget target && choice.disabled == some true))

/-- The parameter editor of the configured target is open. -/
def editsTarget (op : SelectModelOperation) (snapshot : ObservationSnapshot) : Bool :=
  configurationParameter snapshot "stage" == some (.text "effort")
    && configuredModelIsTarget op snapshot

/-- It shows the requested effort; a request without one is met by an editor without one. -/
def editsTargetEffort (op : SelectModelOperation) (snapshot : ObservationSnapshot) : Bool :=
  editsTarget op snapshot
    && configurationParameter snapshot "effort" == op.request.target.effort.map .text

end Operation

----------------------------------------
-- Actions
----------------------------------------

namespace SelectModelOperation

variable (op : SelectModelOperation) (actionId : ActionId)

def act (policy : DuplicatePolicy) (payload : ModelAction) : SemanticAction ModelAction :=
  ⟨actionId, op.envelope.operationId, policy, payload⟩

def selectAction : SemanticAction ModelAction :=
  op.act actionId .ambiguousAfterEmission (.selectModel op.request.target)

/-- The configured row, without its parameters. -/
def activationAction : SemanticAction ModelAction :=
  op.act actionId .ambiguousAfterEmission
    (.selectModel {
      modelId := op.request.target.modelId
      provider := op.request.target.provider })

def dismissModelOverlayAction : SemanticAction ModelAction :=
  op.act actionId .replaySafeWhilePreconditionHolds (.dismissOverlay "model_picker")

def openPickerAction (editParameters : Bool) : SemanticAction ModelAction :=
  op.act actionId .replaySafeWhilePreconditionHolds
    (.openModelPicker op.request.target.modelId editParameters)

def navigatePickerAction : SemanticAction ModelAction :=
  op.act actionId .replaySafeWhilePreconditionHolds (.navigateModelPicker "down")

def expired (now : Timestamp) : Bool := op.envelope.deadline.any (· < now)

end SelectModelOperation

----------------------------------------
-- Decisions
----------------------------------------

section Reconcile

variable [CaseMapping] (op : SelectModelOperation) (snapshot : ObservationSnapshot)
  (actionId : ActionId)

def rpcBackend : Bool := snapshot.modelConfiguration.knowledge == .unsupported

def reconcileModelCreated : ModelDecision :=
  let configured := modelConfigurationMatches op.request.target snapshot
  let active := activeModelMatches op.request.target snapshot
  if active.value = .true ∧ (configured.value = .true ∨ rpcBackend snapshot) then
    .succeed .succeeded
      (if rpcBackend snapshot ∧ configured.value ≠ .true then
        "target already active on RPC backend"
      else
        "target configuration already active")
      [configured, active]
  else
    .observe .ensuringConfiguration "begin model selection"

def reconcileRpcBackend : ModelDecision :=
  let configured := modelConfigurationMatches op.request.target snapshot
  let active := activeModelMatches op.request.target snapshot
  if active.value = .true then
    .succeed .succeeded "RPC backend active-model readback matches target" [configured, active]
  else if op.activationActionId ≠ none then
    .observe .awaitingActiveReadback
      "RPC model stage emitted. Await active-model readback" [active]
  else
    .emit .awaitingActiveReadback (op.selectAction actionId)
      "stage requested model on RPC backend (no picker)" [configured, active]

def reconcileConfigured : ModelDecision :=
  let configured := modelConfigurationMatches op.request.target snapshot
  let active := activeModelMatches op.request.target snapshot
  if active.value = .true then
    if modelPickerIsActive snapshot then
      .emit .restoringComposer (op.dismissModelOverlayAction actionId)
        "target is active. restore the composer before succeeding" [configured, active]
    else
      .succeed .succeeded "configured target has active-model readback" [configured, active]
  else
    .observe .reopeningPicker "configuration saved. reopen picker to activate it"
      [configured, active]

def reconcileEditor : ModelDecision :=
  let configured := modelConfigurationMatches op.request.target snapshot
  let mismatched := match snapshot.modelConfiguration.value with
    | some config => mismatchedParameters op.request.target config
    | none => []
  if mismatched ≠ [] then
    .emit .awaitingParameterSelection (op.selectAction actionId)
      ("direct model command opened parameters. select requested "
        ++ String.intercalate ", " mismatched)
      [configured]
  else
    .emit .awaitingConfigurationConfirmation (op.dismissModelOverlayAction actionId)
      "direct model command opened matching parameters. return for activation" [configured]

/-- The picker does not offer the target where it is: the next row is tried until the cursor
is back at the row the search started from.
-/
def reconcileSearch (availability : PredicateResult) : ModelDecision :=
  let configured := modelConfigurationMatches op.request.target snapshot
  if targetIsVisiblyDisabled op.request.target snapshot then
    ⟨.fail, .failed, none, "target model is visible but disabled", [configured, availability],
      by simp⟩
  else
    match highlightedModelId snapshot with
    | none =>
      .escalate .ambiguous
        "target is outside the visible picker and the picker cursor is unknown"
        [configured, availability]
    | some highlighted =>
      if op.configurationSearchActionIds ≠ []
          ∧ op.configurationSearchStartModelId = some highlighted then
        ⟨.fail, .failed, none,
          "target model is unavailable after an exhaustive picker traversal",
          [configured, availability], by simp⟩
      else
        .emit .awaitingConfigurationSearchStep (op.navigatePickerAction actionId)
          "target is not in the visible viewport. advance the picker and read it again"
          [configured, availability]

/-- The configuration is not known: the picker is opened from a safe surface, once. -/
def reconcileOpening : ModelDecision :=
  let configured := modelConfigurationMatches op.request.target snapshot
  if op.configurationPickerActionId ≠ none then
    .observe .ensuringConfiguration "wait through Cursor's picker-to-parameter transition"
      [configured]
  else if snapshot.surface.value = none then
    .observe .ensuringConfiguration
      "wait for a known safe surface before opening model picker"
  else if safeComposerSurface snapshot = false then
    .escalate .escalated
      "model picker is not visible and current surface is not safe to replace" [configured]
  else
    .emit .awaitingConfigurationPicker
      (op.openPickerAction actionId (op.request.target.parameters != []))
      "open model picker before configuring target" [configured]

def reconcileConfiguring (availability : PredicateResult) : ModelDecision :=
  let configured := modelConfigurationMatches op.request.target snapshot
  if op.configurationActionId ≠ none then
    .escalate .ambiguous "configuration action already exists without convergence" [configured]
  else
    .emit .awaitingConfiguration (op.selectAction actionId)
      "configure requested model and parameters" [configured, availability]

def reconcileEnsuring [DecimalDigits] [DigitCharacters] : Except SubmitError ModelDecision :=
  let configured := modelConfigurationMatches op.request.target snapshot
  if rpcBackend snapshot then
    .ok (reconcileRpcBackend op snapshot actionId)
  else if configured.value = .true then
    .ok (reconcileConfigured op snapshot actionId)
  else if editsTarget op snapshot then
    .ok (reconcileEditor op snapshot actionId)
  else do
    let availability ← targetIsAvailable op.request.target snapshot
    if availability.value = .false then
      pure (reconcileSearch op snapshot actionId availability)
    else if configured.value = .unknown then
      pure (reconcileOpening op snapshot actionId)
    else
      pure (reconcileConfiguring op snapshot actionId availability)

def reconcileConfigurationPicker : ModelDecision :=
  let configured := modelConfigurationMatches op.request.target snapshot
  let active := activeModelMatches op.request.target snapshot
  if op.configurationPickerActionId = none ∨ op.configurationPickerBaselineRevision = none then
    .escalate .ambiguous
      "model-picker phase lacks persisted action identity or baseline revision"
  else if isAfter snapshot op.configurationPickerBaselineRevision = false then
    .observe .awaitingConfigurationPicker "wait for fresh model-picker observation"
  else if snapshot.modelConfiguration.knowledge = .present then
    .observe .ensuringConfiguration "model picker observed. assess target configuration"
      [configured]
  else if safeComposerSurface snapshot ∧ modelSlashCommandIsPending snapshot then
    .emit .awaitingConfigurationPicker
      (op.openPickerAction actionId (op.request.target.parameters != []))
      "confirm Cursor's pending /model slash-command selection" [configured]
  else if active.value = .true ∧ safeComposerSurface snapshot then
    .succeed .succeeded "targeted /model command produced matching active-model readback"
      [active]
  else
    .escalate .ambiguous "model-picker request emitted without visible picker evidence"
      [configured]

def reconcileSearchStep : ModelDecision :=
  if op.configurationSearchActionIds = [] ∨ op.configurationSearchBaselineRevision = none then
    .escalate .ambiguous
      "model-picker traversal lacks persisted action identity or baseline revision"
  else if isAfter snapshot op.configurationSearchBaselineRevision = false then
    .observe .awaitingConfigurationSearchStep "wait for a fresh model-picker viewport"
  else if snapshot.modelConfiguration.knowledge = .present then
    .observe .ensuringConfiguration "fresh picker viewport observed. continue target search"
  else
    .escalate .ambiguous "model-picker traversal emitted without fresh picker evidence"

def reconcileConfiguration : ModelDecision :=
  let configured := modelConfigurationMatches op.request.target snapshot
  let active := activeModelMatches op.request.target snapshot
  if op.configurationActionId = none ∨ op.configurationBaselineRevision = none then
    .escalate .ambiguous
      "configuration phase lacks persisted action identity or baseline revision" [configured]
  else if isAfter snapshot op.configurationBaselineRevision = false then
    .observe .awaitingConfiguration "wait for a fresh configuration observation" [configured]
  else if active.value = .true then
    .succeed .succeeded "model-row confirmation produced matching active-model readback"
      [active]
  else if editsTarget op snapshot then
    if op.request.target.effort ≠ none
        ∧ configurationParameter snapshot "effort" ≠ op.request.target.effort.map .text then
      .emit .awaitingParameterSelection (op.selectAction actionId)
        "select the requested reasoning effort on the observed parameter surface" [configured]
    else
      .emit .awaitingConfigurationConfirmation (op.dismissModelOverlayAction actionId)
        "leave the saved parameter editor before activating the model" [configured]
  else
    match configured.value with
    | .true =>
      .observe .reopeningPicker
        "configuration converged. active model still needs separate selection"
        [configured, active]
    | .false =>
      .escalate .ambiguous
        "fresh evidence contradicts configured target after confirmation" [configured]
    | .unknown =>
      .observe .awaitingConfiguration "await configuration acknowledgment" [configured]

def reconcileParameterSelection : ModelDecision :=
  let active := activeModelMatches op.request.target snapshot
  if op.parameterActionId = none ∨ op.parameterBaselineRevision = none then
    .escalate .ambiguous "parameter phase lacks persisted action identity or baseline revision"
  else if isAfter snapshot op.parameterBaselineRevision = false then
    .observe .awaitingParameterSelection "wait for fresh parameter-selection evidence"
  else if active.value = .true then
    if modelPickerIsActive snapshot then
      .emit .restoringComposer (op.dismissModelOverlayAction actionId)
        "parameter selection activated the target. restore the composer" [active]
    else
      .succeed .succeeded "parameter selection produced matching active-model readback"
        [active]
  else if editsTargetEffort op snapshot then
    .emit .awaitingConfigurationConfirmation (op.dismissModelOverlayAction actionId)
      "selected effort is visible. return to the picker for activation"
  else
    .escalate .ambiguous "fresh parameter evidence did not converge after selection"

def reconcileConfirmation : ModelDecision :=
  let configured := modelConfigurationMatches op.request.target snapshot
  let active := activeModelMatches op.request.target snapshot
  if op.confirmationActionId = none ∨ op.confirmationBaselineRevision = none then
    .escalate .ambiguous
      "confirmation phase lacks persisted action identity or baseline revision"
  else if isAfter snapshot op.confirmationBaselineRevision = false then
    .observe .awaitingConfigurationConfirmation "wait for fresh post-confirmation evidence"
  else if editsTargetEffort op snapshot then
    .emit .awaitingConfigurationConfirmation (op.dismissModelOverlayAction actionId)
      "saved parameter editor is still visible. dismiss it again safely" [configured]
  else if active.value = .true then
    if modelPickerIsActive snapshot then
      .emit .restoringComposer (op.dismissModelOverlayAction actionId)
        "target is active but the model picker still blocks the composer" [active]
    else
      .succeed .succeeded "configuration confirmation also activated the requested model"
        [active]
  else if modelPickerIsActive snapshot then
    .emit .awaitingActiveReadback (op.activationAction actionId)
      "saved parameters are visible in the picker. activate the configured row"
      [configured, active]
  else if safeComposerSurface snapshot then
    .observe .reopeningPicker
      "configuration confirmation was acknowledged. verify separate activation" [active]
  else
    .observe .awaitingConfigurationConfirmation
      "await configuration confirmation acknowledgment" [active]

def reconcileReopening : ModelDecision :=
  let configured := modelConfigurationMatches op.request.target snapshot
  let active := activeModelMatches op.request.target snapshot
  if op.configurationAcknowledged = false ∧ configured.value ≠ .true then
    .observe .ensuringConfiguration
      "configuration is no longer established. reassess current picker state" [configured]
  else if active.value = .true then
    .succeed .succeeded "active-model readback already matches target" [configured, active]
  else if op.activationActionId ≠ none then
    .escalate .ambiguous "activation confirmation already exists without active readback"
      [active]
  else if snapshot.modelConfiguration.knowledge ≠ .present then
    if op.activationPickerActionId ≠ none then
      .escalate .ambiguous "activation picker was opened without visible picker evidence"
        [active]
    else if snapshot.surface.value = none then
      .observe .reopeningPicker
        "wait for known safe surface before reopening model picker"
    else if safeComposerSurface snapshot = false then
      .escalate .escalated
        "model picker is not visible and current surface is not safe to replace" [active]
    else
      .emit .awaitingActivationPicker (op.openPickerAction actionId false)
        "reopen model picker before activating configured target" [configured, active]
  else
    .emit .awaitingActiveReadback (op.activationAction actionId)
      "reopen picker and activate configured target" [configured, active]

def reconcileActivationPicker : ModelDecision :=
  let configured := modelConfigurationMatches op.request.target snapshot
  let active := activeModelMatches op.request.target snapshot
  if op.activationPickerActionId = none ∨ op.activationPickerBaselineRevision = none then
    .escalate .ambiguous
      "activation picker phase lacks persisted action identity or baseline revision"
  else if isAfter snapshot op.activationPickerBaselineRevision = false then
    .observe .awaitingActivationPicker "wait for fresh reopened model-picker observation"
  else if active.value = .true ∧ modelPickerIsActive snapshot then
    .emit .restoringComposer (op.dismissModelOverlayAction actionId)
      "activation picker selected the target. restore the composer" [active]
  else if active.value = .true ∧ safeComposerSurface snapshot then
    .succeed .succeeded "activation picker produced matching active-model readback" [active]
  else if snapshot.modelConfiguration.knowledge = .present then
    .observe .reopeningPicker
      "reopened model picker observed. activate configured target" [configured, active]
  else
    .escalate .ambiguous "activation picker request emitted without visible picker evidence"
      [active]

def reconcileActiveReadback : ModelDecision :=
  let configured := modelConfigurationMatches op.request.target snapshot
  let active := activeModelMatches op.request.target snapshot
  if op.activationActionId = none ∨ op.activationBaselineRevision = none then
    .escalate .ambiguous
      "activation phase lacks persisted action identity or baseline revision" [active]
  else if isAfter snapshot op.activationBaselineRevision = false then
    .observe .awaitingActiveReadback
      "wait for fresh post-selection active-model readback" [active]
  else if modelPickerIsActive snapshot then
    .emit .restoringComposer (op.dismissModelOverlayAction actionId)
      "selection left a model overlay open. restore the composer before readback" [active]
  else
    match active.value with
    | .true =>
      .succeed .succeeded "fresh active-model readback confirms target activation"
        [configured, active]
    | .false =>
      .escalate .ambiguous
        ("fresh active-model readback contradicts selection. confirmation is not "
          ++ "replayable")
        [active]
    | .unknown => .observe .awaitingActiveReadback "await active-model readback" [active]

def reconcileRestoring : ModelDecision :=
  let active := activeModelMatches op.request.target snapshot
  if op.restorationActionId = none ∨ op.restorationBaselineRevision = none then
    .escalate .ambiguous
      "composer-restoration phase lacks persisted action identity or baseline revision"
  else if isAfter snapshot op.restorationBaselineRevision = false then
    .observe .restoringComposer "wait for fresh post-dismissal evidence" [active]
  else if modelPickerIsActive snapshot then
    .emit .restoringComposer (op.dismissModelOverlayAction actionId)
      "another model overlay remains. continue restoring the composer" [active]
  else if safeComposerSurface snapshot = false then
    .observe .restoringComposer "wait for a known composer surface after dismissal" [active]
  else
    match active.value with
    | .true =>
      .succeed .succeeded "composer restored with matching active-model readback" [active]
    | .false =>
      .escalate .ambiguous "composer restored with contradictory active-model readback"
        [active]
    | .unknown =>
      .observe .restoringComposer "composer restored. Await active-model readback" [active]

def ModelSelectionPhase.escalatesAtDeadline : ModelSelectionPhase → Bool
  | .awaitingConfiguration => true
  | .awaitingParameterSelection => true
  | .awaitingConfigurationConfirmation => true
  | .awaitingActiveReadback => true
  | .restoringComposer => true
  | .ambiguous => true
  | _ => false

variable [DecimalDigits] [DigitCharacters]

def reconcileModelPhase : Except SubmitError ModelDecision :=
  match op.envelope.phase with
  | .created => .ok (reconcileModelCreated op snapshot)
  | .ensuringConfiguration => reconcileEnsuring op snapshot actionId
  | .awaitingConfigurationPicker => .ok (reconcileConfigurationPicker op snapshot actionId)
  | .awaitingConfigurationSearchStep => .ok (reconcileSearchStep op snapshot)
  | .awaitingConfiguration => .ok (reconcileConfiguration op snapshot actionId)
  | .awaitingParameterSelection => .ok (reconcileParameterSelection op snapshot actionId)
  | .awaitingConfigurationConfirmation => .ok (reconcileConfirmation op snapshot actionId)
  | .reopeningPicker => .ok (reconcileReopening op snapshot actionId)
  | .awaitingActivationPicker => .ok (reconcileActivationPicker op snapshot actionId)
  | .awaitingActiveReadback => .ok (reconcileActiveReadback op snapshot actionId)
  | .restoringComposer => .ok (reconcileRestoring op snapshot actionId)
  | .ambiguous =>
    .ok (.escalate .escalated
      ((given op.ambiguityReason).getD "ambiguous model configuration or activation"))
  | phase => .ok (.fail .failed ("invalid model-selection phase " ++ phase.name))

/-- `reconcile_model_selection`, which draws the identifier of its action from `uuid4`; here
the health of the observation comes before the deadline.
-/
def reconcileModelSelection (now : Timestamp) : Except SubmitError ModelDecision :=
  if snapshot.health.requiresEscalation then
    .ok (.escalate .escalated "observation health requires escalation")
  else if op.expired now then
    if op.envelope.phase.escalatesAtDeadline then
      .ok (.escalate .ambiguous "model confirmation emitted without verified convergence")
    else
      .ok (.fail .failed "model-selection deadline exceeded before confirmation")
  else
    reconcileModelPhase op snapshot actionId

end Reconcile

----------------------------------------
-- Durable state
----------------------------------------

/-- The identity and the baseline of an action are those of the phase it leads to. -/
def SelectModelOperation.record (op : SelectModelOperation) (phase : ModelSelectionPhase)
    (actionId : ActionId) (snapshot : ObservationSnapshot) : SelectModelOperation :=
  let revision := some snapshot.revision
  match phase with
  | .awaitingConfiguration =>
    { op with configurationActionId := actionId, configurationBaselineRevision := revision }
  | .awaitingParameterSelection =>
    { op with parameterActionId := actionId, parameterBaselineRevision := revision }
  | .awaitingConfigurationConfirmation =>
    { op with confirmationActionId := actionId, confirmationBaselineRevision := revision }
  | .awaitingActiveReadback =>
    { op with activationActionId := actionId, activationBaselineRevision := revision }
  | .awaitingConfigurationPicker =>
    { op with
      configurationPickerActionId := actionId
      configurationPickerBaselineRevision := revision }
  | .awaitingConfigurationSearchStep =>
    { op with
      configurationSearchActionIds := op.configurationSearchActionIds ++ [actionId]
      configurationSearchBaselineRevision := revision
      configurationSearchStartModelId :=
        op.configurationSearchStartModelId <|> highlightedModelId snapshot
      configurationSeenModelIds :=
        (op.configurationSeenModelIds ++ visibleModelIds snapshot).eraseDups }
  | .awaitingActivationPicker =>
    { op with
      activationPickerActionId := actionId
      activationPickerBaselineRevision := revision }
  | .restoringComposer =>
    { op with restorationActionId := actionId, restorationBaselineRevision := revision }
  | _ => op

/-- The operation behind a decision, recorded before its effects are emitted. -/
def advanceModelSelection (op : SelectModelOperation) (decision : ModelDecision)
    (snapshot : ObservationSnapshot) (now : Timestamp)
    : SelectModelOperation :=
  let recorded := match decision.action with
    | some action => op.record decision.nextPhase action.actionId snapshot
    | none => op
  { recorded with
    envelope := { op.envelope with
      phase := decision.nextPhase
      status := statusAfter op.envelope.status decision.kind
      updatedAt := now
      lastObservationRevision := some snapshot.revision
      actionHistory := op.envelope.actionHistory ++ (decision.action.map (·.actionId)).toList }
    configurationAcknowledged :=
      op.configurationAcknowledged
        || (op.envelope.phase == .awaitingConfigurationConfirmation
          && decision.nextPhase == .reopeningPicker)
    ambiguityReason :=
      if decision.kind = .escalate then some decision.reason else op.ambiguityReason }

end Murder.Harness

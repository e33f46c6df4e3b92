import Murder.Harness.SafeFailure
import Murder.Library.Histories

/-! Model selections act on fresh evidence and report what they read back. -/

namespace Murder.Harness

open Contracts Library.Histories Library.Runs Library.Transactions

abbrev ModelEntry := Entry SelectModelOperation Reconciliation ModelDecision

abbrev ModelHistory := History SelectModelOperation Reconciliation ModelDecision

def modelReducer [CaseMapping] [DecimalDigits] [DigitCharacters]
    : Reducer SelectModelOperation Reconciliation ModelDecision where
  decide op event :=
    (reconcileModelSelection op event.snapshot event.actionId event.now).toOption
  advance op event decision := advanceModelSelection op decision event.snapshot event.now
  settles decision := decision.kind.settles

/-- Any snapshots, in any order. -/
abbrev ModelStep [CaseMapping] [DecimalDigits] [DigitCharacters] :=
  Extended modelReducer (fun _ _ => True)

/-- A selection that was not reconciled yet. -/
def ModelCreated (op : SelectModelOperation) : Prop :=
  ∃ envelope request, envelope.phase = .created ∧ op = { envelope, request }

----------------------------------------
-- What a selection reports
----------------------------------------

def ModelSelectionPhase.awaits : ModelSelectionPhase → Bool
  | .created => false
  | .ensuringConfiguration => false
  | .reopeningPicker => false
  | .ambiguous => false
  | .succeeded => false
  | .failed => false
  | .escalated => false
  | _ => true

def SelectModelOperation.awaitedId (op : SelectModelOperation) : Option ActionId :=
  match op.envelope.phase with
  | .awaitingConfigurationPicker => op.configurationPickerActionId
  | .awaitingConfigurationSearchStep => op.configurationSearchActionIds.getLast?
  | .awaitingConfiguration => op.configurationActionId
  | .awaitingParameterSelection => op.parameterActionId
  | .awaitingConfigurationConfirmation => op.confirmationActionId
  | .awaitingActivationPicker => op.activationPickerActionId
  | .awaitingActiveReadback => op.activationActionId
  | .restoringComposer => op.restorationActionId
  | _ => none

def SelectModelOperation.awaitedBaseline (op : SelectModelOperation)
    : Option ObservationRevision :=
  match op.envelope.phase with
  | .awaitingConfigurationPicker => op.configurationPickerBaselineRevision
  | .awaitingConfigurationSearchStep => op.configurationSearchBaselineRevision
  | .awaitingConfiguration => op.configurationBaselineRevision
  | .awaitingParameterSelection => op.parameterBaselineRevision
  | .awaitingConfigurationConfirmation => op.confirmationBaselineRevision
  | .awaitingActivationPicker => op.activationPickerBaselineRevision
  | .awaitingActiveReadback => op.activationBaselineRevision
  | .restoringComposer => op.restorationBaselineRevision
  | _ => none

def ModelAction.selects : ModelAction → Bool
  | .selectModel _ => true
  | _ => false

/-- A selection, a step through the picker or a dismissal. -/
def ModelAction.touches : ModelAction → Bool
  | .openModelPicker _ _ => false
  | _ => true

def selectsModel (entry : ModelEntry) : Bool :=
  entry.decision.action.any (·.payload.selects)

/-- The decision emits an action on what the snapshot shows. -/
def ControllerDecision.touches (decision : ModelDecision) : Bool :=
  decision.action.any (·.payload.touches)

def lastBaseline (entries : List ModelEntry) : Option ObservationRevision :=
  (entries.filter (·.decision.action.isSome)).getLast?.map (·.event.snapshot.revision)

/-- A phase that awaits an action is entered with its identity and its baseline. -/
def Recorded (entry : ModelEntry) : Prop :=
  let after :=
    advanceModelSelection entry.before entry.decision entry.event.snapshot entry.event.now
  entry.decision.nextPhase.awaits = true
  → match entry.decision.action with
    | some action =>
      after.awaitedId = some action.actionId
      ∧ after.awaitedBaseline = some entry.event.snapshot.revision
    | none => entry.before.envelope.phase = entry.decision.nextPhase

def targetIsActive [CaseMapping] (op : SelectModelOperation) (snapshot : ObservationSnapshot)
    : Prop :=
  (activeModelMatches op.request.target snapshot).value = .true

structure ReadsBack [CaseMapping] (history : ModelHistory) : Prop where
  succeeds
    : ∀ entry ∈ history.entries, entry.decision.kind = .succeed
      → targetIsActive entry.before entry.event.snapshot
        ∧ modelPickerIsActive entry.event.snapshot = false
  fresh
    : ∀ earlier entry later, history.entries = earlier ++ entry :: later
      → entry.decision.touches = true
      → ∀ baseline, lastBaseline earlier = some baseline
        → baseline < entry.event.snapshot.revision
  bounded : history.entries.countP selectsModel ≤ 3
  recorded : ∀ entry ∈ history.entries, Recorded entry

----------------------------------------
-- Where a selection does not look
----------------------------------------

section Careful

variable [CaseMapping] (op : SelectModelOperation) (snapshot : ObservationSnapshot)

def targetIsConfigured : Prop :=
  (modelConfigurationMatches op.request.target snapshot).value = .true

/-- A phase succeeds on the active model alone, whatever surface is in front. -/
def succeedsOnReadback : Prop :=
  targetIsActive op snapshot
  ∧ match op.envelope.phase with
    | .created => targetIsConfigured op snapshot ∨ rpcBackend snapshot = true
    | .ensuringConfiguration => rpcBackend snapshot = true
    | .awaitingConfiguration => isAfter snapshot op.configurationBaselineRevision = true
    | .reopeningPicker =>
      op.configurationAcknowledged = true ∨ targetIsConfigured op snapshot
    | _ => False

def searchesOn : Prop :=
  targetIsVisiblyDisabled op.request.target snapshot = false
  ∧ highlightedModelId snapshot ≠ none
  ∧ ¬ (op.configurationSearchActionIds ≠ []
    ∧ op.configurationSearchStartModelId = highlightedModelId snapshot)

variable [DecimalDigits] [DigitCharacters]

/-- A phase without a baseline of its own acts on the snapshot. -/
def actsUnguarded : Prop :=
  match op.envelope.phase with
  | .ensuringConfiguration =>
    if rpcBackend snapshot = true then ¬ targetIsActive op snapshot
    else if (modelConfigurationMatches op.request.target snapshot).value = .true then
      targetIsActive op snapshot ∧ modelPickerIsActive snapshot = true
    else if editsTarget op snapshot = true then True
    else
      match targetIsAvailable op.request.target snapshot with
      | .error _ => False
      | .ok availability =>
        if availability.value = .false then searchesOn op snapshot
        else
          (modelConfigurationMatches op.request.target snapshot).value = .false
          ∧ op.configurationActionId = none
  | .reopeningPicker =>
    (op.configurationAcknowledged = true ∨ targetIsConfigured op snapshot)
    ∧ ¬ targetIsActive op snapshot ∧ snapshot.modelConfiguration.knowledge = .present
  | _ => False

end Careful

/-- Neither the health nor the deadline stops the reconcile. -/
def reconciles (op : SelectModelOperation) (event : Reconciliation) : Prop :=
  event.snapshot.health.requiresEscalation = false ∧ op.expired event.now = false

/-- A reconcile that finds the picker closed where the active model alone decides, and a
snapshot newer than the last action where the phase has no baseline.
-/
structure CarefulReconcile [CaseMapping] [DecimalDigits] [DigitCharacters]
    (history : ModelHistory) (event : Reconciliation) : Prop where
  closed
    : reconciles history.state event → succeedsOnReadback history.state event.snapshot
      → modelPickerIsActive event.snapshot = false
  fresh
    : reconciles history.state event → actsUnguarded history.state event.snapshot
      → ∀ baseline, lastBaseline history.entries = some baseline
        → baseline < event.snapshot.revision

----------------------------------------
-- What a reconcile decides
----------------------------------------

def ModelSelectionPhase.ended : ModelSelectionPhase → Prop
  | .ambiguous => True
  | .succeeded => True
  | .failed => True
  | .escalated => True
  | _ => False

/-- The actions a phase emits, and the phases that await them. -/
inductive Emission (op : SelectModelOperation) : ModelAction → ModelSelectionPhase → Prop
  | configure {target} (phase : op.envelope.phase = .ensuringConfiguration)
    (first : op.configurationActionId = none)
    : Emission op (.selectModel target) .awaitingConfiguration
  | parameters {target}
    (phase
      : op.envelope.phase = .ensuringConfiguration
        ∨ op.envelope.phase = .awaitingConfiguration)
    : Emission op (.selectModel target) .awaitingParameterSelection
  | activate {target}
    (phase
      : op.envelope.phase = .awaitingConfigurationConfirmation
        ∨ op.envelope.phase = .ensuringConfiguration
        ∨ op.envelope.phase = .reopeningPicker)
    : Emission op (.selectModel target) .awaitingActiveReadback
  | navigate {direction} (phase : op.envelope.phase = .ensuringConfiguration)
    : Emission op (.navigateModelPicker direction) .awaitingConfigurationSearchStep
  | openPicker {filter edit}
    (phase
      : op.envelope.phase = .ensuringConfiguration
        ∨ op.envelope.phase = .awaitingConfigurationPicker)
    : Emission op (.openModelPicker filter edit) .awaitingConfigurationPicker
  | reopenPicker {filter edit} (phase : op.envelope.phase = .reopeningPicker)
    : Emission op (.openModelPicker filter edit) .awaitingActivationPicker
  | confirm {kind}
    (phase
      : op.envelope.phase = .ensuringConfiguration
        ∨ op.envelope.phase = .awaitingConfiguration
        ∨ op.envelope.phase = .awaitingParameterSelection
        ∨ op.envelope.phase = .awaitingConfigurationConfirmation)
    : Emission op (.dismissOverlay kind) .awaitingConfigurationConfirmation
  | restore {kind}
    (phase
      : op.envelope.phase = .ensuringConfiguration
        ∨ op.envelope.phase = .awaitingParameterSelection
        ∨ op.envelope.phase = .awaitingConfigurationConfirmation
        ∨ op.envelope.phase = .awaitingActivationPicker
        ∨ op.envelope.phase = .awaitingActiveReadback
        ∨ op.envelope.phase = .restoringComposer)
    : Emission op (.dismissOverlay kind) .restoringComposer

/-- What a decision does to a selection. -/
inductive ModelMove [CaseMapping] (op : SelectModelOperation) (snapshot : ObservationSnapshot)
    (decision : ModelDecision) : Prop
  | settle (silent : decision.action = none) (ends : decision.nextPhase.ended)
    (honest
      : decision.kind = .succeed
        → targetIsActive op snapshot
          ∧ (modelPickerIsActive snapshot = true → succeedsOnReadback op snapshot))
  | look (silent : decision.action = none) (next : decision.nextPhase = .ensuringConfiguration)
    (unsettled : decision.kind ≠ .succeed)
    (looks
      : op.envelope.phase = .created ∨ op.envelope.phase = .ensuringConfiguration
        ∨ op.envelope.phase = .awaitingConfigurationPicker
        ∨ op.envelope.phase = .awaitingConfigurationSearchStep
        ∨ op.envelope.phase = .reopeningPicker ∧ op.configurationAcknowledged = false)
  | wait (silent : decision.action = none) (next : decision.nextPhase = op.envelope.phase)
    (unsettled : decision.kind ≠ .succeed) (awaits : op.envelope.phase.awaits = true)
  | reopen (silent : decision.action = none) (next : decision.nextPhase = .reopeningPicker)
    (unsettled : decision.kind ≠ .succeed)
    (reopens
      : op.envelope.phase = .ensuringConfiguration ∨ op.envelope.phase = .awaitingConfiguration
        ∨ op.envelope.phase = .awaitingConfigurationConfirmation
        ∨ op.envelope.phase = .reopeningPicker
        ∨ op.envelope.phase = .awaitingActivationPicker)
  | act (action : SemanticAction ModelAction) (emits : decision.action = some action)
    (unsettled : decision.kind ≠ .succeed)
    (emission : Emission op action.payload decision.nextPhase)
    (fresh
      : op.envelope.phase.awaits = true → isAfter snapshot op.awaitedBaseline = true)

def SelectModelOperation.behindParameters (op : SelectModelOperation) : Prop :=
  match op.envelope.phase with
  | .created => False
  | .ensuringConfiguration => False
  | .awaitingConfigurationPicker => False
  | .awaitingConfigurationSearchStep => False
  | .awaitingConfiguration => False
  | .reopeningPicker => op.configurationAcknowledged = true
  | .awaitingActivationPicker => op.configurationAcknowledged = true
  | _ => True

def ModelSelectionPhase.behindActivation : ModelSelectionPhase → Prop
  | .awaitingActiveReadback => True
  | .restoringComposer => True
  | phase => phase.ended

namespace ModelSelectionPhase.ended

variable {phase : ModelSelectionPhase}

theorem awaits (ends : phase.ended) : ¬ phase.awaits = true := by
  cases phase <;> first | exact False.elim ends | simp [ModelSelectionPhase.awaits]

theorem behindActivation (ends : phase.ended) : phase.behindActivation := by
  cases phase <;> trivial

theorem behindParameters {op : SelectModelOperation} (ends : phase.ended)
    (at_ : op.envelope.phase = phase)
    : op.behindParameters := by
  unfold SelectModelOperation.behindParameters
  rw [at_]
  cases phase <;> trivial

end ModelSelectionPhase.ended

/-- Where a selection that acted stands. -/
structure ModelSound (op : SelectModelOperation) : Prop where
  parameters : op.parameterActionId ≠ none → op.behindParameters
  activated : op.activationActionId ≠ none → op.envelope.phase.behindActivation
  awaited
    : op.envelope.phase.awaits = true → op.awaitedId ≠ none ∧ op.awaitedBaseline ≠ none

theorem not_pickerIsActive_of_safe {snapshot : ObservationSnapshot}
    (safe : safeComposerSurface snapshot = true)
    : modelPickerIsActive snapshot = false := by
  unfold safeComposerSurface at safe
  unfold modelPickerIsActive
  cases shown : snapshot.surface.value with
  | none => rfl
  | some surface =>
    simp only [shown, Option.any_some, Bool.or_eq_true, beq_iff_eq] at safe ⊢
    rcases safe with primary | primary <;> simp [primary]

/-- A phase that awaits nothing has no baseline. -/
theorem unguarded {op : SelectModelOperation} {phase : ModelSelectionPhase} {fresh : Prop}
    (at_ : op.envelope.phase = phase)
    (idle : phase.awaits = false)
    : op.envelope.phase.awaits = true → fresh := by
  intro awaits
  rw [at_, idle] at awaits
  cases awaits

/-- The snapshot is newer than the baseline of the phase. -/
theorem guarded {op : SelectModelOperation} {snapshot : ObservationSnapshot}
    {baseline : Option ObservationRevision}
    (same : op.awaitedBaseline = baseline) (after : ¬ isAfter snapshot baseline = false)
    : op.envelope.phase.awaits = true → isAfter snapshot op.awaitedBaseline = true := by
  intro _
  rw [same]
  simpa using after

variable {evidence : List PredicateResult} {availability : PredicateResult}

section Decisions

variable [CaseMapping] {op : SelectModelOperation} {snapshot : ObservationSnapshot}
  {actionId : ActionId} {now : Timestamp}

theorem move_escalate {phase : ModelSelectionPhase} {reason : String} (ends : phase.ended)
    : ModelMove op snapshot (.escalate phase reason evidence) :=
  .settle rfl ends nofun

theorem move_succeed {reason : String} (active : targetIsActive op snapshot)
    (honest : modelPickerIsActive snapshot = true → succeedsOnReadback op snapshot)
    : ModelMove op snapshot (.succeed .succeeded reason evidence) :=
  .settle rfl trivial (fun _ => ⟨active, honest⟩)

theorem move_wait {phase : ModelSelectionPhase} {reason : String} (same : op.envelope.phase = phase)
    (awaits : phase.awaits = true)
    : ModelMove op snapshot (.observe phase reason evidence) :=
  .wait rfl same.symm nofun (same ▸ awaits)

theorem move_fail {phase : ModelSelectionPhase} {reason : String} (ends : phase.ended)
    : ModelMove op snapshot (.fail phase reason) :=
  .settle rfl ends nofun

theorem move_look {reason : String}
    (looks
      : op.envelope.phase = .created ∨ op.envelope.phase = .ensuringConfiguration
        ∨ op.envelope.phase = .awaitingConfigurationPicker
        ∨ op.envelope.phase = .awaitingConfigurationSearchStep
        ∨ op.envelope.phase = .reopeningPicker ∧ op.configurationAcknowledged = false)
    : ModelMove op snapshot (.observe .ensuringConfiguration reason evidence) :=
  .look rfl rfl nofun looks

theorem move_reopen {reason : String}
    (reopens
      : op.envelope.phase = .ensuringConfiguration ∨ op.envelope.phase = .awaitingConfiguration
        ∨ op.envelope.phase = .awaitingConfigurationConfirmation
        ∨ op.envelope.phase = .reopeningPicker
        ∨ op.envelope.phase = .awaitingActivationPicker)
    : ModelMove op snapshot (.observe .reopeningPicker reason evidence) :=
  .reopen rfl rfl nofun reopens

theorem move_act {phase : ModelSelectionPhase} {reason : String}
    {action : SemanticAction ModelAction} (emission : Emission op action.payload phase)
    (fresh : op.envelope.phase.awaits = true → isAfter snapshot op.awaitedBaseline = true)
    : ModelMove op snapshot (.emit phase action reason evidence) :=
  .act action rfl nofun emission fresh

theorem move_created (phase : op.envelope.phase = .created)
    : ModelMove op snapshot (reconcileModelCreated op snapshot) := by
  unfold reconcileModelCreated
  dsimp only
  split
  · next shown =>
      refine .settle rfl trivial (fun _ => ⟨shown.1, fun _ => ⟨shown.1, ?_⟩⟩)
      rw [phase]
      exact shown.2
  · exact move_look (.inl phase)

theorem move_rpc (sound : ModelSound op) (phase : op.envelope.phase = .ensuringConfiguration)
    (rpc : rpcBackend snapshot = true)
    : ModelMove op snapshot (reconcileRpcBackend op snapshot actionId) := by
  unfold reconcileRpcBackend
  dsimp only
  split_ifs with active activated
  · refine move_succeed active (fun _ => ⟨active, ?_⟩)
    rw [phase]
    exact rpc
  · have behind := sound.activated activated
    rw [phase] at behind
    cases behind
  · exact move_act (.activate (.inr (.inl phase))) (unguarded phase rfl)

theorem move_configured (phase : op.envelope.phase = .ensuringConfiguration)
    : ModelMove op snapshot (reconcileConfigured op snapshot actionId) := by
  unfold reconcileConfigured
  dsimp only
  split_ifs with active picker
  · exact move_act (.restore (.inl phase)) (unguarded phase rfl)
  · exact move_succeed active (fun shown => absurd shown picker)
  · exact move_reopen (.inl phase)

theorem move_editor (phase : op.envelope.phase = .ensuringConfiguration)
    : ModelMove op snapshot (reconcileEditor op snapshot actionId) := by
  unfold reconcileEditor
  dsimp only
  split_ifs
  · exact move_act (.parameters (.inl phase)) (unguarded phase rfl)
  · exact move_act (.confirm (.inl phase)) (unguarded phase rfl)

theorem move_search (phase : op.envelope.phase = .ensuringConfiguration)
    : ModelMove op snapshot (reconcileSearch op snapshot actionId availability) := by
  unfold reconcileSearch
  dsimp only
  split
  · exact .settle rfl trivial (fun kind => by cases kind)
  split
  · exact move_escalate trivial
  split
  · exact .settle rfl trivial (fun kind => by cases kind)
  · exact move_act (.navigate phase) (unguarded phase rfl)

theorem move_opening (phase : op.envelope.phase = .ensuringConfiguration)
    : ModelMove op snapshot (reconcileOpening op snapshot actionId) := by
  unfold reconcileOpening
  dsimp only
  split_ifs
  · exact move_look (.inr (.inl phase))
  · exact move_look (.inr (.inl phase))
  · exact move_escalate trivial
  · exact move_act (.openPicker (.inl phase)) (unguarded phase rfl)

theorem move_configuring (phase : op.envelope.phase = .ensuringConfiguration)
    : ModelMove op snapshot (reconcileConfiguring op snapshot actionId availability) := by
  unfold reconcileConfiguring
  dsimp only
  split_ifs with configured
  · exact move_escalate trivial
  · exact move_act (.configure phase (not_not.mp configured)) (unguarded phase rfl)

theorem move_ensuring [DecimalDigits] [DigitCharacters] {decision : ModelDecision}
    (sound : ModelSound op) (phase : op.envelope.phase = .ensuringConfiguration)
    (decided : reconcileEnsuring op snapshot actionId = .ok decision)
    : ModelMove op snapshot decision := by
  unfold reconcileEnsuring at decided
  dsimp only at decided
  split at decided
  · next rpc =>
      cases decided
      exact move_rpc sound phase rpc
  split at decided
  · cases decided
    exact move_configured phase
  split at decided
  · cases decided
    exact move_editor phase
  obtain ⟨availability, -, decided⟩ := except_bind_ok.mp decided
  split at decided
  · cases decided
    exact move_search phase
  split at decided
  · cases decided
    exact move_opening phase
  · cases decided
    exact move_configuring phase

theorem move_configurationPicker
    (phase : op.envelope.phase = .awaitingConfigurationPicker)
    : ModelMove op snapshot (reconcileConfigurationPicker op snapshot actionId) := by
  have baseline : op.awaitedBaseline = op.configurationPickerBaselineRevision := by
    rw [SelectModelOperation.awaitedBaseline, phase]
  unfold reconcileConfigurationPicker
  dsimp only
  split_ifs with lacks stale shown pending active
  · exact move_escalate trivial
  · exact move_wait phase rfl
  · exact move_look (.inr (.inr (.inl phase)))
  · exact move_act (.openPicker (.inr phase)) (guarded baseline stale)
  · refine move_succeed active.1 (fun picker => ?_)
    rw [not_pickerIsActive_of_safe active.2] at picker
    cases picker
  · exact move_escalate trivial

theorem move_searchStep (phase : op.envelope.phase = .awaitingConfigurationSearchStep)
    : ModelMove op snapshot (reconcileSearchStep op snapshot) := by
  unfold reconcileSearchStep
  split_ifs
  · exact move_escalate trivial
  · exact move_wait phase rfl
  · exact move_look (.inr (.inr (.inr (.inl phase))))
  · exact move_escalate trivial

theorem move_configuration (phase : op.envelope.phase = .awaitingConfiguration)
    : ModelMove op snapshot (reconcileConfiguration op snapshot actionId) := by
  have baseline : op.awaitedBaseline = op.configurationBaselineRevision := by
    rw [SelectModelOperation.awaitedBaseline, phase]
  unfold reconcileConfiguration
  dsimp only
  split_ifs with lacks stale active
  · exact move_escalate trivial
  · exact move_wait phase rfl
  · refine move_succeed active (fun _ => ⟨active, ?_⟩)
    rw [phase]
    simpa using stale
  · exact move_act (.parameters (.inr phase)) (guarded baseline stale)
  · exact move_act (.confirm (.inr (.inl phase))) (guarded baseline stale)
  · split
    · exact move_reopen (.inr (.inl phase))
    · exact move_escalate trivial
    · exact move_wait phase rfl

theorem move_parameterSelection (phase : op.envelope.phase = .awaitingParameterSelection)
    : ModelMove op snapshot (reconcileParameterSelection op snapshot actionId) := by
  have baseline : op.awaitedBaseline = op.parameterBaselineRevision := by
    rw [SelectModelOperation.awaitedBaseline, phase]
  unfold reconcileParameterSelection
  dsimp only
  split_ifs with lacks stale active picker
  · exact move_escalate trivial
  · exact move_wait phase rfl
  · exact move_act (.restore (.inr (.inl phase))) (guarded baseline stale)
  · exact move_succeed active (fun shown => absurd shown picker)
  · exact move_act (.confirm (.inr (.inr (.inl phase)))) (guarded baseline stale)
  · exact move_escalate trivial

theorem move_confirmation (phase : op.envelope.phase = .awaitingConfigurationConfirmation)
    : ModelMove op snapshot (reconcileConfirmation op snapshot actionId) := by
  have baseline : op.awaitedBaseline = op.confirmationBaselineRevision := by
    rw [SelectModelOperation.awaitedBaseline, phase]
  unfold reconcileConfirmation
  dsimp only
  split_ifs with lacks stale edits active picker
  · exact move_escalate trivial
  · exact move_wait phase rfl
  · exact move_act (.confirm (.inr (.inr (.inr phase)))) (guarded baseline stale)
  · exact move_act (.restore (.inr (.inr (.inl phase)))) (guarded baseline stale)
  · exact move_succeed active (fun shown => absurd shown picker)
  · exact move_act (.activate (.inl phase)) (guarded baseline stale)
  · exact move_reopen (.inr (.inr (.inl phase)))
  · exact move_wait phase rfl

theorem move_reopening (phase : op.envelope.phase = .reopeningPicker)
    : ModelMove op snapshot (reconcileReopening op snapshot actionId) := by
  unfold reconcileReopening
  dsimp only
  split_ifs with lost active
  · exact move_look (.inr (.inr (.inr (.inr ⟨phase, lost.1⟩))))
  · refine move_succeed active (fun _ => ⟨active, ?_⟩)
    rw [phase]
    simpa [targetIsConfigured, or_iff_not_imp_left] using lost
  · exact move_escalate trivial
  · exact move_escalate trivial
  · exact move_reopen (.inr (.inr (.inr (.inl phase))))
  · exact move_escalate trivial
  · exact move_act (.reopenPicker phase) (unguarded phase rfl)
  · exact move_act (.activate (.inr (.inr phase))) (unguarded phase rfl)

theorem move_activationPicker (phase : op.envelope.phase = .awaitingActivationPicker)
    : ModelMove op snapshot (reconcileActivationPicker op snapshot actionId) := by
  have baseline : op.awaitedBaseline = op.activationPickerBaselineRevision := by
    rw [SelectModelOperation.awaitedBaseline, phase]
  unfold reconcileActivationPicker
  dsimp only
  split_ifs with lacks stale open_ active
  · exact move_escalate trivial
  · exact move_wait phase rfl
  · exact move_act (.restore (.inr (.inr (.inr (.inl phase))))) (guarded baseline stale)
  · exact move_succeed active.1 (fun picker => absurd ⟨active.1, picker⟩ open_)
  · exact move_reopen (.inr (.inr (.inr (.inr phase))))
  · exact move_escalate trivial

theorem move_activeReadback (phase : op.envelope.phase = .awaitingActiveReadback)
    : ModelMove op snapshot (reconcileActiveReadback op snapshot actionId) := by
  have baseline : op.awaitedBaseline = op.activationBaselineRevision := by
    rw [SelectModelOperation.awaitedBaseline, phase]
  unfold reconcileActiveReadback
  dsimp only
  split_ifs with lacks stale picker
  · exact move_escalate trivial
  · exact move_wait phase rfl
  · exact move_act (.restore (.inr (.inr (.inr (.inr (.inl phase))))))
      (guarded baseline stale)
  · split
    · next active => exact move_succeed active (fun shown => absurd shown picker)
    · exact move_escalate trivial
    · exact move_wait phase rfl

theorem move_restoring (phase : op.envelope.phase = .restoringComposer)
    : ModelMove op snapshot (reconcileRestoring op snapshot actionId) := by
  have baseline : op.awaitedBaseline = op.restorationBaselineRevision := by
    rw [SelectModelOperation.awaitedBaseline, phase]
  unfold reconcileRestoring
  dsimp only
  split_ifs with lacks stale picker
  · exact move_escalate trivial
  · exact move_wait phase rfl
  · exact move_act (.restore (.inr (.inr (.inr (.inr (.inr phase))))))
      (guarded baseline stale)
  · exact move_wait phase rfl
  · split
    · next active => exact move_succeed active (fun shown => absurd shown picker)
    · exact move_escalate trivial
    · exact move_wait phase rfl

theorem touches_rpc (unactivated : op.activationActionId = none)
    : (reconcileRpcBackend op snapshot actionId).touches = true
      ↔ ¬ targetIsActive op snapshot := by
  unfold reconcileRpcBackend targetIsActive
  dsimp only
  rw [if_neg (not_not.mpr unactivated)]
  split_ifs with active
  · exact iff_of_false Bool.false_ne_true (not_not.mpr active)
  · exact iff_of_true rfl active

theorem touches_search
    : (reconcileSearch op snapshot actionId availability).touches = true
      ↔ searchesOn op snapshot := by
  unfold reconcileSearch searchesOn
  dsimp only
  split
  · next disabled => exact iff_of_false Bool.false_ne_true (fun on => by simp [disabled] at on)
  next enabled =>
  split
  · next unknown => exact iff_of_false Bool.false_ne_true (fun on => on.2.1 unknown)
  next highlighted known =>
  rw [known]
  split
  · next exhausted => exact iff_of_false Bool.false_ne_true (fun on => on.2.2 exhausted)
  · next further => exact iff_of_true rfl ⟨by simpa using enabled, Option.some_ne_none _, further⟩

variable [DecimalDigits] [DigitCharacters] {decision : ModelDecision}

theorem move_phase (sound : ModelSound op)
    (decided : reconcileModelPhase op snapshot actionId = .ok decision)
    : ModelMove op snapshot decision := by
  unfold reconcileModelPhase at decided
  cases phase : op.envelope.phase <;> rw [phase] at decided
  case ensuringConfiguration => exact move_ensuring sound phase decided
  all_goals cases decided
  case created => exact move_created phase
  case awaitingConfigurationPicker => exact move_configurationPicker phase
  case awaitingConfigurationSearchStep => exact move_searchStep phase
  case awaitingConfiguration => exact move_configuration phase
  case awaitingParameterSelection => exact move_parameterSelection phase
  case awaitingConfigurationConfirmation => exact move_confirmation phase
  case reopeningPicker => exact move_reopening phase
  case awaitingActivationPicker => exact move_activationPicker phase
  case awaitingActiveReadback => exact move_activeReadback phase
  case restoringComposer => exact move_restoring phase
  case ambiguous => exact move_escalate trivial
  all_goals exact move_fail trivial

theorem modelMove (sound : ModelSound op)
    (decided : reconcileModelSelection op snapshot actionId now = .ok decision)
    : ModelMove op snapshot decision := by
  unfold reconcileModelSelection at decided
  split at decided
  · cases decided
    exact move_escalate trivial
  split at decided
  · split at decided
    · cases decided
      exact move_escalate trivial
    · cases decided
      exact move_fail trivial
  · exact move_phase sound decided

theorem phase_of_reconciles (going : reconciles op ⟨snapshot, actionId, now⟩)
    : reconcileModelSelection op snapshot actionId now
      = reconcileModelPhase op snapshot actionId := by
  have healthy : snapshot.health.requiresEscalation = false := going.1
  have live : op.expired now = false := going.2
  unfold reconcileModelSelection
  rw [if_neg (by simp [healthy]), if_neg (by simp [live])]

/-- A decision that succeeds or acts comes from a healthy reconcile in time. -/
theorem reconciles_of
    (decided : reconcileModelSelection op snapshot actionId now = .ok decision)
    (counts : decision.kind = .succeed ∨ decision.action ≠ none)
    : reconciles op ⟨snapshot, actionId, now⟩ := by
  unfold reconcileModelSelection at decided
  split at decided
  · cases decided
    rcases counts with succeeds | acts
    · cases succeeds
    · exact absurd rfl acts
  next healthy =>
  split at decided
  · split at decided <;> cases decided <;> rcases counts with succeeds | acts
    · cases succeeds
    · exact absurd rfl acts
    · cases succeeds
    · exact absurd rfl acts
  · next live => exact ⟨by simpa using healthy, by simpa using live⟩

theorem succeeds_of_readback (sound : ModelSound op) (reads : succeedsOnReadback op snapshot)
    (decided : reconcileModelPhase op snapshot actionId = .ok decision)
    : decision.kind = .succeed := by
  obtain ⟨active, alone⟩ := reads
  have active : (activeModelMatches op.request.target snapshot).value = .true := active
  unfold reconcileModelPhase at decided
  cases phase : op.envelope.phase <;> rw [phase] at decided alone
  case created =>
    cases decided
    unfold reconcileModelCreated
    dsimp only
    rw [if_pos ⟨active, alone⟩]
    rfl
  case ensuringConfiguration =>
    have rpc : rpcBackend snapshot = true := alone
    unfold reconcileEnsuring at decided
    dsimp only at decided
    rw [if_pos rpc] at decided
    cases decided
    unfold reconcileRpcBackend
    dsimp only
    rw [if_pos active]
    rfl
  case awaitingConfiguration =>
    cases decided
    have awaited := sound.awaited (by rw [phase]; rfl)
    rw [SelectModelOperation.awaitedId, SelectModelOperation.awaitedBaseline, phase] at awaited
    have fresh : ¬ isAfter snapshot op.configurationBaselineRevision = false := by
      simpa using alone
    unfold reconcileConfiguration
    dsimp only
    rw [if_neg (not_or.mpr awaited), if_neg fresh, if_pos active]
    rfl
  case reopeningPicker =>
    cases decided
    have kept : ¬ (op.configurationAcknowledged = false
        ∧ (modelConfigurationMatches op.request.target snapshot).value ≠ .true) := by
      intro lost
      rcases alone with acknowledged | configured
      · rw [acknowledged] at lost
        cases lost.1
      · exact lost.2 configured
    unfold reconcileReopening
    dsimp only
    rw [if_neg kept, if_pos active]
    rfl
  all_goals cases alone

/-- The first phase acts on the picker where it is not guarded. -/
theorem touches_ensuring (unactivated : op.activationActionId = none)
    (phase : op.envelope.phase = .ensuringConfiguration)
    (decided : reconcileEnsuring op snapshot actionId = .ok decision)
    : decision.touches = true ↔ actsUnguarded op snapshot := by
  unfold reconcileEnsuring at decided
  simp only [actsUnguarded, phase]
  dsimp only at decided
  split at decided
  · next rpc =>
      cases decided
      rw [if_pos rpc]
      exact touches_rpc unactivated
  next picker =>
  rw [if_neg picker]
  split at decided
  · next configured =>
      cases decided
      rw [if_pos configured]
      unfold reconcileConfigured targetIsActive
      dsimp only
      split_ifs with active shown
      · exact iff_of_true rfl ⟨active, shown⟩
      · exact iff_of_false Bool.false_ne_true (fun acts => shown acts.2)
      · exact iff_of_false Bool.false_ne_true (fun acts => active acts.1)
  next unconfigured =>
  rw [if_neg unconfigured]
  split at decided
  · next edits =>
      cases decided
      rw [if_pos edits]
      refine iff_of_true ?_ trivial
      unfold reconcileEditor
      dsimp only
      split_ifs <;> rfl
  next closed =>
  rw [if_neg closed]
  obtain ⟨availability, looked, decided⟩ := except_bind_ok.mp decided
  rw [looked]
  dsimp only
  split at decided
  · next excluded =>
      cases decided
      rw [if_pos excluded]
      exact touches_search
  next offered =>
  rw [if_neg offered]
  split at decided
  · next unknown =>
      cases decided
      refine iff_of_false ?_ (fun acts => by simp [unknown] at acts)
      unfold reconcileOpening
      dsimp only
      split_ifs <;> exact Bool.false_ne_true
  · next known =>
      cases decided
      have contradicted
          : (modelConfigurationMatches op.request.target snapshot).value = .false := by
        cases shown : (modelConfigurationMatches op.request.target snapshot).value with
        | true => exact absurd shown unconfigured
        | false => rfl
        | unknown => exact absurd shown known
      unfold reconcileConfiguring
      dsimp only
      split_ifs with configured
      · exact iff_of_false Bool.false_ne_true (fun acts => configured acts.2)
      · exact iff_of_true rfl ⟨contradicted, not_not.mp configured⟩

theorem touches_reopening (unactivated : op.activationActionId = none)
    (phase : op.envelope.phase = .reopeningPicker)
    : (reconcileReopening op snapshot actionId).touches = true
      ↔ actsUnguarded op snapshot := by
  simp only [actsUnguarded, phase, targetIsActive, targetIsConfigured]
  unfold reconcileReopening
  dsimp only
  split
  · next lost =>
      refine iff_of_false Bool.false_ne_true (fun acts => ?_)
      rcases acts.1 with acknowledged | configured
      · rw [acknowledged] at lost
        cases lost.1
      · exact lost.2 configured
  next kept =>
  have kept : op.configurationAcknowledged = true
      ∨ (modelConfigurationMatches op.request.target snapshot).value = .true := by
    simpa [or_iff_not_imp_left] using kept
  rw [if_neg (not_not.mpr unactivated)]
  split_ifs with active hidden
  · exact iff_of_false Bool.false_ne_true (fun acts => acts.2.1 active)
  · exact iff_of_false Bool.false_ne_true (fun acts => hidden acts.2.2)
  · exact iff_of_false Bool.false_ne_true (fun acts => hidden acts.2.2)
  · exact iff_of_false Bool.false_ne_true (fun acts => hidden acts.2.2)
  · exact iff_of_false Bool.false_ne_true (fun acts => hidden acts.2.2)
  · exact iff_of_true rfl ⟨kept, active, not_not.mp hidden⟩

/-- Without a baseline of its own a phase acts on a snapshot exactly where it is not guarded. -/
theorem touches_iff (sound : ModelSound op) (idle : op.envelope.phase.awaits = false)
    (decided : reconcileModelPhase op snapshot actionId = .ok decision)
    : decision.touches = true ↔ actsUnguarded op snapshot := by
  unfold reconcileModelPhase at decided
  cases phase : op.envelope.phase <;> rw [phase] at decided idle
  case ensuringConfiguration =>
    refine touches_ensuring (not_not.mp fun activated => ?_) phase decided
    have behind := sound.activated activated
    rw [phase] at behind
    exact behind
  case reopeningPicker =>
    cases decided
    refine touches_reopening (not_not.mp fun activated => ?_) phase
    have behind := sound.activated activated
    rw [phase] at behind
    exact behind
  case created =>
    cases decided
    refine iff_of_false ?_ (by simp [actsUnguarded, phase])
    unfold reconcileModelCreated
    dsimp only
    split <;> exact Bool.false_ne_true
  case ambiguous | succeeded | failed | escalated =>
    cases decided
    exact iff_of_false Bool.false_ne_true (by simp [actsUnguarded, phase])
  all_goals cases idle

end Decisions

----------------------------------------
-- Advanced selections
----------------------------------------

variable {payload : ModelAction}

section Advance

variable {op : SelectModelOperation} {decision : ModelDecision}
  {snapshot : ObservationSnapshot} {action : SemanticAction ModelAction} {now : Timestamp}

@[simp] theorem advanceModel_phase
    : (advanceModelSelection op decision snapshot now).envelope.phase = decision.nextPhase :=
  rfl

@[simp] theorem advanceModel_acknowledged
    : (advanceModelSelection op decision snapshot now).configurationAcknowledged
      = (op.configurationAcknowledged
        || (op.envelope.phase == .awaitingConfigurationConfirmation
          && decision.nextPhase == .reopeningPicker)) :=
  rfl

def SelectModelOperation.selections (op : SelectModelOperation) : Nat :=
  op.configurationActionId.toList.length + op.parameterActionId.toList.length
    + op.activationActionId.toList.length

theorem selections_le : op.selections ≤ 3 := by
  unfold SelectModelOperation.selections
  cases op.configurationActionId <;> cases op.parameterActionId
    <;> cases op.activationActionId <;> simp

theorem advanceModel_silent (silent : decision.action = none)
    : let after := advanceModelSelection op decision snapshot now
      after.configurationActionId = op.configurationActionId
      ∧ after.parameterActionId = op.parameterActionId
      ∧ after.activationActionId = op.activationActionId
      ∧ (decision.nextPhase = op.envelope.phase
        → after.awaitedId = op.awaitedId ∧ after.awaitedBaseline = op.awaitedBaseline) := by
  simp only [advanceModelSelection, silent, true_and]
  intro same
  simp [SelectModelOperation.awaitedId, SelectModelOperation.awaitedBaseline, same]

theorem advanceModel_awaits (emits : decision.action = some action)
    (awaits : decision.nextPhase.awaits = true)
    : (advanceModelSelection op decision snapshot now).awaitedId = some action.actionId
      ∧ (advanceModelSelection op decision snapshot now).awaitedBaseline
        = some snapshot.revision := by
  unfold SelectModelOperation.awaitedId SelectModelOperation.awaitedBaseline
  simp only [advanceModel_phase]
  unfold advanceModelSelection
  rw [emits]
  cases next : decision.nextPhase <;> rw [next] at awaits <;>
    simp [SelectModelOperation.record] <;> cases awaits

/-- No phase acts behind the activation but to restore the composer. -/
theorem Emission.unactivated {phase : ModelSelectionPhase}
    (sound : ModelSound op) (emission : Emission op payload phase)
    (selects : payload.selects = true)
    : op.activationActionId = none := by
  by_contra activated
  have behind := sound.activated activated
  cases emission with
  | configure at_ _ => rw [at_] at behind; cases behind
  | parameters at_ => rcases at_ with at_ | at_ <;> rw [at_] at behind <;> cases behind
  | activate at_ =>
    rcases at_ with at_ | at_ | at_ <;> rw [at_] at behind <;> cases behind
  | navigate | openPicker | reopenPicker | confirm | restore => cases selects

end Advance

section Moves

variable {op : SelectModelOperation} {decision : ModelDecision}
  {snapshot : ObservationSnapshot} {now : Timestamp}

theorem Emission.selections {action : SemanticAction ModelAction} (sound : ModelSound op)
    (emits : decision.action = some action)
    (emission : Emission op action.payload decision.nextPhase)
    : (advanceModelSelection op decision snapshot now).selections
      = op.selections + (if action.payload.selects then 1 else 0) := by
  have unactivated := emission.unactivated sound
  have unset : decision.nextPhase = .awaitingParameterSelection
      → op.parameterActionId = none := by
    intro next
    by_contra set_
    have behind := sound.parameters set_
    rw [next] at emission
    generalize action.payload = payload at emission
    cases emission with
    | parameters at_ =>
      rcases at_ with at_ | at_ <;>
        simp [SelectModelOperation.behindParameters, at_] at behind
  unfold SelectModelOperation.selections
  unfold advanceModelSelection
  rw [emits]
  generalize action.payload = payload at emission unactivated
  generalize decision.nextPhase = next at emission unset
  cases emission with
  | configure at_ first => simp [SelectModelOperation.record, ModelAction.selects, first]; omega
  | parameters at_ =>
    simp [SelectModelOperation.record, ModelAction.selects, unset rfl]
    omega
  | activate at_ => simp [SelectModelOperation.record, ModelAction.selects, unactivated rfl]
  | navigate | openPicker | reopenPicker | confirm | restore =>
    simp [SelectModelOperation.record, ModelAction.selects]

theorem ModelSound.silent (sound : ModelSound op) (silent : decision.action = none)
    (parameters
      : op.behindParameters
        → (advanceModelSelection op decision snapshot now).behindParameters)
    (activated : op.envelope.phase.behindActivation → decision.nextPhase.behindActivation)
    (awaited : decision.nextPhase.awaits = true → decision.nextPhase = op.envelope.phase)
    : ModelSound (advanceModelSelection op decision snapshot now) := by
  obtain ⟨-, kept, active, same⟩ :=
    @advanceModel_silent op decision snapshot now silent
  constructor
  · intro set_
    rw [kept] at set_
    exact parameters (sound.parameters set_)
  · intro set_
    rw [active] at set_
    exact activated (sound.activated set_)
  · intro awaits
    have stays := awaited awaits
    obtain ⟨id_, baseline⟩ := same stays
    rw [id_, baseline]
    exact sound.awaited (stays ▸ awaits)

/-- An action other than the parameters and the activation records neither. -/
theorem advanceModel_parameter {action : SemanticAction ModelAction}
    (emits : decision.action = some action)
    (next : decision.nextPhase ≠ .awaitingParameterSelection)
    : (advanceModelSelection op decision snapshot now).parameterActionId
      = op.parameterActionId := by
  unfold advanceModelSelection
  rw [emits]
  cases phase : decision.nextPhase <;> first | rfl | exact absurd phase next

theorem advanceModel_activation {action : SemanticAction ModelAction}
    (emits : decision.action = some action)
    (next : decision.nextPhase ≠ .awaitingActiveReadback)
    : (advanceModelSelection op decision snapshot now).activationActionId
      = op.activationActionId := by
  unfold advanceModelSelection
  rw [emits]
  cases phase : decision.nextPhase <;> first | rfl | exact absurd phase next

theorem Emission.behindParameters {phase : ModelSelectionPhase}
    (emission : Emission op payload phase) (behind : op.behindParameters)
    (next : decision.nextPhase = phase)
    : (advanceModelSelection op decision snapshot now).behindParameters := by
  unfold SelectModelOperation.behindParameters at behind ⊢
  rw [advanceModel_phase, advanceModel_acknowledged, next]
  cases emission with
  | configure at_ _ | navigate at_ =>
    rw [at_] at behind
    cases behind
  | openPicker at_ => rcases at_ with at_ | at_ <;> rw [at_] at behind <;> cases behind
  | reopenPicker at_ =>
    rw [at_] at behind
    simp [behind]
  | parameters | activate | confirm | restore => trivial

theorem Emission.behindActivation {phase : ModelSelectionPhase}
    (emission : Emission op payload phase) (behind : op.envelope.phase.behindActivation)
    : phase.behindActivation := by
  cases emission with
  | configure at_ _ | navigate at_ | reopenPicker at_ => rw [at_] at behind; cases behind
  | parameters at_ | openPicker at_ =>
    rcases at_ with at_ | at_ <;> rw [at_] at behind <;> cases behind
  | confirm at_ =>
    rcases at_ with at_ | at_ | at_ | at_ <;> rw [at_] at behind <;> cases behind
  | activate | restore => trivial

theorem ModelSound.act {action : SemanticAction ModelAction} (sound : ModelSound op)
    (emits : decision.action = some action)
    (emission : Emission op action.payload decision.nextPhase)
    : ModelSound (advanceModelSelection op decision snapshot now) := by
  constructor
  · intro set_
    by_cases next : decision.nextPhase = .awaitingParameterSelection
    · simp [SelectModelOperation.behindParameters, next]
    · rw [advanceModel_parameter emits next] at set_
      exact emission.behindParameters (sound.parameters set_) rfl
  · intro set_
    by_cases next : decision.nextPhase = .awaitingActiveReadback
    · simp [ModelSelectionPhase.behindActivation, next]
    · rw [advanceModel_activation emits next] at set_
      exact emission.behindActivation (sound.activated set_)
  · intro awaits
    have recorded := @advanceModel_awaits op decision snapshot action now emits awaits
    rw [recorded.1, recorded.2]
    exact ⟨nofun, nofun⟩

theorem ModelSound.advance [CaseMapping] (sound : ModelSound op)
    (move : ModelMove op snapshot decision)
    : ModelSound (advanceModelSelection op decision snapshot now) := by
  cases move with
  | settle silent ends _ =>
    apply sound.silent silent
    · exact fun _ => ends.behindParameters rfl
    · exact fun _ => ends.behindActivation
    · exact fun awaits => absurd awaits ends.awaits
  | look silent next _ looks =>
    apply sound.silent silent
    · intro behind
      unfold SelectModelOperation.behindParameters at behind
      rcases looks with at_ | at_ | at_ | at_ | ⟨at_, unacknowledged⟩ <;>
        rw [at_] at behind
      case inr.inr.inr.inr =>
        rw [unacknowledged] at behind
        cases behind
      all_goals cases behind
    · intro behind
      rcases looks with at_ | at_ | at_ | at_ | ⟨at_, -⟩ <;> rw [at_] at behind <;>
        cases behind
    · simp [next, ModelSelectionPhase.awaits]
  | wait silent next _ awaits =>
    apply sound.silent silent
    · unfold SelectModelOperation.behindParameters
      rw [advanceModel_phase, advanceModel_acknowledged, next]
      cases op.envelope.phase <;> simp
    · exact fun behind => next ▸ behind
    · exact fun _ => next
  | reopen silent next _ reopens =>
    apply sound.silent silent
    · unfold SelectModelOperation.behindParameters
      rw [advanceModel_phase, advanceModel_acknowledged, next]
      rcases reopens with at_ | at_ | at_ | at_ | at_ <;> simp [at_]
    · intro behind
      rcases reopens with at_ | at_ | at_ | at_ | at_ <;> rw [at_] at behind <;>
        cases behind
    · simp [next, ModelSelectionPhase.awaits]
  | act action emits _ emission _ => exact sound.act emits emission

end Moves

----------------------------------------
-- Histories
----------------------------------------

section Baselines

variable {entries : List ModelEntry} {entry : ModelEntry}

theorem lastBaseline_act (emits : entry.decision.action.isSome = true)
    : lastBaseline (entries ++ [entry]) = some entry.event.snapshot.revision := by
  simp [lastBaseline, List.filter_append, emits]

theorem lastBaseline_silent (silent : entry.decision.action = none)
    : lastBaseline (entries ++ [entry]) = lastBaseline entries := by
  simp [lastBaseline, List.filter_append, silent]

end Baselines

section Histories

variable [CaseMapping] {history next : ModelHistory} {event : Reconciliation}

/-- What holds of a selection and its steps between two reconciles: the phase awaits the last
action.
-/
structure ReadbackSound (history : ModelHistory) : Prop where
  sound : ModelSound history.state
  counted : history.entries.countP selectsModel = history.state.selections
  awaited
    : history.state.envelope.phase.awaits = true
      → history.state.awaitedBaseline = lastBaseline history.entries

theorem readbackSound_of_created (created : Started ModelCreated history)
    : ReadsBack history ∧ ReadbackSound history := by
  obtain ⟨⟨envelope, request, phase, fresh⟩, none_⟩ := created
  refine ⟨⟨?_, ?_, ?_, ?_⟩, ⟨⟨?_, ?_, ?_⟩, ?_, ?_⟩⟩ <;>
    simp [none_, fresh, phase, SelectModelOperation.selections, ModelSelectionPhase.awaits]

variable {decision : ModelDecision}

theorem ReadbackSound.move (sound : ReadbackSound history)
    (move : ModelMove history.state event.snapshot decision)
    : ReadbackSound {
        state := advanceModelSelection history.state decision event.snapshot event.now
        entries := history.entries ++ [⟨history.state, event, decision⟩] } := by
  refine ⟨sound.sound.advance move, ?_, ?_⟩
  · dsimp only
    rw [List.countP_append, List.countP_singleton, sound.counted]
    cases move with
    | act action emits _ emission _ =>
      rw [emission.selections sound.sound emits]
      simp [selectsModel, emits]
    | settle silent | look silent | wait silent | reopen silent =>
      have kept := @advanceModel_silent history.state decision event.snapshot event.now silent
      simp [selectsModel, silent, SelectModelOperation.selections, kept.1, kept.2.1,
        kept.2.2.1]
  · dsimp only
    intro awaits
    rw [advanceModel_phase] at awaits
    cases move with
    | act action emits _ emission _ =>
      rw [(advanceModel_awaits emits awaits).2, lastBaseline_act (by simp [emits])]
    | wait silent same _ waits =>
      rw [((advanceModel_silent silent).2.2.2 same).2, lastBaseline_silent silent]
      exact sound.awaited waits
    | settle silent ends _ =>
      exact absurd awaits ends.awaits
    | look silent next _ _ =>
      rw [next] at awaits
      cases awaits
    | reopen silent next _ _ =>
      rw [next] at awaits
      cases awaits

/-- Every step records what it awaits. -/
theorem recorded_of_move {op : SelectModelOperation}
    (move : ModelMove op event.snapshot decision)
    : Recorded ⟨op, event, decision⟩ := by
  unfold Recorded
  dsimp only
  intro awaits
  cases move with
  | act action emits _ emission _ =>
    rw [emits]
    exact advanceModel_awaits emits awaits
  | wait silent next _ _ =>
    rw [silent]
    exact next.symm
  | settle _ ends _ =>
    exact absurd awaits ends.awaits
  | look _ next _ _ | reopen _ next _ _ =>
    rw [next] at awaits
    cases awaits

variable [DecimalDigits] [DigitCharacters]

theorem ModelStep.decided (step : ModelStep history event next)
    : ∃ decision, reconcileModelSelection history.state event.snapshot event.actionId event.now
          = .ok decision
      ∧ next.state = advanceModelSelection history.state decision event.snapshot event.now
      ∧ next.entries = history.entries ++ [⟨history.state, event, decision⟩] := by
  obtain ⟨decision, decided, -, moved, grown, -⟩ := step.entry
  exact ⟨decision, ok_of_toOption decided, moved, grown⟩

theorem ReadbackSound.step (sound : ReadbackSound history) (step : ModelStep history event next)
    : ReadbackSound next := by
  obtain ⟨decision, decided, moved, grown⟩ := ModelStep.decided step
  obtain ⟨op, entries⟩ := next
  subst moved grown
  exact sound.move (modelMove sound.sound decided)

/-- A step reports what it reads back exactly where the picker is closed or decides with it. -/
theorem ReadbackSound.succeeds_iff (sound : ReadbackSound history)
    (decided
      : reconcileModelSelection history.state event.snapshot event.actionId event.now
        = .ok decision)
    : (decision.kind = .succeed
        → targetIsActive history.state event.snapshot
          ∧ modelPickerIsActive event.snapshot = false)
      ↔ (reconciles history.state event → succeedsOnReadback history.state event.snapshot
          → modelPickerIsActive event.snapshot = false) := by
  constructor
  · intro honest going reads
    rw [phase_of_reconciles going] at decided
    exact (honest (succeeds_of_readback sound.sound reads decided)).2
  · intro closed succeeds
    cases modelMove sound.sound decided with
    | settle _ _ honest =>
      obtain ⟨active, reads⟩ := honest succeeds
      refine ⟨active, Bool.eq_false_iff.mpr (fun picker => ?_)⟩
      have shut := closed (reconciles_of decided (.inl succeeds)) (reads picker)
      rw [shut] at picker
      cases picker
    | look _ _ unsettled _ | wait _ _ unsettled _ | reopen _ _ unsettled _
    | act _ _ unsettled _ _ => exact absurd succeeds unsettled

/-- A step acts on fresh evidence exactly where its phase has a baseline or the snapshot is
newer than the last action.
-/
theorem ReadbackSound.fresh_iff (sound : ReadbackSound history)
    (decided
      : reconcileModelSelection history.state event.snapshot event.actionId event.now
        = .ok decision)
    : (decision.touches = true
        → ∀ baseline, lastBaseline history.entries = some baseline
          → baseline < event.snapshot.revision)
      ↔ (reconciles history.state event → actsUnguarded history.state event.snapshot
          → ∀ baseline, lastBaseline history.entries = some baseline
            → baseline < event.snapshot.revision) := by
  constructor
  · intro fresh going acts
    rw [phase_of_reconciles going] at decided
    have idle : history.state.envelope.phase.awaits = false := by
      cases phase : history.state.envelope.phase <;> simp [actsUnguarded, phase] at acts <;> rfl
    exact fresh ((touches_iff sound.sound idle decided).mpr acts)
  · intro fresh touches
    have acts : decision.action ≠ none := by
      intro silent
      simp [ControllerDecision.touches, silent] at touches
    have going := reconciles_of decided (.inr acts)
    by_cases awaits : history.state.envelope.phase.awaits = true
    · intro baseline last
      cases modelMove sound.sound decided with
      | act _ _ _ _ guarded =>
        have after := guarded awaits
        rw [sound.awaited awaits, last] at after
        simpa [isAfter] using after
      | settle silent _ _ | look silent _ _ _ | wait silent _ _ _ | reopen silent _ _ _ =>
        exact absurd silent acts
    · rw [phase_of_reconciles going] at decided
      exact fresh going ((touches_iff sound.sound (by simpa using awaits) decided).mp touches)

theorem ReadsBack.step_iff (sound : ReadbackSound history) (reads : ReadsBack history)
    (step : ModelStep history event next)
    : ReadsBack next ↔ CarefulReconcile history event := by
  have kept := sound.step step
  obtain ⟨decision, decided, moved, grown⟩ := ModelStep.decided step
  obtain ⟨op, entries⟩ := next
  subst moved grown
  have member : (⟨history.state, event, decision⟩ : ModelEntry)
      ∈ history.entries ++ [⟨history.state, event, decision⟩] :=
    List.mem_append_right _ (List.mem_singleton_self _)
  constructor
  · intro after
    refine ⟨(sound.succeeds_iff decided).mp (after.succeeds _ member),
      (sound.fresh_iff decided).mp (after.fresh history.entries _ [] rfl)⟩
  · intro careful
    refine ⟨(forall_concat reads.succeeds).mpr ((sound.succeeds_iff decided).mpr careful.closed),
      ?_, ?_, (forall_concat reads.recorded).mpr
        (recorded_of_move (modelMove sound.sound decided))⟩
    · intro earlier entry later parts
      rcases concat_eq_append_cons.mp parts with ⟨rfl, rfl, rfl⟩ | ⟨rest, rfl, split⟩
      · exact (sound.fresh_iff decided).mpr careful.fresh
      · exact reads.fresh earlier entry rest split
    · rw [kept.counted]
      exact selections_le

/-- A selection reports only what it reads back exactly when each of its reconciles finds the
picker closed where the active model alone decides, and a snapshot newer than the last action
where a phase acts without a baseline.
-/
theorem readsBack_iff {events : List Reconciliation}
    (run : Run (Started ModelCreated) ModelStep events history)
    : ReadsBack history
      ↔ Run (Started ModelCreated) (fun history event next =>
          ModelStep history event next ∧ CarefulReconcile history event) events history := by
  apply run.careful_iff (fun _ created => readbackSound_of_created created)
  · intro history event next step reads
    obtain ⟨decision, -, moved, grown⟩ := ModelStep.decided step
    obtain ⟨op, entries⟩ := next
    subst moved grown
    refine ⟨fun entry member => reads.succeeds entry (List.mem_append_left _ member), ?_, ?_,
      fun entry member => reads.recorded entry (List.mem_append_left _ member)⟩
    · intro earlier entry later split
      apply reads.fresh earlier entry (later ++ [⟨history.state, event, decision⟩])
      simp [split]
    · exact le_trans (List.Sublist.countP_le (List.sublist_append_left _ _)) reads.bounded
  · exact fun _ _ _ sound step => sound.step step
  · exact fun _ _ _ sound reads step => reads.step_iff sound step

end Histories

namespace OpenPicker

open LateCompletion (caseMapping digits digitCharacters)

/-- The target is configured and active, below the given surface. -/
def shows (primary : SurfaceKind) : ObservationSnapshot where
  revision := ⟨0, 1, 0⟩
  surface := .present { blocksComposerInput := true, primary }
  composer := .unknown
  transcriptTail := .unknown
  health := {}
  activeModel := .present ⟨"opus", none, none⟩
  modelConfiguration := .present ⟨[], none, some "opus", some false, []⟩

def start : ModelHistory where
  state := {
    envelope := LateCompletion.envelope ModelSelectionPhase .created
    request := ⟨{ modelId := "opus" }, 100⟩ }

theorem started : Started ModelCreated start := ⟨⟨_, _, rfl, rfl⟩, rfl⟩

abbrev OpusStep := @ModelStep caseMapping digits digitCharacters

def reconciled (snapshot : ObservationSnapshot) : ModelHistory :=
  let decision := @reconcileModelCreated caseMapping start.state snapshot
  { state := advanceModelSelection start.state decision snapshot 1
    entries := [⟨start.state, ⟨snapshot, "a", 1⟩, decision⟩] }

theorem opusStep (primary : SurfaceKind)
    : OpusStep start ⟨shows primary, "a", 1⟩ (reconciled (shows primary)) :=
  .step rfl trivial rfl

/-- An active target behind a closed picker is reported as it is read back. -/
theorem readsBack_composer : @ReadsBack caseMapping (reconciled (shows .composer)) := by
  have step := opusStep .composer
  refine (@readsBack_iff caseMapping (reconciled (shows .composer)) digits digitCharacters
    [_] ⟨_, started, .cons step (.nil _)⟩).mpr ⟨_, started, .cons ⟨step, ?_⟩ (.nil _)⟩
  exact @CarefulReconcile.mk caseMapping digits digitCharacters _ _ (fun _ _ => rfl)
    (fun _ acts => acts.elim)

/-- The picker is open when the selection of the active model begins. -/
theorem not_readsBack
    : ∃ events history, Run (Started ModelCreated) OpusStep events history
        ∧ ¬ @ReadsBack caseMapping history := by
  refine ⟨[_], _, ⟨_, started, .cons (opusStep .modelPicker) (.nil _)⟩, fun reads => ?_⟩
  have closed :=
    (@ReadsBack.succeeds caseMapping _ reads _ (List.mem_singleton_self _) (by decide)).2
  revert closed
  decide

end OpenPicker

end Murder.Harness

import Mathlib.Data.Finset.Basic
import Murder.Contracts.Common

/-! What a harness shows: knowledge states, revisions, and the parts of a snapshot that
decide prompt submissions, permission and question answers and model selections.
-/

namespace Murder.Harness

inductive Knowledge
  | present
  | absent
  | unknown
  | unsupported
  | contradicted
  | stale
deriving DecidableEq

def Knowledge.name : Knowledge → String
  | .present => "present"
  | .absent => "absent"
  | .unknown => "unknown"
  | .unsupported => "unsupported"
  | .contradicted => "contradicted"
  | .stale => "stale"

/-- An observation; only a present one carries a value. -/
structure Observed (α : Type) where
  knowledge : Knowledge
  value : Option α
  carries : knowledge = .present ↔ value.isSome = true
deriving DecidableEq

def Observed.present {α : Type} (value : α) : Observed α := ⟨.present, some value, by simp⟩

def Observed.unknown {α : Type} : Observed α := ⟨.unknown, none, by simp⟩

structure ObservationRevision where
  paneEpoch : Nat
  captureSequence : Nat
  semanticSequence : Nat
deriving DecidableEq

/-- Revisions are ordered field by field. -/
instance : LT ObservationRevision where
  lt a b :=
    a.paneEpoch < b.paneEpoch
    ∨ a.paneEpoch = b.paneEpoch
      ∧ (a.captureSequence < b.captureSequence
        ∨ a.captureSequence = b.captureSequence ∧ a.semanticSequence < b.semanticSequence)

instance (a b : ObservationRevision) : Decidable (a < b) :=
  inferInstanceAs (Decidable (_ ∨ _))

inductive ComposerActionability
  | actionable
  | visibleNotActionable
  | hidden
  | disabled
  | unknown
deriving DecidableEq

inductive SurfaceKind
  | composer
  | transcript
  | modelPicker
  | usagePanel
  | statusPanel
  | permissionDialog
  | questionPicker
  | resumePicker
  | contextPanel
  | trustDialog
  | loginDialog
  | shell
  | unknownOverlay
deriving DecidableEq

structure SurfaceState where
  blocksComposerInput : Bool
  primary : SurfaceKind := .composer
deriving DecidableEq

structure ComposerState where
  text : Option String
  normalizedText : Option String
  contentFingerprint : Option String
  actionability : ComposerActionability
  acceptsSubmission : Option Bool
deriving DecidableEq

structure TurnRef where
  stableId : String
  role : String
deriving DecidableEq

structure TranscriptTailState where
  lastUserTurn : Option TurnRef
  lastAssistantTurn : Option TurnRef
  visibleUserFingerprints : List String
  assistantStreaming : Option Bool
  assistantCompleted : Option Bool
  transcriptRevision : Int
deriving DecidableEq

structure ChoiceState where
  stableChoiceId : Option String
  label : String
  highlighted : Option Bool
  disabled : Option Bool
deriving DecidableEq

structure PermissionRequestState where
  requestIdHint : Option String
  toolName : Option String
  command : Option String
  description : Option String
  choices : List ChoiceState
  riskAttributes : Finset String
  acknowledgedResponseId : Option String
deriving DecidableEq

structure QuestionState where
  questionIdHint : Option String
  promptText : Option String
  choices : List ChoiceState
  selectionMode : Option String
  visibleTabs : List String
  allowCustomAnswer : Option Bool
  declineLabel : Option String
  answeredSummary : List String
deriving DecidableEq

structure ModelState where
  modelId : String
  effort : Option String
  provider : Option String
deriving DecidableEq

/-- The value of a configuration parameter. -/
inductive ParameterValue
  | text (value : String)
  | flag (value : Bool)
deriving DecidableEq

structure ModelConfigurationState where
  available : List ChoiceState
  highlightedModelId : Option String
  configuredModelId : Option String
  pendingChanges : Option Bool
  parameters : List (String × Option ParameterValue)
deriving DecidableEq

structure ObservationHealth where
  requiresEscalation : Bool := false
deriving DecidableEq

structure ObservationSnapshot where
  revision : ObservationRevision
  surface : Observed SurfaceState
  composer : Observed ComposerState
  transcriptTail : Observed TranscriptTailState
  health : ObservationHealth
  question : Observed QuestionState := .unknown
  permissionRequest : Observed PermissionRequestState := .unknown
  activeModel : Observed ModelState := .unknown
  modelConfiguration : Observed ModelConfigurationState := .unknown
deriving DecidableEq

inductive TruthValue
  | true
  | false
  | unknown
deriving DecidableEq

def TruthValue.ofBool (value : Bool) : TruthValue := if value then .true else .false

structure PredicateResult where
  value : TruthValue
  predicateId : String
  observationRevision : ObservationRevision
  explanation : String
deriving DecidableEq

end Murder.Harness

import Murder.Contracts.Identifiers
import Murder.Harness.Observations

/-! Semantic actions, operation envelopes and the decisions of a controller; dialogs of choices. -/

namespace Murder.Harness

open Contracts

abbrev ActionId := String
abbrev OperationId := String

inductive DuplicatePolicy
  | replaySafe
  | replaySafeWhilePreconditionHolds
  | safeBeforeCommit
  | ambiguousAfterEmission
  | neverAutomaticallyReplay
deriving DecidableEq

inductive InputProvenance
  | murderContextBlock
  | userPasteBlock
  | userTyped
deriving DecidableEq

structure InputChunk where
  text : String
  provenance : InputProvenance
  stableChunkId : String
deriving DecidableEq

/-- A semantic action with what it carries beside its identity. -/
structure SemanticAction (Payload : Type) where
  actionId : ActionId
  operationId : OperationId
  duplicatePolicy : DuplicatePolicy
  payload : Payload
deriving DecidableEq

inductive OperationStatus
  | pending
  | running
  | succeeded
  | failed
  | escalated
  | cancelled
deriving DecidableEq

structure OperationEnvelope (Phase : Type) where
  operationId : OperationId
  status : OperationStatus
  phase : Phase
  updatedAt : Timestamp
  deadline : Option Timestamp
  lastObservationRevision : Option ObservationRevision := none
  actionHistory : List ActionId := []
deriving DecidableEq

inductive ControllerDecisionKind
  | observeMore
  | emitAction
  | succeed
  | fail
  | escalate
deriving DecidableEq

/-- A decision; an emission carries an action and nothing else does. -/
structure ControllerDecision (Phase Payload : Type) where
  kind : ControllerDecisionKind
  nextPhase : Phase
  action : Option (SemanticAction Payload)
  reason : String
  predicates : List PredicateResult := []
  carries : kind = .emitAction ↔ action.isSome = true

namespace ControllerDecision

variable {Phase Payload : Type}

def observe (nextPhase : Phase) (reason : String) (predicates : List PredicateResult := [])
    : ControllerDecision Phase Payload :=
  ⟨.observeMore, nextPhase, none, reason, predicates, by simp⟩

def emit (nextPhase : Phase) (action : SemanticAction Payload) (reason : String)
    (predicates : List PredicateResult := [])
    : ControllerDecision Phase Payload :=
  ⟨.emitAction, nextPhase, some action, reason, predicates, by simp⟩

def succeed (nextPhase : Phase) (reason : String) (predicates : List PredicateResult := [])
    : ControllerDecision Phase Payload :=
  ⟨.succeed, nextPhase, none, reason, predicates, by simp⟩

def fail (nextPhase : Phase) (reason : String) : ControllerDecision Phase Payload :=
  ⟨.fail, nextPhase, none, reason, [], by simp⟩

def escalate (nextPhase : Phase) (reason : String) (predicates : List PredicateResult := [])
    : ControllerDecision Phase Payload :=
  ⟨.escalate, nextPhase, none, reason, predicates, by simp⟩

end ControllerDecision

def statusAfter (status : OperationStatus) : ControllerDecisionKind → OperationStatus
  | .succeed => .succeeded
  | .fail => .failed
  | .escalate => .escalated
  | _ => if status = .pending then .running else status

/-- `hashlib.sha256(text.encode("utf-8")).hexdigest()`. -/
class Sha256 where
  hexdigest : String → String

/-- `uuid.NAMESPACE_URL`. -/
def namespaceUrl : Uuid := 0x6ba7b8119dad11d180b400c04fd430c8

def given (text : Option String) : Option String := text.filter (· ≠ "")

/-- How the lookup of a choice ends. -/
inductive ChoiceMatch
  | found (choice : ChoiceState)
  | missing
  | ambiguous
deriving DecidableEq

/-- `_find_choice`: by the stable identifier where the target has one, else by a label that
one choice has.
-/
def findChoice (choices : List ChoiceState) (stableId : Option String) (label : String)
    : ChoiceMatch :=
  match given stableId with
  | some id =>
    match choices.find? (fun choice => choice.stableChoiceId == some id) with
    | some choice => .found choice
    | none => .missing
  | none =>
    match choices.filter (fun choice => choice.label == label) with
    | [] => .missing
    | [choice] => .found choice
    | _ => .ambiguous

def fingerprintChoices (choices : List ChoiceState) : String :=
  String.intercalate "\x1e" (choices.map (fun choice =>
    choice.stableChoiceId.getD "" ++ "\x1f" ++ strip choice.label))

/-- `snapshot.revision <= baseline` fails and both the action and its baseline are recorded.
-/
def freshSince (actionId : Option ActionId) (baseline : Option ObservationRevision)
    (revision : ObservationRevision) : Bool :=
  actionId.isSome && baseline.any (fun before => decide (before < revision))

end Murder.Harness

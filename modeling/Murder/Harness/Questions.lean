import Murder.Harness.Operations

/-! The reducer of question answers: it binds a chosen answer to the question observed and
waits for evidence that the harness took it.
-/

namespace Murder.Harness

open Contracts

/-- `str.lower` and `str.casefold`. -/
class CaseMapping where
  lower : String → String
  casefold : String → String

/-- `needle in text`. -/
def occursIn (needle text : String) : Bool := decide (needle.toList <:+: text.toList)

inductive AnswerQuestionPhase
  | created
  | awaitingQuestion
  | readyToAnswer
  | answerEmitted
  | awaitingAcknowledgment
  | answered
  | ambiguous
  | failed
  | escalated
deriving DecidableEq

def AnswerQuestionPhase.name : AnswerQuestionPhase → String
  | .created => "CREATED"
  | .awaitingQuestion => "AWAITING_QUESTION"
  | .readyToAnswer => "READY_TO_ANSWER"
  | .answerEmitted => "ANSWER_EMITTED"
  | .awaitingAcknowledgment => "AWAITING_ACKNOWLEDGMENT"
  | .answered => "ANSWERED"
  | .ambiguous => "AMBIGUOUS"
  | .failed => "FAILED"
  | .escalated => "ESCALATED"

inductive QuestionAnswerMode
  | single
  | multiple
  | custom
  | decline
deriving DecidableEq

/-- A menu choice, by its identifier or its label. -/
structure QuestionChoiceSelection where
  stableChoiceId : Option String
  label : String
  named : (given stableChoiceId).isSome = true ∨ strip label ≠ ""
deriving DecidableEq

def QuestionAnswerMode.Admits (mode : QuestionAnswerMode)
    (selections : List QuestionChoiceSelection) (customAnswer note : Option String) : Prop :=
  match mode with
  | .single => selections.length = 1 ∧ customAnswer = none
  | .multiple => selections ≠ [] ∧ customAnswer = none
  | .custom => selections = [] ∧ note = none ∧ strip (customAnswer.getD "") ≠ ""
  | .decline => selections = [] ∧ customAnswer = none ∧ note = none

/-- An answer bound to an observed question. -/
structure QuestionAnswerRequest where
  questionIdHint : Option String
  questionFingerprint : Option String
  mode : QuestionAnswerMode
  selections : List QuestionChoiceSelection := []
  customAnswer : Option String := none
  note : Option String := none
  bound : (given questionIdHint).isSome = true ∨ (given questionFingerprint).isSome = true
  admitted : mode.Admits selections customAnswer note
  noted : ∀ text, note = some text → strip text ≠ ""

theorem hinted_bound : (given (some "q")).isSome = true ∨ (given none).isSome = true := by
  decide

theorem none_noted : ∀ text : String, none = some text → strip text ≠ "" := nofun

structure AnswerQuestionOperation where
  envelope : OperationEnvelope AnswerQuestionPhase
  request : QuestionAnswerRequest
  answerActionId : Option ActionId := none
  baselineRevision : Option ObservationRevision := none
  ambiguityReason : Option String := none

/-- `AnswerQuestion`, what the answer carries. -/
structure AnswerQuestion where
  questionIdHint : Option String
  mode : QuestionAnswerMode
  selections : List QuestionChoiceSelection
  customAnswer : Option String
  note : Option String
deriving DecidableEq

abbrev QuestionDecision := ControllerDecision AnswerQuestionPhase AnswerQuestion

section Predicates

variable [Sha256]

def questionFingerprint (question : QuestionState) : String :=
  Sha256.hexdigest
    (strip (question.promptText.getD "") ++ "\x1d" ++ fingerprintChoices question.choices)

def questionMatches (request : QuestionAnswerRequest) (snapshot : ObservationSnapshot)
    : PredicateResult :=
  let result (value : TruthValue) (reason : String) : PredicateResult :=
    ⟨value, "question_matches", snapshot.revision, reason⟩
  match snapshot.question.value with
  | none => result .unknown ("question is " ++ snapshot.question.knowledge.name)
  | some question =>
    if request.note ≠ none ∧ question.visibleTabs.contains "notes" = false then
      ⟨.false, "question_answer_available", snapshot.revision,
        "question does not expose a notes affordance"⟩
    else if (given request.questionIdHint).isSome ∧ question.questionIdHint = none then
      result .unknown "observed question has no stable id"
    else
      result
        (.ofBool
          ((given request.questionIdHint).all (fun hint => question.questionIdHint == some hint)
            && (given request.questionFingerprint).all (questionFingerprint question == ·)))
        "question identity compared with the recorded decision"

def selectionsAvailable [PyRepr] (choices : List ChoiceState)
    : List QuestionChoiceSelection → TruthValue × String
  | [] => (.true, "all requested choices are available")
  | target :: rest =>
    let label := PyRepr.repr (.str target.label)
    match findChoice choices target.stableChoiceId target.label with
    | .ambiguous => (.unknown, "choice label " ++ label ++ " is ambiguous")
    | .missing => (.false, "requested choice " ++ label ++ " is unavailable")
    | .found choice =>
      match choice.disabled with
      | none => (.unknown, "disabled state is unknown for " ++ label)
      | some true => (.false, "requested choice " ++ label ++ " is disabled")
      | some false => selectionsAvailable choices rest

/-- `mode.strip().lower().replace("-", "_")` -/
def normalizedMode [CaseMapping] (mode : String) : String :=
  String.ofList ((CaseMapping.lower (strip mode)).toList.map
    (fun c => if c = '-' then '_' else c))

def answerIsAvailable [PyRepr] [CaseMapping] (request : QuestionAnswerRequest)
    (snapshot : ObservationSnapshot)
    : PredicateResult :=
  let result (value : TruthValue) (reason : String) : PredicateResult :=
    ⟨value, "question_answer_available", snapshot.revision, reason⟩
  match snapshot.question.value with
  | none => result .unknown "question choices are not currently known"
  | some question =>
    match request.mode with
    | .custom =>
      match question.allowCustomAnswer with
      | none => result .unknown "custom-answer affordance is unknown"
      | some allowed => result (.ofBool allowed) "custom-answer affordance evaluated"
    | .decline =>
      result (.ofBool (given question.declineLabel).isSome) "decline control evaluated"
    | mode =>
      let shown := normalizedMode (question.selectionMode.getD "")
      let multi := ["multi", "multiple", "multi_select", "multiselect"].contains shown
      if shown = "" then
        result .unknown "selection mode is unknown"
      else if mode = .single ∧ multi then
        result .false "recorded single-select answer does not match a multi-select surface"
      else if mode = .multiple ∧ multi = false then
        result .false "recorded multi-select answer does not match this surface"
      else
        let (value, reason) := selectionsAvailable question.choices request.selections
        result value reason

def QuestionAnswerRequest.expectedTexts [CaseMapping] (request : QuestionAnswerRequest)
    : List String :=
  request.selections.map (fun target => CaseMapping.casefold target.label)
    ++ ((given request.customAnswer).map CaseMapping.casefold).toList
    ++ ((given request.note).map CaseMapping.casefold).toList

def questionAnswerAcknowledged [CaseMapping] (op : AnswerQuestionOperation)
    (snapshot : ObservationSnapshot)
    : PredicateResult :=
  let result (value : TruthValue) (reason : String) : PredicateResult :=
    ⟨value, "question_answer_acknowledged", snapshot.revision, reason⟩
  if freshSince op.answerActionId op.baselineRevision snapshot.revision = false then
    result .unknown "no fresh observation after answer emission"
  else
    match snapshot.question.value with
    | none =>
      result .unknown
        (if snapshot.question.knowledge = .absent then
          "question surface disappeared without a correlated answered summary"
        else
          "question is " ++ snapshot.question.knowledge.name)
    | some question =>
      if (questionMatches op.request snapshot).value ≠ .true then
        result .unknown "current question cannot be safely correlated"
      else
        let summary := CaseMapping.casefold (String.intercalate "\n" question.answeredSummary)
        let expected := op.request.expectedTexts
        if op.request.mode = .decline
            ∧ ["declined", "canceled", "interrupted"].any (occursIn · summary) then
          result .true "question decline is explicitly acknowledged"
        else if expected ≠ [] ∧ summary ≠ "" ∧ expected.all (occursIn · summary) then
          result .true "answered summary contains the requested answer"
        else
          result .false "same question remains without a matching answered summary"

end Predicates

def AnswerQuestionOperation.expired (op : AnswerQuestionOperation) (now : Timestamp) : Bool :=
  op.envelope.deadline.any (· ≤ now)

def answerAction (op : AnswerQuestionOperation) : SemanticAction AnswerQuestion where
  actionId := (uuid5 namespaceUrl (op.envelope.operationId ++ ":answer-question")).str
  operationId := op.envelope.operationId
  duplicatePolicy := .neverAutomaticallyReplay
  payload := {
    questionIdHint := op.request.questionIdHint
    mode := op.request.mode
    selections := op.request.selections
    customAnswer := op.request.customAnswer
    note := op.request.note }

section Reconcile

variable [Sha256] [PyRepr] [CaseMapping] (op : AnswerQuestionOperation)
  (snapshot : ObservationSnapshot)

def reconcileAwaitingQuestion : QuestionDecision :=
  let identity := questionMatches op.request snapshot
  match identity.value with
  | .true => .observe .readyToAnswer "target question is visible" [identity]
  | .false => .escalate .escalated "a different question is visible" [identity]
  | .unknown => .observe .awaitingQuestion "await target question evidence" [identity]

def reconcileReadyToAnswer : QuestionDecision :=
  let identity := questionMatches op.request snapshot
  let availability := answerIsAvailable op.request snapshot
  let predicates := [identity, availability]
  if identity.value = .false ∨ availability.value = .false then
    .escalate .escalated "target question or requested answer changed" predicates
  else if identity.value ≠ .true ∨ availability.value ≠ .true then
    .observe .readyToAnswer "answer preconditions remain uncertain" predicates
  else if op.answerActionId ≠ none then
    .escalate .ambiguous "an answer action already exists" predicates
  else
    .emit .answerEmitted (answerAction op) "answer verified question" predicates

def reconcileAnswer : QuestionDecision :=
  let acknowledged := questionAnswerAcknowledged op snapshot
  match acknowledged.value with
  | .true => .succeed .answered "question answer acknowledged" [acknowledged]
  | .false =>
    .escalate .ambiguous "answer emission lacks compatible acknowledgment" [acknowledged]
  | .unknown =>
    .observe .awaitingAcknowledgment "await fresh question-answer acknowledgment"
      [acknowledged]

def reconcileQuestionPhase : QuestionDecision :=
  match op.envelope.phase with
  | .created => .observe .awaitingQuestion "begin verified question answer"
  | .awaitingQuestion => reconcileAwaitingQuestion op snapshot
  | .readyToAnswer => reconcileReadyToAnswer op snapshot
  | .answerEmitted => reconcileAnswer op snapshot
  | .awaitingAcknowledgment => reconcileAnswer op snapshot
  | .ambiguous =>
    .escalate .escalated ((given op.ambiguityReason).getD "ambiguous question answer")
  | phase => .fail .failed ("invalid question-answer phase " ++ phase.name)

def reconcileAnswerQuestion (now : Timestamp) : QuestionDecision :=
  if op.expired now then
    if op.envelope.phase = .answerEmitted ∨ op.envelope.phase = .awaitingAcknowledgment then
      .escalate .ambiguous
        "question answer was emitted without verified acknowledgment before deadline"
    else
      .fail .failed "question answer deadline exceeded before emission"
  else if snapshot.health.requiresEscalation then
    .escalate .escalated "observation health requires escalation"
  else
    reconcileQuestionPhase op snapshot

end Reconcile

def advanceAnswerQuestion (op : AnswerQuestionOperation) (decision : QuestionDecision)
    (snapshot : ObservationSnapshot) (now : Timestamp)
    : AnswerQuestionOperation :=
  { op with
    envelope := { op.envelope with
      phase := decision.nextPhase
      status := statusAfter op.envelope.status decision.kind
      updatedAt := now
      lastObservationRevision := some snapshot.revision
      actionHistory := op.envelope.actionHistory ++ (decision.action.map (·.actionId)).toList }
    answerActionId :=
      match decision.action with
      | some action => some action.actionId
      | none => op.answerActionId
    baselineRevision :=
      if decision.action.isSome then some snapshot.revision else op.baselineRevision
    ambiguityReason :=
      if decision.kind = .escalate then some decision.reason else op.ambiguityReason }

end Murder.Harness

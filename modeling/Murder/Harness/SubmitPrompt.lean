import Murder.Contracts.Text
import Murder.Harness.Operations

/-! The prompt-submission reducer: its predicates, its decisions and the durable state they
leave.
-/

namespace Murder.Harness

open Contracts

/-- `ValueError`: `int` refuses more than 4300 digits. -/
inductive SubmitError
  | valueError
deriving DecidableEq

/-- `PASTE_VERIFICATION_TAIL_LENGTH`. -/
def pasteVerificationTailLength : Nat := 64

inductive SubmitPhase
  | created
  | establishingSafeSurface
  | clearingComposer
  | insertingPayload
  | verifyingPayload
  | readyToCommit
  | commitEmitted
  | awaitingAcknowledgment
  | submissionConfirmed
  | awaitingCompletion
  | recovering
  | ambiguous
  | succeeded
  | failed
  | escalated
deriving DecidableEq

def SubmitPhase.name : SubmitPhase → String
  | .created => "CREATED"
  | .establishingSafeSurface => "ESTABLISHING_SAFE_SURFACE"
  | .clearingComposer => "CLEARING_COMPOSER"
  | .insertingPayload => "INSERTING_PAYLOAD"
  | .verifyingPayload => "VERIFYING_PAYLOAD"
  | .readyToCommit => "READY_TO_COMMIT"
  | .commitEmitted => "COMMIT_EMITTED"
  | .awaitingAcknowledgment => "AWAITING_ACKNOWLEDGMENT"
  | .submissionConfirmed => "SUBMISSION_CONFIRMED"
  | .awaitingCompletion => "AWAITING_COMPLETION"
  | .recovering => "RECOVERING"
  | .ambiguous => "AMBIGUOUS"
  | .succeeded => "SUCCEEDED"
  | .failed => "FAILED"
  | .escalated => "ESCALATED"

/-- What a submit action carries. -/
inductive SubmitAction
  | insertPromptPayload (chunks : List InputChunk) (expectedFingerprint : String)
  | commitPromptSubmission
  | clearComposer
deriving DecidableEq

structure PromptPayload where
  chunks : List InputChunk
  normalizedText : String
  fingerprint : String
deriving DecidableEq

structure SubmitPromptRequest where
  payload : PromptPayload
  awaitCompletion : Bool
  submissionDeadline : Duration
  completionDeadline : Option Duration := none
deriving DecidableEq

structure SubmitPromptOperation where
  envelope : OperationEnvelope SubmitPhase
  request : SubmitPromptRequest
  payloadFingerprint : String
  insertionActionId : Option ActionId := none
  insertionRevision : Option ObservationRevision := none
  clearingRevision : Option ObservationRevision := none
  commitActionId : Option ActionId := none
  baselineRevision : Option ObservationRevision := none
  baselineTranscriptRevision : Option Int := none
  acknowledgedTurn : Option TurnRef := none
  completionTurn : Option TurnRef := none
  commitEmittedAt : Option Timestamp := none
  ambiguityReason : Option String := none
deriving DecidableEq

abbrev SubmitDecision := ControllerDecision SubmitPhase SubmitAction

def collapseSpaces (inside : Bool) : List Char → List Char
  | [] => []
  | c :: rest =>
    if isSpace c then
      if inside then collapseSpaces true rest else ' ' :: collapseSpaces true rest
    else
      c :: collapseSpaces false rest

/-- The places of `expected` that the rows reach; a boundary between two rows is nothing or
one space.
-/
def matchRows (expected : List Char) (separators : List (List Char))
    : List (List Char) → List Nat → Bool
  | [], positions => positions.contains expected.length
  | row :: rest, positions =>
    let content := (strip (String.ofList (collapseSpaces false row))).toList
    let positions := positions.flatMap (fun position =>
      separators.filterMap (fun separator =>
        if (separator ++ content).isPrefixOf (expected.drop position) then
          some (position + separator.length + content.length)
        else
          none))
    if positions = [] then false
    else matchRows expected [[], [' ']] rest positions.eraseDups

def visualRowsMatchPayload (observed expected : String) : Bool :=
  matchRows expected.toList [[]] (splitLines [] observed.toList) [0]

/-- `\s*(?P<tail>.+)` on the whole rest: as much whitespace as leaves a tail of one line. -/
def tailBehindSpaces (rest : List Char) : Nat → Option (List Char)
  | 0 => if rest ≠ [] ∧ '\n' ∉ rest then some rest else none
  | count + 1 =>
    let tail := rest.drop (count + 1)
    if tail ≠ [] ∧ '\n' ∉ tail then some tail else tailBehindSpaces rest count

def dropPrefix? (front : List Char) (text : List Char) : Option (List Char) :=
  if front.isPrefixOf text then some (text.drop front.length) else none

section Digits

variable [DecimalDigits]

def isDecimal (c : Char) : Bool := (DecimalDigits.value c).isSome

/-- The digits and the tail of `[Pasted Content … chars] …`. -/
def collapsedPaste (text : String) : Option (List Char × List Char) := do
  let behind ← dropPrefix? "[Pasted Content ".toList text.toList
  let count := behind.takeWhile isDecimal
  let rest ← dropPrefix? " chars]".toList (behind.dropWhile isDecimal)
  let tail ← tailBehindSpaces rest (rest.takeWhile isSpace).length
  if count = [] then none else some (count, tail)

def parseCount (count : List Char) : Except SubmitError Nat :=
  if 4300 < count.length then .error .valueError
  else .ok (count.foldl (fun total c => total * 10 + (DecimalDigits.value c).getD 0) 0)

end Digits

def ComposerState.isEmpty (composer : ComposerState) : Bool :=
  composer.text == some "" || composer.normalizedText == some ""

/-- The paste a payload of one chunk that was not typed may be collapsed to. -/
def pasteOf [DecimalDigits] (op : SubmitPromptOperation) (composer : ComposerState)
    : Option (List Char × List Char) :=
  match op.request.payload.chunks with
  | [chunk] =>
    if chunk.provenance = .userTyped then none
    else collapsedPaste (composer.normalizedText.getD "")
  | _ => none

def composerContainsPayload [DecimalDigits] (op : SubmitPromptOperation)
    (snapshot : ObservationSnapshot)
    : Except SubmitError PredicateResult :=
  let result (value : TruthValue) (reason : String) : PredicateResult :=
    ⟨value, "composer_contains_payload", snapshot.revision, reason⟩
  match snapshot.composer.value with
  | none => .ok (result .unknown ("composer is " ++ snapshot.composer.knowledge.name))
  | some composer =>
    match composer.contentFingerprint with
    | none => .ok (result .unknown "composer fingerprint is unavailable")
    | some fingerprint =>
      let expected := op.request.payload.normalizedText.toList
      match pasteOf op composer with
      | some (count, tail) =>
        let reason := "collapsed paste count and payload-derived visible tail compared "
          ++ "with intended payload"
        if tail.length = pasteVerificationTailLength ∧ tail.isSuffixOf expected then do
          let count ← parseCount count
          pure (result (.ofBool (count == expected.length - tail.length + 1)) reason)
        else
          .ok (result .false reason)
      | none =>
        let rows := match composer.text with
          | some text =>
            text.toList.contains '\n'
              && visualRowsMatchPayload text op.request.payload.normalizedText
          | none => false
        .ok (result (.ofBool (fingerprint == op.payloadFingerprint || rows))
          "composer visual rows compared with intended payload")

def promptEntrySurfaceReady (snapshot : ObservationSnapshot) : PredicateResult :=
  let result (value : TruthValue) (reason : String) : PredicateResult :=
    ⟨value, "prompt_entry_surface_ready", snapshot.revision, reason⟩
  match snapshot.surface.value, snapshot.composer.value with
  | some surface, some composer =>
    result
      (.ofBool (!surface.blocksComposerInput
        && composer.actionability == .actionable
        && composer.acceptsSubmission != some false))
      "composer actionability and surface blocking state evaluated"
  | _, _ => result .unknown "surface or composer is not known"

/-- `op.baseline_transcript_revision or -1`. -/
def SubmitPromptOperation.transcriptBaseline (op : SubmitPromptOperation) : Int :=
  match op.baselineTranscriptRevision with
  | some revision => if revision = 0 then -1 else revision
  | none => -1

def transcriptAcknowledges (op : SubmitPromptOperation) (tail : TranscriptTailState)
    : Option String :=
  if tail.visibleUserFingerprints.contains op.payloadFingerprint then
    some "new matching user turn is visible"
  else if op.transcriptBaseline < tail.transcriptRevision ∧ tail.assistantStreaming = some true then
    some "transcript advanced and generation started"
  else
    none

def submissionAcknowledged (op : SubmitPromptOperation) (snapshot : ObservationSnapshot)
    : PredicateResult :=
  let result (value : TruthValue) (reason : String) : PredicateResult :=
    ⟨value, "submission_acknowledged", snapshot.revision, reason⟩
  let unknown := result .unknown "no sufficient post-commit acknowledgment signal"
  match op.commitActionId, op.baselineRevision with
  | some _, some baseline =>
    if ¬ baseline < snapshot.revision then
      result .unknown "no fresh post-commit observation"
    else
      match snapshot.transcriptTail.value.bind (transcriptAcknowledges op) with
      | some reason => result .true reason
      | none =>
        match snapshot.composer.value with
        | some composer =>
          if composer.contentFingerprint = some op.payloadFingerprint then
            result .false "composer still holds exact submitted payload"
          else if composer.isEmpty then
            result .true "composer is empty after commit"
          else
            unknown
        | none => unknown
  | _, _ => result .unknown "no fresh post-commit observation"

def payloadObservationIsFresh (op : SubmitPromptOperation) (snapshot : ObservationSnapshot)
    : PredicateResult :=
  let result (value : TruthValue) (reason : String) : PredicateResult :=
    ⟨value, "payload_observation_is_fresh", snapshot.revision, reason⟩
  match op.insertionRevision with
  | none => result .unknown "no recorded insertion observation boundary"
  | some insertion =>
    result (.ofBool (decide (insertion < snapshot.revision)))
      "capture revision compared with insertion boundary"

def assistantCompletionAcknowledged (op : SubmitPromptOperation)
    (snapshot : ObservationSnapshot)
    : PredicateResult :=
  let result (value : TruthValue) (reason : String) : PredicateResult :=
    ⟨value, "assistant_completion_acknowledged", snapshot.revision, reason⟩
  match snapshot.transcriptTail.value with
  | none => result .unknown "transcript tail is not available"
  | some tail =>
    if op.baselineTranscriptRevision.any (tail.transcriptRevision ≤ ·) then
      result .unknown "assistant transcript has not advanced beyond the commit boundary"
    else if tail.assistantCompleted = some true ∧ tail.lastAssistantTurn ≠ none then
      result .true "post-commit assistant turn is complete"
    else if tail.assistantStreaming = some true then
      result .unknown "assistant turn is still streaming"
    else
      result .unknown "no completed post-commit assistant turn is visible"

/-- The deadline that applies in the operation's phase; a completion deadline of zero counts
as none.
-/
def SubmitPromptOperation.currentDeadline (op : SubmitPromptOperation) : Option Timestamp :=
  match op.envelope.phase, op.commitEmittedAt with
  | .awaitingCompletion, some emitted =>
    match op.request.completionDeadline with
    | some allowed =>
      some (emitted + if allowed = 0 then op.request.submissionDeadline else allowed)
    | none => some (emitted + op.request.submissionDeadline)
  | _, _ => op.envelope.deadline

def SubmitPromptOperation.expired (op : SubmitPromptOperation) (now : Timestamp) : Bool :=
  op.currentDeadline.any (· < now)

/-- `revision` is no newer than the clear action, when there was one. -/
def SubmitPromptOperation.staleSinceClear (op : SubmitPromptOperation)
    (revision : ObservationRevision) : Bool :=
  op.clearingRevision.any (fun cleared => decide (¬ cleared < revision))

def SubmitPromptOperation.act (op : SubmitPromptOperation) (actionId : ActionId)
    (policy : DuplicatePolicy) (payload : SubmitAction)
    : SemanticAction SubmitAction :=
  ⟨actionId, op.envelope.operationId, policy, payload⟩

section Reconcile

variable [DecimalDigits] (op : SubmitPromptOperation) (snapshot : ObservationSnapshot)
  (actionId : ActionId)

def reconcileClearing : Except SubmitError SubmitDecision := do
  let match_ ← composerContainsPayload op snapshot
  if op.staleSinceClear snapshot.revision then
    pure (.observe .clearingComposer
      "wait for a composer observation newer than the clear action" [match_])
  else
    match snapshot.composer.value with
    | none => pure (.observe .clearingComposer "composer contents are unknown" [match_])
    | some composer =>
      if composer.contentFingerprint = none then
        pure (.observe .clearingComposer "composer contents are unverifiable" [match_])
      else if composer.isEmpty then
        pure (.observe .insertingPayload "composer is empty" [match_])
      else
        pure (.emit .clearingComposer
          (op.act actionId .replaySafeWhilePreconditionHolds .clearComposer)
          "clear conflicting composer contents" [match_])

/-- An insertion behind a clear action revalidates the composer, another one does not. -/
def reconcileInserting : SubmitDecision :=
  let empty := !op.staleSinceClear snapshot.revision
    && snapshot.composer.value.any ComposerState.isEmpty
  if op.clearingRevision ≠ none ∧ empty = false then
    .observe .clearingComposer
      "revalidate an empty composer after the clear action before insertion"
  else
    .emit .verifyingPayload
      (op.act actionId .safeBeforeCommit
        (.insertPromptPayload op.request.payload.chunks op.payloadFingerprint))
      "insert intended prompt"

def reconcileVerifying : Except SubmitError SubmitDecision := do
  let freshness := payloadObservationIsFresh op snapshot
  let predicate ← composerContainsPayload op snapshot
  if freshness.value = .true ∧ predicate.value = .true then
    pure (.observe .readyToCommit "payload identity verified" [freshness, predicate])
  else
    pure (.observe .verifyingPayload "wait for verifiable payload identity"
      [freshness, predicate])

def reconcileReady : SubmitDecision :=
  if op.commitActionId ≠ none then
    .escalate .ambiguous "a commit action already exists"
  else
    .emit .commitEmitted (op.act actionId .ambiguousAfterEmission .commitPromptSubmission)
      "commit verified prompt"

def reconcileAcknowledgment : SubmitDecision :=
  let predicate := submissionAcknowledged op snapshot
  match predicate.value with
  | .true =>
    if op.request.awaitCompletion then
      .observe .submissionConfirmed
        "prompt submission acknowledged; await assistant completion" [predicate]
    else
      .succeed .succeeded "prompt submission acknowledged" [predicate]
  | .false => .escalate .ambiguous "post-commit evidence contradicts submission" [predicate]
  | .unknown =>
    .observe .awaitingAcknowledgment "await fresh submission acknowledgment" [predicate]

def reconcileCompletion : SubmitDecision :=
  let predicate := assistantCompletionAcknowledged op snapshot
  if predicate.value = .true then
    .succeed .succeeded "post-commit assistant completion acknowledged" [predicate]
  else
    .observe .awaitingCompletion "await correlated assistant completion" [predicate]

/-- The decision of each phase, once neither the deadline nor the health stops it. -/
def reconcilePhase : Except SubmitError SubmitDecision :=
  match op.envelope.phase with
  | .created => .ok (.observe .establishingSafeSurface "begin prompt submission")
  | .establishingSafeSurface =>
    let predicate := promptEntrySurfaceReady snapshot
    if predicate.value = .true then
      .ok (.observe .clearingComposer "composer is actionable" [predicate])
    else
      .ok (.observe .establishingSafeSurface "wait for an actionable composer" [predicate])
  | .clearingComposer => reconcileClearing op snapshot actionId
  | .insertingPayload => .ok (reconcileInserting op snapshot actionId)
  | .verifyingPayload => reconcileVerifying op snapshot
  | .readyToCommit => .ok (reconcileReady op actionId)
  | .commitEmitted => .ok (reconcileAcknowledgment op snapshot)
  | .awaitingAcknowledgment => .ok (reconcileAcknowledgment op snapshot)
  | .submissionConfirmed =>
    .ok (.observe .awaitingCompletion
      "submission is acknowledged; wait for correlated assistant completion")
  | .awaitingCompletion => .ok (reconcileCompletion op snapshot)
  | .ambiguous =>
    -- an empty reason counts as none
    let reason := match op.ambiguityReason with
      | some "" => "ambiguous prompt commit"
      | some reason => reason
      | none => "ambiguous prompt commit"
    .ok (.escalate .escalated reason)
  | phase => .ok (.fail .failed ("invalid submit phase " ++ phase.name))

/-- `reconcile_submit_prompt`, which draws the identifier of its action from `uuid4`. -/
def reconcileSubmitPrompt (now : Timestamp) : Except SubmitError SubmitDecision :=
  if op.expired now then
    if op.envelope.phase = .commitEmitted ∨ op.envelope.phase = .awaitingAcknowledgment then
      .ok (.escalate .ambiguous "commit emitted without verified acknowledgment")
    else
      .ok (.fail .failed "prompt submission deadline exceeded")
  else if snapshot.health.requiresEscalation then
    .ok (.escalate .escalated "observation health requires escalation")
  else
    reconcilePhase op snapshot actionId

end Reconcile

def SubmitPromptOperation.record (op : SubmitPromptOperation)
    (action : SemanticAction SubmitAction) (snapshot : ObservationSnapshot) (now : Timestamp)
    : SubmitPromptOperation :=
  match action.payload with
  | .clearComposer => { op with clearingRevision := some snapshot.revision }
  | .insertPromptPayload _ _ =>
    { op with
      insertionActionId := some action.actionId
      insertionRevision := some snapshot.revision }
  | .commitPromptSubmission =>
    { op with
      commitActionId := some action.actionId
      baselineRevision := some snapshot.revision
      baselineTranscriptRevision := snapshot.transcriptTail.value.map (·.transcriptRevision)
      commitEmittedAt := some now }

/-- Apply a decision as durable operation state before its effects are emitted. -/
def advanceSubmitPrompt (op : SubmitPromptOperation) (decision : SubmitDecision)
    (snapshot : ObservationSnapshot) (now : Timestamp)
    : SubmitPromptOperation :=
  let tail := snapshot.transcriptTail.value
  let recorded := match decision.action with
    | some action => op.record action snapshot now
    | none => op
  { recorded with
    envelope := { op.envelope with
      phase := decision.nextPhase
      status := statusAfter op.envelope.status decision.kind
      updatedAt := now
      lastObservationRevision := some snapshot.revision
      actionHistory := op.envelope.actionHistory ++ (decision.action.map (·.actionId)).toList }
    ambiguityReason :=
      if decision.kind = .escalate then some decision.reason else op.ambiguityReason
    acknowledgedTurn :=
      if decision.nextPhase = .submissionConfirmed ∨ decision.nextPhase = .awaitingCompletion then
        match tail with
        | some tail => tail.lastUserTurn
        | none => op.acknowledgedTurn
      else
        op.acknowledgedTurn
    completionTurn :=
      if decision.kind = .succeed ∧ op.request.awaitCompletion then
        match tail with
        | some tail => tail.lastAssistantTurn
        | none => op.completionTurn
      else
        op.completionTurn }

/-- The operation that `create_operation` starts. -/
def createOperation (operationId : OperationId) (payload : PromptPayload)
    (awaitCompletion : Bool) (submissionDeadline : Duration)
    (completionDeadline : Option Duration) (started : Timestamp)
    : SubmitPromptOperation where
  envelope := {
    operationId := operationId
    status := .pending
    phase := .created
    updatedAt := started
    deadline := some (started + submissionDeadline) }
  request := ⟨payload, awaitCompletion, submissionDeadline, completionDeadline⟩
  payloadFingerprint := payload.fingerprint

end Murder.Harness

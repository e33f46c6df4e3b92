import Murder.Harness.Permissions
import Murder.Harness.Questions

/-! The router between the dialogs a harness shows and the decisions made outside of it:
requests bound to the identity of what is displayed, answered at most once.
-/

namespace Murder.Decisions

open Contracts Harness

inductive DecisionKind
  | question
  | permission
deriving DecidableEq

def DecisionKind.name : DecisionKind → String
  | .question => "question"
  | .permission => "permission"

def DecisionKind.named (name : String) : Option DecisionKind :=
  [DecisionKind.question, .permission].find? (fun kind => kind.name = name)

/-- An agent's dialogs of one kind. -/
abbrev Key := String × DecisionKind

/-- The dialog a request was published for. -/
inductive Dialog
  | question (state : QuestionState)
  | permission (state : PermissionRequestState)

section Snapshots

variable [Sha256] (snapshot : ObservationSnapshot)

/-- The dialog of a kind that a snapshot shows, with its fingerprint. -/
def shown (kind : DecisionKind) : Option (String × Dialog) :=
  match kind with
  | .question =>
    if snapshot.question.knowledge = .present then
      snapshot.question.value.map (fun state => (questionFingerprint state, .question state))
    else none
  | .permission =>
    if snapshot.permissionRequest.knowledge = .present then
      snapshot.permissionRequest.value.map
        (fun state => (permissionFingerprint state, .permission state))
    else none

/-- `_current_identity` -/
def currentIdentity (kind : DecisionKind) : Option String := (shown snapshot kind).map Prod.fst

def explicitlyAbsent (kind : DecisionKind) : Bool :=
  match kind with
  | .question => snapshot.question.knowledge = .absent
  | .permission => snapshot.permissionRequest.knowledge = .absent

theorem currentIdentity_of_absent {kind : DecisionKind}
    (absent : explicitlyAbsent snapshot kind = true)
    : currentIdentity snapshot kind = none := by
  cases kind <;> simp_all [explicitlyAbsent, currentIdentity, shown]

end Snapshots

/-! ### State -/

/-- A row of `structured_decisions`; `display` numbers the display it was published for. -/
structure Decision (Response : Type) where
  id : String
  agent : String
  kind : DecisionKind
  identity : String
  dialog : Dialog
  response : Option Response := none
  decidedBy : Option String := none
  display : Nat

def Decision.key {Response : Type} (decision : Decision Response) : Key :=
  (decision.agent, decision.kind)

def Decision.answered {Response : Type} (id : String) (response : Response) (decidedBy : String)
    (decision : Decision Response)
    : Decision Response :=
  if decision.id = id ∧ decision.response.isNone then
    { decision with response := some response, decidedBy := some decidedBy }
  else decision

/-- The displays of one kind of dialog: how many there were, and what is displayed now. -/
structure Display where
  number : Nat := 0
  identity : Option String := none
deriving DecidableEq

/-- An answer handed to the agent, with the display then observed. -/
structure Answered (Answer : Type) where
  id : String
  key : Key
  answer : Answer
  display : Nat
  identity : String
  observed : Display

/-- An `observe` that waits for the answer it resumed, before the requests still to look at. -/
structure Observing where
  agent : String
  snapshot : ObservationSnapshot
  pending : List String

structure Router (Response Answer : Type) where
  -- Durable: decisions and the identifiers of operations.
  decisions : List (Decision Response) := []
  operations : List String := []
  -- In memory, lost by a restart.
  visible : Key → Option String := fun _ => none
  cleared : Key → Bool := fun _ => false
  latest : String → Option ObservationSnapshot := fun _ => none
  observing : List Observing := []
  answering : List String := []
  -- The displays observed, the responses recorded and the answers given.
  displays : Key → Display := fun _ => {}
  recorded : List String := []
  answers : List (Answered Answer) := []

def set {κ β : Type} [DecidableEq κ] (map : κ → β) (key : κ) (value : β) : κ → β :=
  fun other => if other = key then value else map other

@[simp] theorem set_same {κ β : Type} [DecidableEq κ] (map : κ → β) (key : κ) (value : β)
    : set map key value key = value := by
  simp [set]

@[simp] theorem set_other {κ β : Type} [DecidableEq κ] (map : κ → β) {key other : κ} (value : β)
    (apart : other ≠ key)
    : set map key value other = map other := by
  simp [set, apart]

namespace Router

variable {Response Answer : Type} (router : Router Response Answer)

/-- `_load_request` -/
def load (id : String) : Option (Decision Response) :=
  router.decisions.find? (fun decision => decision.id = id)

/-- `_operation_exists` -/
def operationExists (id : String) : Bool := router.operations.contains id

/-- `_has_any_occurrence` -/
def hasAnyOccurrence (key : Key) (identity : String) : Bool :=
  router.decisions.any (fun decision => decision.key = key && decision.identity = identity)

/-- `_has_kind_history` -/
def hasKindHistory (key : Key) : Bool :=
  router.decisions.any (fun decision => decision.key = key)

/-- The display of a dialog behind a snapshot: an absence ends it, another dialog ends it and
starts the next.
-/
def Display.behind (display : Display) (absent : Bool) (identity : Option String) : Display :=
  if absent then { display with identity := none }
  else
    match identity with
    | some identity =>
      if display.identity = some identity then display
      else ⟨display.number + 1, some identity⟩
    | none => display

def recordRequest (decision : Decision Response) : Router Response Answer :=
  if (router.load decision.id).isSome then router
  else { router with decisions := router.decisions ++ [decision] }

/-- `_record_response`, of a request without a response. -/
def recordResponse (id : String) (response : Response) (decidedBy : String)
    : Router Response Answer :=
  { router with
    decisions := router.decisions.map (Decision.answered id response decidedBy)
    recorded := router.recorded ++ [id] }

/-- `agent.answer_verified_…(answer, operation_id=id)` -/
def give (decision : Decision Response) (answer : Answer) : Router Response Answer :=
  { router with
    answering := router.answering ++ [decision.id]
    answers := router.answers ++ [{
      id := decision.id
      key := decision.key
      answer
      display := decision.display
      identity := decision.identity
      observed := router.displays decision.key }] }

variable [Sha256]

/-- `uuid5(NAMESPACE_URL, f"{agent.id}:{kind}:{identity}:{occurrence}")` -/
def requestId (key : Key) (identity : String) (revision : ObservationRevision) : String :=
  let occurrence := toString revision.paneEpoch ++ ":" ++ toString revision.captureSequence ++ ":"
    ++ toString revision.semanticSequence
  (uuid5 namespaceUrl (key.1 ++ ":" ++ key.2.name ++ ":" ++ identity ++ ":" ++ occurrence)).str

/-- The edge of an absent dialog. After a restart it is rebuilt from the history. -/
def observeAbsence (key : Key) (snapshot : ObservationSnapshot) : Router Response Answer :=
  if explicitlyAbsent snapshot key.2 then
    if (router.visible key).isSome then
      { router with
        visible := set router.visible key none
        cleared := set router.cleared key true }
    else if router.hasKindHistory key then
      { router with cleared := set router.cleared key true }
    else router
  else router

/-- A displayed dialog published, unless it is the one already visible or, behind a restart,
one that may be lingering.
-/
def publish (key : Key) (snapshot : ObservationSnapshot) : Router Response Answer :=
  match shown snapshot key.2 with
  | none => router
  | some (identity, dialog) =>
    if router.visible key = some identity then router
    else
      let seen := { router with
        visible := set router.visible key (some identity)
        cleared := set router.cleared key false }
      if (router.visible key).isNone && !router.cleared key
          && router.hasAnyOccurrence key identity then seen
      else
        seen.recordRequest {
          id := requestId key identity snapshot.revision
          agent := key.1
          kind := key.2
          identity
          dialog
          display := (router.displays key).number }

/-- `observe` behind the resumed responses. -/
def process (agent : String) (snapshot : ObservationSnapshot) : Router Response Answer :=
  let absences := (router.observeAbsence (agent, .question) snapshot).observeAbsence
    (agent, .permission) snapshot
  (absences.publish (agent, .question) snapshot).publish (agent, .permission) snapshot

variable (decode : DecisionKind → String → Dialog → Response → Option Answer)

/-- A recorded response to resume on a snapshot: its request is what the snapshot shows, and no
operation was started for it.
-/
def resumable (agent : String) (snapshot : ObservationSnapshot) (id : String)
    : Option (Decision Response × Answer) :=
  if id = "" || router.operationExists id then none
  else
    (router.load id).bind (fun decision =>
      if decision.agent = agent ∧ currentIdentity snapshot decision.kind = some decision.identity
      then
        decision.response.bind (fun response =>
          (decode decision.kind decision.identity decision.dialog response).map
            (fun answer => (decision, answer)))
      else none)

/-- `_resume_recorded_responses` up to its next await, and `observe` behind it. -/
def resumeFrom (agent : String) (snapshot : ObservationSnapshot) : List String
    → Router Response Answer
  | [] => router.process agent snapshot
  | id :: pending =>
    match router.resumable decode agent snapshot id with
    | some (decision, answer) =>
      let given := router.give decision answer
      { given with observing := given.observing ++ [⟨agent, snapshot, pending⟩] }
    | none => resumeFrom agent snapshot pending

def ingest (agent : String) (snapshot : ObservationSnapshot) : Router Response Answer :=
  { router with
    latest := set router.latest agent (some snapshot)
    displays := fun key =>
      if key.1 = agent then
        Display.behind (router.displays key) (explicitlyAbsent snapshot key.2)
          (currentIdentity snapshot key.2)
      else router.displays key }

/-- `observe` up to its first await. -/
def observe (agent : String) (snapshot : ObservationSnapshot) : Router Response Answer :=
  let ingested := router.ingest agent snapshot
  ingested.resumeFrom decode agent snapshot
    ((ingested.decisions.filter
      (fun decision => decision.agent = agent && decision.response.isSome)).map Decision.id)

/-- The body of a response. -/
structure Body (Response : Type) where
  agentId : String
  requestId : String
  decisionKind : String
  requestIdentity : String
  decidedBy : String
  response : Response

/-- `respond` up to its await, or the error it replies. -/
def respond (body : Body Response) : Except String (Router Response Answer) := do
  let agentId := strip body.agentId
  let requestId := strip body.requestId
  let identity := strip body.requestIdentity
  let decidedBy := strip body.decidedBy
  let some kind := DecisionKind.named (strip body.decisionKind)
    | throw "invalid_decision_response"
  if agentId = "" || requestId = "" || identity = "" || decidedBy = "" then
    throw "invalid_decision_response"
  let some decision := router.load requestId | throw "decision_request_not_found"
  if decision.agent ≠ agentId then throw "decision_request_not_found"
  if decision.kind ≠ kind then throw "decision_kind_mismatch"
  if decision.identity ≠ identity then throw "request_identity_mismatch"
  if (router.latest agentId).bind (fun snapshot => currentIdentity snapshot kind)
      ≠ some identity then
    throw "request_not_current"
  if decision.response.isSome then throw "response_already_recorded"
  let some answer := decode kind identity decision.dialog body.response
    | throw "invalid_semantic_response"
  return (router.recordResponse requestId body.response decidedBy).give decision answer

/-- A new process: only what is durable, and what was observed, remains. -/
def restart : Router Response Answer :=
  { router with
    visible := fun _ => none
    cleared := fun _ => false
    latest := fun _ => none
    observing := []
    answering := [] }

end Router

/-! ### Steps -/

inductive Event (Response : Type)
  | observe (agent : String) (snapshot : ObservationSnapshot)
  /-- The answer an `observe` waits for returned. -/
  | resume
  /-- The answer an `observe` waits for raised. -/
  | abandon
  | respond (body : Router.Body Response)
  /-- An answer persisted its operation. -/
  | persist (id : String)
  | restart

/-- One step, between two awaits of the router. -/
inductive RouterStep [Sha256] {Response Answer : Type}
    (decode : DecisionKind → String → Dialog → Response → Option Answer)
    : Router Response Answer → Event Response → Router Response Answer → Prop
  | observe (router agent snapshot)
    : RouterStep decode router (.observe agent snapshot) (router.observe decode agent snapshot)
  | resume {router before waiting after}
    (waits : router.observing = before ++ waiting :: after)
    : RouterStep decode router .resume
        (({ router with observing := before ++ after } : Router Response Answer).resumeFrom decode
          waiting.agent waiting.snapshot waiting.pending)
  | abandon {router before waiting after}
    (waits : router.observing = before ++ waiting :: after)
    : RouterStep decode router .abandon { router with observing := before ++ after }
  | respond {router body after} (accepted : router.respond decode body = .ok after)
    : RouterStep decode router (.respond body) after
  | refuse {router body error} (refused : router.respond decode body = .error error)
    : RouterStep decode router (.respond body) router
  | persist {router id} (answers : id ∈ router.answering)
    : RouterStep decode router (.persist id)
        { router with operations := router.operations ++ [id] }
  | restart (router) : RouterStep decode router .restart router.restart

def Fresh {Response Answer : Type} (router : Router Response Answer) : Prop := router = {}

end Murder.Decisions

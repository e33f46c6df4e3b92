import Murder.Acp.ViewState
import Murder.Library.Runs

/-! The queues and the slots between an agent connection and its frame observer, under every order
of requests, answers, prompts and captures.
-/

namespace Murder.Acp

open Contracts

/-- What the connection holds for the observer. -/
structure Connection where
  notifications : List JsonObject := []
  incomingRequests : List PendingRequest := []
  resolvedRequestIds : List RequestId := []
  promptInFlight : Bool := false
  pendingPromptText : Option String := none
  pendingStopReason : Option String := none

/-- What a frame shows of the view. -/
structure AcpFrame where
  turnStatus : Option TurnStatus
  items : List Item
  pendingRequests : List PendingRequest

/-- `to_snapshot_dict` -/
def ViewState.frame (view : ViewState) : AcpFrame :=
  ⟨view.turnStatus, view.items, view.pendingRequests⟩

/-- A prompt that waits in the slot starts a turn. -/
def ViewState.seed (view : ViewState) : Option String → ViewState
  | some text => view.markPromptStarted (some text)
  | none => view

/-- Notifications, requests and answered requests, one queue after another. -/
def ViewState.drain (view : ViewState) (connection : Connection) : ViewState :=
  let notified := connection.notifications.foldl ViewState.applyUpdate view
  let requested := connection.incomingRequests.foldl ViewState.applyServerRequest notified
  connection.resolvedRequestIds.foldl ViewState.removePendingRequest requested

def ViewState.keepStreaming (view : ViewState) (promptInFlight : Bool) : ViewState :=
  if promptInFlight = true ∧ view.turnStatus ≠ some .streaming then
    view.markPromptStarted none
  else view

def ViewState.stop (view : ViewState) : Option String → ViewState
  | some stopReason => view.applyStopReason stopReason
  | none => view

/-- The view behind `capture_frame`. -/
def captureView (connection : Connection) (view : ViewState) : ViewState :=
  (((view.seed connection.pendingPromptText).drain connection).keepStreaming
    connection.promptInFlight).stop connection.pendingStopReason

/-- The connection behind `capture_frame`: the queues are drained and the slots are empty. -/
def Connection.captured (connection : Connection) : Connection :=
  { promptInFlight := connection.promptInFlight }

/-- `_stash_prompt_stop_reason`: the reason of the result, unless it has none. -/
def stashedStopReason (raw : Option String) : String :=
  match raw with
  | some reason => if reason = "" then "end_turn" else reason
  | none => "end_turn"

inductive Outcome
  | inFlight
  | returned
  | raised
deriving DecidableEq

/-- A `session/prompt` that was emitted; it is withdrawn when its emission raises while its text is
in the slot.
-/
structure Submission where
  text : Option String
  outcome : Outcome := .inFlight
  withdrawn : Bool := false
deriving DecidableEq

/-- A captured frame, with the requests that were open and the prompts that were emitted. -/
structure Capture where
  frame : AcpFrame
  open_ : List PendingRequest
  submissions : List Submission

structure Client where
  connection : Connection := {}
  view : ViewState := {}
  open_ : List PendingRequest := []
  submissions : List Submission := []
  captures : List Capture := []

inductive ClientEvent
  | receive (request : PendingRequest)
  | answer (requestId : RequestId) (error : Bool)
  | emitPrompt (text : Option String)
  | promptReturns (index : Nat) (stopReason : Option String)
  | promptRaises (index : Nat)
  | cancel
  | capture

namespace Client

variable (client : Client)

def receive (request : PendingRequest) : Client :=
  { client with
    connection.incomingRequests := client.connection.incomingRequests ++ [request]
    open_ := client.open_ ++ [request] }

/-- `respond`: only a result is told to the observer. -/
def answer (requestId : RequestId) (error : Bool) : Client :=
  { client with
    connection.resolvedRequestIds :=
      if error then client.connection.resolvedRequestIds
      else client.connection.resolvedRequestIds ++ [requestId]
    open_ := client.open_.filter (·.id ≠ requestId) }

/-- `invoke_acp_rpc` of a `session/prompt`, up to its reply. -/
def emitPrompt (text : Option String) : Client :=
  { client with
    connection.promptInFlight := true
    connection.pendingPromptText := text
    submissions := client.submissions ++ [{ text }] }

def promptReturns (index : Nat) (stopReason : Option String) : Client :=
  { client with
    connection.promptInFlight := false
    connection.pendingStopReason := some (stashedStopReason stopReason)
    submissions := client.submissions.modify index (fun submission =>
      { submission with outcome := .returned }) }

def promptRaises (index : Nat) (text : Option String) : Client :=
  let holds := client.connection.pendingPromptText = text
  { client with
    connection.promptInFlight := false
    connection.pendingPromptText := if holds then none else client.connection.pendingPromptText
    submissions := client.submissions.modify index (fun submission =>
      { submission with outcome := .raised, withdrawn := holds }) }

def cancel : Client :=
  { client with connection.pendingStopReason := some "cancelled" }

def capture : Client :=
  let view := captureView client.connection client.view
  { client with
    connection := client.connection.captured
    view
    captures := client.captures ++ [⟨view.frame, client.open_, client.submissions⟩] }

end Client

/-- The steps of a client; a prompt ends only while it is in flight. -/
inductive ClientStep : Client → ClientEvent → Client → Prop
  | receive {client request} : ClientStep client (.receive request) (client.receive request)
  | answer {client requestId error}
    : ClientStep client (.answer requestId error) (client.answer requestId error)
  | emitPrompt {client text} : ClientStep client (.emitPrompt text) (client.emitPrompt text)
  | promptReturns {client index stopReason submission}
    (emitted : client.submissions[index]? = some submission)
    (waits : submission.outcome = .inFlight)
    : ClientStep client (.promptReturns index stopReason)
      (client.promptReturns index stopReason)
  | promptRaises {client index submission}
    (emitted : client.submissions[index]? = some submission)
    (waits : submission.outcome = .inFlight)
    : ClientStep client (.promptRaises index) (client.promptRaises index submission.text)
  | cancel {client} : ClientStep client .cancel client.cancel
  | capture {client} : ClientStep client .capture client.capture

def ClientFresh (client : Client) : Prop := client = {}

def userTexts (items : List Item) : List (Option String) :=
  items.filterMap (fun item =>
    if item.type = .userMessage then some (some (item.text.getD "")) else none)

def acceptedTexts (submissions : List Submission) : List (Option String) :=
  submissions.filterMap (fun submission =>
    if submission.outcome = .returned then some submission.text else none)

def someInFlight (submissions : List Submission) : Bool :=
  submissions.any (fun submission => submission.outcome = .inFlight)

/-- A frame shows the open requests, the accepted prompts in the order they were submitted, each
prompt at most once, and a streaming turn while one is in flight.
-/
structure Capture.Faithful (capture : Capture) : Prop where
  requests : capture.frame.pendingRequests = capture.open_
  prompts : (acceptedTexts capture.submissions).Sublist (userTexts capture.frame.items)
  once : (userTexts capture.frame.items).Sublist (capture.submissions.map (·.text))
  streaming
    : someInFlight capture.submissions = true → capture.frame.turnStatus = some .streaming

def FaithfulFrames (client : Client) : Prop := ∀ capture ∈ client.captures, capture.Faithful

/-- No request comes with the identifier of an answer that is not drained yet, no open request is
answered by an error, a prompt with a text is emitted only into an empty slot, none raises while
the slot holds the same text of a later one, and no frame is captured with a prompt in flight and a
stop reason, or neither the flag nor anything else that makes the turn stream.
-/
def CarefulClient (client : Client) : ClientEvent → Prop
  | .receive request => request.id ∉ client.connection.resolvedRequestIds
  | .answer requestId error => error = true → ∀ request ∈ client.open_, request.id ≠ requestId
  | .emitPrompt text => text ≠ none ∧ client.connection.pendingPromptText = none
  | .promptReturns _ _ | .cancel => True
  | .promptRaises index =>
    ∀ submission, client.submissions[index]? = some submission
      → submission.text = client.connection.pendingPromptText
      → index + 1 = client.submissions.length
  | .capture =>
    someInFlight client.submissions = true
      → client.connection.pendingStopReason = none
        ∧ (client.connection.pendingPromptText ≠ none
          ∨ client.connection.promptInFlight = true
          ∨ client.view.turnStatus = some .streaming)

end Murder.Acp

import Murder.Contracts.Common
import Murder.Library.Firsts

/-! The view state of an agent client: transcript items, open requests and the turn, accumulated
from notifications.
-/

namespace Murder.Acp

open Contracts Library.Firsts

inductive TurnStatus
  | idle
  | streaming
  | completed
  | cancelled
  | failed
deriving DecidableEq

/-- `_STOP_REASON_TO_STATUS`, and what stands for every other reason. -/
def stopReasonStatus (stopReason : String) : TurnStatus :=
  if stopReason = "refusal" then .failed
  else if stopReason = "cancelled" then .cancelled
  else .completed

/-- The type of an item, which decides its role. -/
inductive ItemType
  | agentMessage
  | agentThought
  | userMessage
  | toolCall
deriving DecidableEq

def ItemType.role : ItemType → String
  | .agentMessage | .agentThought => "assistant"
  | .userMessage => "user"
  | .toolCall => "tool"

/-- An item of the transcript; what else a tool call copies is read nowhere. -/
structure Item where
  id : Option String
  type : ItemType
  text : Option String := none
  toolCallId : Option JsonValue := none
deriving DecidableEq

/-- `item.get("id") or item.get("toolCallId")` -/
def Item.key (item : Item) : Option JsonValue :=
  match item.id with
  | some id => if id = "" then item.toolCallId else some (.str id)
  | none => item.toolCallId

def Item.itemId (item : Item) : Option String :=
  match item.key with
  | some (.str id) => if id = "" then none else some id
  | _ => none

inductive RequestId
  | text (value : String)
  | number (value : Int)
deriving DecidableEq

structure PendingRequest where
  id : RequestId
  method : String
  params : JsonObject
deriving DecidableEq

structure ViewState where
  turnStatus : Option TurnStatus := none
  items : List Item := []
  pendingRequests : List PendingRequest := []
  stopReason : Option String := none
  streamMessageId : Option String := none
  streamThoughtId : Option String := none
  streamUserId : Option String := none
  streamUserSeeded : Bool := false
deriving DecidableEq

namespace ViewState

variable (state : ViewState)

/-- `_next_stream_id` -/
def nextStreamId (namePrefix : String) : String :=
  namePrefix ++ "-" ++ toString (state.items.length + 1)

def append (item : Item) : ViewState := { state with items := state.items ++ [item] }

def markPromptStarted (promptText : Option String) : ViewState :=
  let started := { state with
    turnStatus := some .streaming
    stopReason := none
    streamMessageId := none
    streamThoughtId := none
    streamUserId := none
    streamUserSeeded := false }
  match promptText with
  | none => started
  | some text =>
    let itemId := state.nextStreamId "user"
    { started with
      streamUserId := some itemId
      streamUserSeeded := true
      items := state.items ++ [{ id := some itemId, type := .userMessage, text := some text }] }

def applyStopReason (stopReason : String) : ViewState :=
  { state with stopReason := some stopReason, turnStatus := some (stopReasonStatus stopReason) }

/-- `if state.turn_status is None: state.turn_status = "streaming"` -/
def startStreaming : ViewState :=
  { state with turnStatus := some (state.turnStatus.getD .streaming) }

def applyServerRequest (request : PendingRequest) : ViewState :=
  { state with pendingRequests := state.pendingRequests ++ [request] }

def removePendingRequest (requestId : RequestId) : ViewState :=
  { state with pendingRequests := state.pendingRequests.filter (·.id ≠ requestId) }

def extendItem (itemId : String) (type : ItemType) (text : String) : ViewState :=
  match splitFirst (fun item => item.id = some itemId) state.items with
  | some (before, item, behind) =>
    { state with
      items := before ++ { item with text := some (item.text.getD "" ++ text) } :: behind }
  | none => state.append { id := some itemId, type, text := some text }

def mergedItem (existing item : Item) : Item where
  id := item.id <|> existing.id
  type := item.type
  text := item.text <|> existing.text
  toolCallId :=
    match item.toolCallId with
    | none | some .null => existing.toolCallId
    | some value => some value

/-- `_upsert_item` -/
def upsertItem (item : Item) (merge : Bool) : ViewState :=
  match item.itemId with
  | none => state.append item
  | some itemId =>
    let identified := { item with id := some itemId }
    match splitFirst (fun existing => existing.key = some (.str itemId)) state.items with
    | some (before, existing, behind) =>
      let replaced := if merge then mergedItem existing identified else identified
      { state with items := before ++ replaced :: behind }
    | none => state.append identified

end ViewState

/-- `_content_text` -/
def contentText : JsonValue → Option String
  | .str text => some text
  | .obj fields =>
    match fields.get? "text" with
    | some (.str text) => some text
    | _ => none
  | _ => none

def JsonValue.items : JsonValue → List JsonValue
  | .arr items => items.toList
  | _ => []

/-- `_normalize_tool_call` -/
def normalizeToolCall (update : JsonObject) : Item :=
  let toolCallId :=
    match update.get? "toolCallId" with
    | some value => if value.truthy then some value else update.get? "id"
    | none => update.get? "id"
  let id := match toolCallId with
    | some (.str text) => some text
    | _ => none
  let parts := ((update.get? "content").map JsonValue.items).getD [] |>.filterMap contentText
  { id
    type := .toolCall
    toolCallId := update.get? "toolCallId" <|> id.map .str
    text := if parts = [] then none else some (String.join parts) }

/-- The streams of chunks, each with a cursor of its own. -/
inductive Stream
  | message
  | thought
  | user
deriving DecidableEq

namespace Stream

def type : Stream → ItemType
  | .message => .agentMessage
  | .thought => .agentThought
  | .user => .userMessage

def idPrefix : Stream → String
  | .message => "agent"
  | .thought => "thought"
  | .user => "user"

def cursor (state : ViewState) : Stream → Option String
  | .message => state.streamMessageId
  | .thought => state.streamThoughtId
  | .user => state.streamUserId

def setCursor (state : ViewState) (itemId : String) : Stream → ViewState
  | .message => { state with streamMessageId := some itemId }
  | .thought => { state with streamThoughtId := some itemId }
  | .user => { state with streamUserId := some itemId }

end Stream

def ViewState.applyChunk (state : ViewState) (stream : Stream) (text : String) : ViewState :=
  match stream.cursor state with
  | some itemId => state.extendItem itemId stream.type text
  | none =>
    let itemId := state.nextStreamId stream.idPrefix
    (stream.setCursor state itemId).append {
      id := some itemId, type := stream.type, text := some text }

/-- What a session update is. -/
inductive SessionUpdate
  | chunk (stream : Stream) (text : String)
  | toolCall (item : Item)
  | toolCallUpdate (item : Item)
  | stopped (stopReason : String)
  | turn (status : TurnStatus)
deriving DecidableEq

def textUpdate (stream : Stream) (update : JsonObject) : Option SessionUpdate :=
  ((update.get? "content").bind contentText).map (.chunk stream)

/-- `state_update`: a stop reason goes before the state of the session. -/
def stateUpdate (update : JsonObject) : Option SessionUpdate :=
  let sessionState :=
    match update.get? "sessionState" with
    | some value => if value.truthy then some value else update.get? "state"
    | none => update.get? "state"
  match update.get? "stopReason" with
  | some (.str stopReason) => some (.stopped stopReason)
  | _ =>
    if sessionState = some (.str "idle") then some (.turn .idle)
    else if sessionState = some (.str "running") then some (.turn .streaming)
    else if sessionState = some (.str "requires_action") then some (.turn .streaming)
    else none

/-- The kinds that change items or the turn; usage, modes and options change neither. -/
def sessionUpdate (update : JsonObject) : Option SessionUpdate :=
  match update.get? "sessionUpdate" with
  | some (.str kind) =>
    if kind = "agent_message_chunk" then textUpdate .message update
    else if kind = "user_message_chunk" then textUpdate .user update
    else if kind = "agent_thought_chunk" then textUpdate .thought update
    else if kind = "tool_call" then some (.toolCall (normalizeToolCall update))
    else if kind = "tool_call_update" then some (.toolCallUpdate (normalizeToolCall update))
    else if kind = "state_update" then stateUpdate update
    else none
  | _ => none

namespace ViewState

variable (state : ViewState)

def applySessionUpdate : SessionUpdate → ViewState
  | .chunk .user text =>
    if state.streamUserSeeded then state else state.applyChunk .user text
  | .chunk stream text => state.startStreaming.applyChunk stream text
  | .toolCall item =>
    { (state.upsertItem item false).startStreaming with
      streamMessageId := none
      streamThoughtId := none }
  | .toolCallUpdate item => state.upsertItem item true
  | .stopped stopReason => state.applyStopReason stopReason
  | .turn status => { state with turnStatus := some status }

/-- `apply_notification` of a `session/update`. -/
def applyUpdate (update : JsonObject) : ViewState :=
  match sessionUpdate update with
  | some recognized => state.applySessionUpdate recognized
  | none => state

end ViewState

end Murder.Acp

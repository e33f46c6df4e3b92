import Murder.Contracts.Common
import Murder.Library.Firsts

/-! Messages of the agent SDK, the events they are normalized to, and the view state that is
accumulated from the events.
-/

namespace Murder.AgentSdk

open Contracts Library.Firsts

/-- A tool use; an absent input is null. -/
structure ToolUse where
  id : Option String
  name : Option String
  input : JsonValue := .null
deriving DecidableEq

/-- A block of an assistant message; its text may be no string. -/
inductive ContentBlock
  | text (text : Option String)
  | toolUse (tool : ToolUse)
  | other
deriving DecidableEq

structure AssistantMessage where
  content : List ContentBlock
  model : Option String := none
  messageId : Option String := none
  uuid : Option String := none
  sessionId : Option String := none
deriving DecidableEq

/-- An entry of a list of content: decoded JSON, or an object with or without a text. -/
inductive ContentEntry
  | json (value : JsonValue)
  | object (text : Option String)
deriving DecidableEq

inductive Content
  | value (value : JsonValue)
  | entries (entries : List ContentEntry)
deriving DecidableEq

/-- A user message; an absent tool result is null. -/
structure UserMessage where
  content : Content
  parentToolUseId : Option String := none
  toolUseResult : JsonValue := .null
  uuid : Option String := none
deriving DecidableEq

structure ResultMessage where
  subtype : Option String
  sessionId : Option String := none
  usage : Option JsonObject := none
  totalCostUsd : Option Rat := none
  result : Option String := none
  isError : Option Bool := none
  errors : Option (List String) := none
deriving DecidableEq

inductive SdkMessage
  | user (message : UserMessage)
  | assistant (message : AssistantMessage)
  | result (message : ResultMessage)
  | system (subtype : Option String) (data : JsonObject)
  | streamEvent (event : JsonObject)
  | other
deriving DecidableEq

structure AssistantEvent where
  text : String
  toolUses : List ToolUse := []
  model : Option String := none
  messageId : Option String := none
  uuid : Option String := none
  sessionId : Option String := none
  isPartial : Bool := false
deriving DecidableEq

inductive Event
  | user (text : String) (uuid : Option String)
  | assistant (event : AssistantEvent)
  | toolResult (toolUseId : Option String) (content : String) (isError : Bool)
  | result (message : ResultMessage)
  | system (data : JsonObject) (sessionId : Option JsonValue)
  | streamDelta (itemId delta : String)
deriving DecidableEq

/-- What the client hands over: a message of the SDK, or an event that passes through. -/
inductive RawMessage
  | event (event : Event)
  | message (message : SdkMessage)

def ContentEntry.text? : ContentEntry → Option String
  | .json (.str text) => some text
  | .json value =>
    match value.get? "text" with
    | some (.str text) => some text
    | _ => none
  | .object text => text

/-- `_content_to_text` -/
def contentToText [PyRepr] : Content → String
  | .value .null => ""
  | .value (.str text) => text
  | .value (.arr items) => String.join (items.toList.filterMap (fun item =>
    ContentEntry.text? (.json item)))
  | .value other => other.pyStr
  | .entries entries => String.join (entries.filterMap ContentEntry.text?)

def ContentBlock.text? : ContentBlock → Option String
  | .text value => value
  | .toolUse _ | .other => none

def ContentBlock.toolUse? : ContentBlock → Option ToolUse
  | .toolUse used => some used
  | .text _ | .other => none

def AssistantMessage.text (message : AssistantMessage) : String :=
  String.join (message.content.filterMap ContentBlock.text?)

def AssistantMessage.toolUses (message : AssistantMessage) : List ToolUse :=
  message.content.filterMap ContentBlock.toolUse?

/-- A user message is the result of a tool where it carries one or names a tool use. -/
def normalizeUser [PyRepr] (message : UserMessage) : Event :=
  if message.toolUseResult ≠ .null ∨ message.parentToolUseId.getD "" ≠ "" then
    let content :=
      match message.toolUseResult with
      | .obj fields => (fields.get? "content").getD message.toolUseResult
      | other => other
    .toolResult message.parentToolUseId (contentToText (.value content))
      (((message.toolUseResult.get? "is_error").map JsonValue.truthy).getD false)
  else .user (contentToText message.content) message.uuid

def textDelta [PyRepr] (event : JsonObject) : Option (String × String) :=
  if event.get? "type" = some (.str "content_block_delta") then
    match event.get? "delta" with
    | some (.obj delta) =>
      if delta.get? "type" = some (.str "text_delta") then
        match delta.get? "text" with
        | some (.str text) =>
          if text = "" then none
          else some (((event.get? "index").map JsonValue.pyStr).getD "stream", text)
        | _ => none
      else none
    | _ => none
  else none

def normalizeSdkMessage [PyRepr] : RawMessage → Option Event
  | .event event => some event
  | .message (.user message) => some (normalizeUser message)
  | .message (.assistant message) => some (.assistant {
      text := message.text
      toolUses := message.toolUses
      model := message.model
      messageId := message.messageId
      uuid := message.uuid
      sessionId := message.sessionId })
  | .message (.result message) => some (.result message)
  | .message (.system _ data) => some (.system data none)
  | .message (.streamEvent event) =>
    (textDelta event).map (fun (itemId, delta) => .streamDelta itemId delta)
  | .message .other => none

inductive TurnStatus
  | idle
  | streaming
  | completed
  | interrupted
  | failed
deriving DecidableEq

inductive ItemType
  | user
  | assistant
  | toolCall
deriving DecidableEq

inductive Phase
  | intermediate
  | final
deriving DecidableEq

/-- An item with the keys it has besides its identifier and its type. -/
structure Item where
  id : String
  type : ItemType
  text : Option String := none
  phase : Option Phase := none
  title : Option String := none
  input : Option (Option String) := none
  running : Option Bool := none
  elided : Option Bool := none
  result : Option String := none
deriving DecidableEq

/-- `existing.update(item)` -/
def Item.update (existing item : Item) : Item where
  id := item.id
  type := item.type
  text := item.text <|> existing.text
  phase := item.phase <|> existing.phase
  title := item.title <|> existing.title
  input := item.input <|> existing.input
  running := item.running <|> existing.running
  elided := item.elided <|> existing.elided
  result := item.result <|> existing.result

def joinedText (prior incoming : String) : String :=
  if prior.toList.isPrefixOf incoming.toList then incoming
  else if prior ≠ "" ∧ ¬ incoming.toList.isSuffixOf prior.toList then prior ++ incoming
  else incoming

def Item.placedOver (item existing : Item) (replace : Bool) : Item :=
  if replace then item
  else
    match item.type, item.text with
    | .assistant, some incoming =>
      { existing with
        text := some (joinedText (existing.text.getD "") incoming)
        phase := item.phase <|> existing.phase }
    | _, _ => existing.update item

def Item.extend (item : Item) (delta : String) : Item :=
  { item with
    text := some (item.text.getD "" ++ delta)
    phase := some .intermediate }

def Item.withResult (item : Item) (content : String) (isError : Bool) : Item :=
  { item with
    result := some content
    running := some false
    elided := if isError then some false else item.elided }

/-- The first item with an identifier, and the items around it. -/
def locate (items : List Item) (itemId : String) : Option (List Item × Item × List Item) :=
  splitFirst (fun item => item.id = itemId) items

def findItem (items : List Item) (itemId : String) : Option Item :=
  (locate items itemId).map (fun (_, item, _) => item)

def modifyItem (items : List Item) (itemId : String) (change : Item → Item) : List Item :=
  match locate items itemId with
  | some (before, item, behind) => before ++ change item :: behind
  | none => items

def ensureItem (items : List Item) (itemId : String) (type : ItemType) : List Item :=
  match findItem items itemId with
  | some _ => items
  | none => items ++ [{ id := itemId, type, text := some "" }]

def upsertItem (items : List Item) (item : Item) (replace : Bool) : List Item :=
  match findItem items item.id with
  | some _ => modifyItem items item.id (fun existing => item.placedOver existing replace)
  | none => items ++ [item]

/-- Python's `value or default` of a text. -/
def textOr (value : Option String) (default : String) : String :=
  if value.getD "" = "" then default else value.getD ""

def setField (fields : JsonObject) (key : String) (value : JsonValue) : JsonObject :=
  match fields with
  | .nil => .cons key value .nil
  | .cons other old tail =>
    if other = key then .cons key value tail else .cons other old (setField tail key value)

def ToolUse.itemId (tool : ToolUse) (items : List Item) : String :=
  textOr tool.id ("tool:" ++ toString items.length)

def ToolUse.textInput (tool : ToolUse) (key : String) : Option String :=
  match tool.input.get? key with
  | some (.str text) => some text
  | _ => none

def ToolUse.title (tool : ToolUse) : String :=
  let name := textOr tool.name "tool"
  match tool.textInput "command" <|> tool.textInput "file_path" with
  | some detail => name ++ ": " ++ detail
  | none => name

def applyToolUse [PyRepr] (items : List Item) (tool : ToolUse) : List Item :=
  upsertItem items {
    id := tool.itemId items
    type := .toolCall
    title := some tool.title
    input := some (tool.textInput "command"
      <|> if tool.input = .null then none else some tool.input.pyStr)
    running := some true
    elided := some false } false

def finishLast (items : List Item) : List Item :=
  match splitFirst (fun item => item.type = .assistant) items.reverse with
  | some (later, item, earlier) =>
    earlier.reverse ++ { item with phase := some .final } :: later.reverse
  | none => items

def keepResult (items : List Item) (sessionId : Option String) (text : String) : List Item :=
  if items.any (fun item => item.type = .assistant) then finishLast items
  else
    items ++ [{
      id := "result:" ++ textOr sessionId "final"
      type := .assistant
      text := some text
      phase := some .final }]

structure ViewState where
  sessionId : Option String := none
  turnStatus : Option TurnStatus := none
  items : List Item := []
  modelId : Option String := none
  usage : Option JsonObject := none
  lastResultSubtype : Option String := none
deriving DecidableEq

def setText (current new : Option String) : Option String :=
  if new.getD "" = "" then current else new

namespace ViewState

variable (state : ViewState)

def applyUser (text : String) (uuid : Option String) : ViewState :=
  { state with
    items :=
      if text = "" then state.items
      else
        state.items ++ [{
          id := textOr uuid ("user:" ++ toString state.items.length)
          type := .user
          text := some text }]
    turnStatus := some .streaming }

def assistantItemId (uuid messageId : Option String) : String :=
  textOr uuid (textOr messageId ("asst:" ++ toString state.items.length))

def withText (event : AssistantEvent) : List Item :=
  if event.text = "" then state.items
  else
    upsertItem state.items {
      id := state.assistantItemId event.uuid event.messageId
      type := .assistant
      text := some event.text
      phase := some (if event.isPartial then .intermediate else .final) } (!event.isPartial)

def applyAssistant [PyRepr] (event : AssistantEvent) : ViewState :=
  { state with
    modelId := setText state.modelId event.model
    items := event.toolUses.foldl applyToolUse (state.withText event)
    turnStatus := some .streaming }

def applyToolResult (toolUseId : Option String) (content : String) (isError : Bool)
    : ViewState :=
  match toolUseId with
  | some itemId =>
    if itemId = "" then state
    else
      { state with
        items := modifyItem state.items itemId (·.withResult content isError) }
  | none => state

def resultStatus (subtype : Option String) : TurnStatus :=
  if subtype = some "success" then .completed
  else if subtype = some "error_during_execution" then .interrupted
  else .failed

def applyResult (message : ResultMessage) : ViewState :=
  { state with
    sessionId := setText state.sessionId message.sessionId
    lastResultSubtype := message.subtype
    usage :=
      match message.usage with
      | some usage =>
        some (match message.totalCostUsd with
          | some cost => setField usage "total_cost_usd" (.float cost)
          | none => usage)
      | none => state.usage
    turnStatus := some (resultStatus message.subtype)
    items :=
      if message.subtype = some "success" ∧ message.result.getD "" ≠ "" then
        keepResult state.items message.sessionId (message.result.getD "")
      else state.items }

def textOf : Option JsonValue → Option String
  | some (.str text) => some text
  | _ => none

def applySystem (data : JsonObject) (sessionId : Option JsonValue) : ViewState :=
  let named := (data.get? "session_id").filter JsonValue.truthy <|> sessionId
  { state with
    sessionId := setText state.sessionId (textOf named)
    modelId := setText state.modelId (textOf (data.get? "model")) }

def applyStreamDelta (itemId delta : String) : ViewState :=
  if delta = "" then state
  else
    let key := textOr (some itemId) "stream"
    { state with
      items := modifyItem (ensureItem state.items key .assistant) key (·.extend delta)
      turnStatus := some .streaming }

def applyEvent [PyRepr] : Event → ViewState
  | .user text uuid => state.applyUser text uuid
  | .assistant event => state.applyAssistant event
  | .toolResult toolUseId content isError => state.applyToolResult toolUseId content isError
  | .result message => state.applyResult message
  | .system data sessionId => state.applySystem data sessionId
  | .streamDelta itemId delta => state.applyStreamDelta itemId delta

end ViewState

end Murder.AgentSdk

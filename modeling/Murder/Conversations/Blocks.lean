import Mathlib.Data.List.Sort
import Murder.Contracts.Common
import Murder.Library.Tables
import Murder.Library.Transactions

/-! One conversation of the block store: a row per parsed segment, user turn or notice, in the
order of its ordinals, with at most one live block.
-/

namespace Murder.Conversations

open Murder.Contracts Library.Tables Library.Transactions

inductive BlockKind
  | user
  | assistantIntermediate
  | assistantFinal
  | toolCall
  | planUpdate
  | agentEvent
  | choicePrompt
  | notice
deriving DecidableEq

/-- `BLOCK_KINDS`, which the column's check constraint repeats. -/
def BlockKind.ofString? : String → Option BlockKind
  | "user" => some .user
  | "assistant_intermediate" => some .assistantIntermediate
  | "assistant_final" => some .assistantFinal
  | "tool_call" => some .toolCall
  | "plan_update" => some .planUpdate
  | "agent_event" => some .agentEvent
  | "choice_prompt" => some .choicePrompt
  | "notice" => some .notice
  | _ => none

/-- The kind of a segment, `none` when its text is no block kind; no text of another JSON
value is one.
-/
def segmentToBlockKind : JsonValue → Except Failure (Option BlockKind)
  | .obj fields =>
    match fields.get? "type" with
    | none => .error (.keyError "type")
    | some (.str "assistant") =>
      match fields.get? "phase" with
      | none => .ok (some .assistantIntermediate)
      | some (.str "intermediate") => .ok (some .assistantIntermediate)
      | some (.str "final") => .ok (some .assistantFinal)
      | some _ => .ok none
    | some (.str type) => .ok (BlockKind.ofString? type)
    | some _ => .ok none
  | .arr _ => .error (.typeError "list indices must be integers or slices, not str")
  | .str _ => .error (.typeError "string indices must be integers, not 'str'")
  | seg => .error (.typeError ("'" ++ seg.typeName ++ "' object is not subscriptable"))

/-- A row of `conversation_blocks`. -/
structure ConversationBlock where
  id : Nat
  ordinal : Nat
  kind : BlockKind
  payload : JsonValue
  sealed_ : Bool
  serviceReceivedAt : String
deriving DecidableEq

/-- Primary key `id`; unique `(repository_id, conversation_id, ordinal)`. -/
def blockClash (left right : ConversationBlock) : Bool :=
  left.id == right.id || left.ordinal == right.ordinal

/-- A row of `conversations`, without the columns no projection reads. -/
structure ConversationRow where
  agentId : String
  harness : Option String
  liveState : Option String
  status : String
deriving DecidableEq

/-- A row of the flat `agent_messages` log; its ordinal is its position. -/
structure AgentMessage where
  role : String
  body : String
  capturedAt : String
deriving DecidableEq

/-- One conversation with its agent's flat log and the invalidations appended for it. -/
structure Conversation where
  row : Option ConversationRow := none
  blocks : Table ConversationBlock blockClash := .empty
  lastBlockId : Nat := 0
  messages : List AgentMessage := []
  invalidations : Nat := 0

/-- A program over a conversation; every statement commits by itself. -/
abbrev ConversationSql (α : Type) := Program Conversation Failure α

variable (state : Conversation) (blockId : Nat) (seg : JsonValue) (receivedAt : String)

def Conversation.updateBlocks (where_ : ConversationBlock → Bool)
    (change : ConversationBlock → ConversationBlock)
    (keeps : Table.KeepsKeys blockClash change := by exact ⟨fun _ _ => rfl, fun _ _ => rfl⟩)
    : Conversation :=
  { state with blocks := state.blocks.update where_ change keeps }

def sealLiveBlock : Conversation :=
  state.updateBlocks (fun block => !block.sealed_) (fun block => { block with sealed_ := true })

def readConversationBlocks : List ConversationBlock :=
  state.blocks.rows.insertionSort (fun left right => left.ordinal ≤ right.ordinal)

def readBlockById : Option ConversationBlock :=
  state.blocks.find? (fun block => block.id == blockId)

/-- A streaming assistant turn or an unanswered choice prompt stays mutable. -/
def blockIsLive (kind : BlockKind) (seg : JsonValue) : Bool :=
  kind == .assistantIntermediate
    || (kind == .choicePrompt && !((seg.get? "answered").any JsonValue.truthy))

/-- `COALESCE(MAX(ordinal), -1) + 1`. -/
def nextOrdinal : Nat :=
  state.blocks.rows.foldl (fun next block => max next (block.ordinal + 1)) 0

def checkedKind (kind : Option BlockKind) : ConversationSql BlockKind :=
  orRaise kind .integrityError

def insertBlock (block : ConversationBlock) : ConversationSql Unit := fun state =>
  match state.blocks.insert? block with
  | some blocks => .ok () { state with blocks := blocks, lastBlockId := block.id }
  | none => .error .integrityError state

def appendBlock : ConversationSql ConversationBlock := do
  let kind ← fromExcept (segmentToBlockKind seg)
  modify sealLiveBlock
  let state ← get
  let kind ← checkedKind kind
  let block : ConversationBlock := {
    id := state.lastBlockId + 1
    ordinal := nextOrdinal state
    kind := kind
    payload := seg
    sealed_ := !blockIsLive kind seg
    serviceReceivedAt := receivedAt
  }
  insertBlock block
  pure block

def writeBlock (kind : BlockKind) (seg : JsonValue) (receivedAt : String) (state : Conversation)
    : Conversation :=
  state.updateBlocks (fun block => block.id == blockId) (fun block => {
    block with
      kind := kind
      payload := seg
      sealed_ := !blockIsLive kind seg
      serviceReceivedAt := receivedAt
  })

def updateLiveBlock : ConversationSql Bool := do
  let kind ← fromExcept (segmentToBlockKind seg)
  let state ← get
  match state.blocks.find? (fun block => !block.sealed_) with
  | none => pure false
  | some live => do
      let kind ← checkedKind kind
      modify (writeBlock live.id kind seg receivedAt)
      pure true

def textOf (payload : JsonValue) : Option String :=
  match payload.get? "text" with
  | some (.str text) => some text
  | _ => none

def growsText (old new : JsonValue) : Bool :=
  match textOf old, textOf new with
  | some old, some new => old.length < new.length && old.toList.isPrefixOf new.toList
  | _, _ => false

/-- A sealed assistant final is just a shorter prefix of the segment. -/
def sealedBlockCanGrow (existing : ConversationBlock) (seg : JsonValue)
    : Except Failure Bool :=
  if !existing.sealed_ || existing.kind != .assistantFinal then
    .ok false
  else do
    let kind ← segmentToBlockKind seg
    pure (kind == some existing.kind && growsText existing.payload seg)

def updateBlockById : ConversationSql (Option ConversationBlock) := do
  let kind ← fromExcept (segmentToBlockKind seg)
  let kind ← checkedKind kind
  modify (writeBlock blockId kind seg receivedAt)
  let state ← get
  pure (readBlockById state blockId)

section Order

variable [PyRepr]

def anchorText (block : ConversationBlock) : String :=
  strip ((block.payload.get? "text").getD (.str "")).pyStr

def placeBlocks : List JsonValue → List ConversationBlock → List ConversationBlock
    → Except Failure (List ConversationBlock × Bool)
  | [], _, _ => .ok ([], false)
  | .obj fields :: rest, unusedUsers, nonUsers =>
    if fields.get? "type" = some (.str "user") then
      match fields.get? "text" with
      | some (.str text) =>
        match unusedUsers.find? (fun block => anchorText block == strip text) with
        | some block => do
            let (placed, _) ← placeBlocks rest (unusedUsers.erase block) nonUsers
            pure (block :: placed, true)
        | none => placeBlocks rest unusedUsers nonUsers
      | _ => placeBlocks rest unusedUsers nonUsers
    else
      match nonUsers with
      | block :: nonUsers => do
          let (placed, matchedUser) ← placeBlocks rest unusedUsers nonUsers
          pure (block :: placed, matchedUser)
      | [] => placeBlocks rest unusedUsers []
  | segment :: _, _, _ =>
    .error (.attributeError ("'" ++ segment.typeName ++ "' object has no attribute 'get'"))

/-- `UPDATE ... SET ordinal` of one row. -/
def setOrdinal (ordinal : Nat → Nat) : ConversationSql Unit := fun state =>
  match state.blocks.replace? (fun block => block.id == blockId)
      (fun block => { block with ordinal := ordinal block.ordinal }) with
  | some blocks => .ok () { state with blocks := blocks }
  | none => .error .integrityError state

/-- Move every ordinal up, row after row. -/
def offsetOrdinals (offset : Nat) : ConversationSql Unit := do
  let state ← get
  state.blocks.rows.forM (fun block => setOrdinal block.id (fun ordinal => ordinal + offset))

/-- Number the blocks in the given order. -/
def renumber (orderedIds : List Nat) : ConversationSql Unit :=
  orderedIds.zipIdx.forM (fun (blockId, ordinal) => setOrdinal blockId (fun _ => ordinal))

/-- Restore user and assistant interleaving; parsed user segments are position anchors only.
The result maps the blocks to their new ordinals.
-/
def restoreParsedTurnOrder (parsedSegments : List JsonValue)
    : ConversationSql (List (Nat × Nat)) := do
  let state ← get
  let blocks := readConversationBlocks state
  let users := blocks.filter (fun block => block.kind == .user)
  let nonUsers := blocks.filter (fun block => block.kind != .user && block.kind != .notice)
  if users = [] ∨ nonUsers = [] then
    pure []
  else
    let (placed, matchedUser) ← fromExcept (placeBlocks parsedSegments users nonUsers)
    let ordered := placed
      ++ blocks.filter (fun block => !placed.any (fun other => other.id == block.id))
    if !matchedUser ∨ ordered.map ConversationBlock.id = blocks.map ConversationBlock.id then
      pure []
    else
      let orderedIds := ordered.map ConversationBlock.id
      offsetOrdinals (blocks.length + 1)
      renumber orderedIds
      pure orderedIds.zipIdx

end Order

end Murder.Conversations

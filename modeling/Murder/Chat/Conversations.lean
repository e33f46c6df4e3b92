import Mathlib.Data.Finset.Card
import Mathlib.Data.List.Sort
import Murder.Library.Records
import Murder.Library.Runs

/-! The conversations slice of the client store: the transcripts of the last snapshot, the messages
sent and not yet confirmed, and the actions that update them as a transition system.
-/

namespace Murder.Chat

open Library.Records

/-- The segment dict of a block, by the fields the store reads; a field is present when it
is a string.
-/
structure Segment where
  type : Option String := none
  clientMessageId : Option String := none
deriving DecidableEq

inductive WireId
  | number (value : Int)
  | text (value : String)
  | absent
deriving DecidableEq

/-- A block row. `payload` is missing when it is not an object, and `row` is the row itself
read as a segment.
-/
structure ConversationBlockSummaryDto where
  id : WireId := .absent
  kind : Option String := none
  payload : Option Segment := none
  row : Segment := { }
deriving DecidableEq

structure ConversationChunkSummaryDto where
  summaryId : Int
  chunkIdx : Int
  summary : String
  blockIds : List Int
deriving DecidableEq

structure ConversationSummaryDto where
  agentId : String
  liveState : Option String := none
  queuedMessage : Option String := none
  chunkSummaries : List ConversationChunkSummaryDto := []
  blocks : List ConversationBlockSummaryDto := []
deriving DecidableEq

/-- The in-progress conversations, one for each agent. -/
structure ConversationsSnapshotReply where
  conversations : List ConversationSummaryDto
  oneEach : (conversations.map ConversationSummaryDto.agentId).Nodup

structure ConversationBlock where
  type : String
  kind : Option String
  id : Option String
  raw : Segment
deriving DecidableEq

def parseBlock (raw : ConversationBlockSummaryDto) : ConversationBlock :=
  let payload := raw.payload.getD raw.row
  { type := payload.type.getD "unknown"
    kind := raw.kind
    id :=
      match raw.id with
      | .number value => some (toString value)
      | .text value => some value
      | .absent => none
    raw := payload }

structure ConversationMeta where
  liveState : Option String
  queuedMessage : Option String
deriving DecidableEq

structure ChunkSummary where
  summaryId : Int
  chunkIdx : Int
  summary : String
  blockIds : List Int
deriving DecidableEq

structure ProjectedConversationsSnapshot where
  transcripts : Record String (List ConversationBlock)
  conversationMeta : Record String ConversationMeta
  chunkSummaries : Record String (List ChunkSummary)

variable (reply : ConversationsSnapshotReply) (pendingByAgent : PendingByAgent) (clientId : String)
  (status : PendingStatus)

def projectConversationsSnapshot : ProjectedConversationsSnapshot where
  transcripts := index (·.agentId) (fun conv => conv.blocks.map parseBlock) reply.conversations
  conversationMeta :=
    index (·.agentId)
      (fun conv => { liveState := conv.liveState, queuedMessage := conv.queuedMessage })
      reply.conversations
  chunkSummaries :=
    index (·.agentId)
      (fun conv =>
        (conv.chunkSummaries.map (fun s =>
          { summaryId := s.summaryId, chunkIdx := s.chunkIdx, summary := s.summary,
            blockIds := s.blockIds : ChunkSummary })).insertionSort
          (fun a b => a.chunkIdx ≤ b.chunkIdx))
      reply.conversations

inductive PendingStatus
  | sending
  | accepted
  | queued
  | failed
  | unknown
deriving DecidableEq

structure PendingSend where
  clientId : String
  agentId : String
  text : String
  createdAt : Int
  status : PendingStatus
deriving DecidableEq

abbrev PendingByAgent := Record String (List PendingSend)

def confirmedId (block : ConversationBlock) : Option String :=
  if block.type ≠ "user" then none
  else
    match block.raw.clientMessageId with
    | some clientId => if clientId ≠ "" then some clientId else none
    | none => none

def confirmedClientMessageIds (transcripts : Record String (List ConversationBlock))
    : Finset String :=
  ((everything transcripts).filterMap confirmedId).toFinset

/-- The items of one agent that no authoritative block confirms. -/
def unconfirmed (confirmedIds : Finset String) (pending : List PendingSend)
    : List PendingSend :=
  pending.filter (fun item => item.clientId ∉ confirmedIds)

def reconcilePendingByAgent (confirmedIds : Finset String) : PendingByAgent :=
  if confirmedIds.card = 0 then pendingByAgent
  else
    let next :=
      rebuild (fun pending =>
        let kept := unconfirmed confirmedIds pending
        if 0 < kept.length then some kept else none) pendingByAgent
    let changed :=
      pendingByAgent.entries.any (fun entry =>
        (unconfirmed confirmedIds entry.2).length ≠ entry.2.length
          || ((unconfirmed confirmedIds entry.2).length = 0 && 0 < entry.2.length))
    if changed then next else pendingByAgent

def appendPending (item : PendingSend) : PendingByAgent :=
  let existing := (pendingByAgent.lookup item.agentId).getD []
  pendingByAgent.insert item.agentId (existing ++ [item])

def patchItem (item : PendingSend) : PendingSend :=
  if item.clientId ≠ clientId ∨ item.status = status then item
  else { item with status := status }

def patchPending (agentId clientId : String) (status : PendingStatus) : PendingByAgent :=
  match pendingByAgent.lookup agentId with
  | none => pendingByAgent
  | some existing =>
    let changed :=
      existing.any (fun item => ¬ (item.clientId ≠ clientId ∨ item.status = status))
    if ¬ changed then pendingByAgent
    else pendingByAgent.insert agentId (existing.map (patchItem clientId status))

structure ConversationsState where
  transcripts : Record String (List ConversationBlock)
  pendingByAgent : PendingByAgent
  conversationMeta : Record String ConversationMeta
  chunkSummaries : Record String (List ChunkSummary)
  activePaneAgentId : Option String

def initialConversationsState : ConversationsState where
  transcripts := ∅
  pendingByAgent := ∅
  conversationMeta := ∅
  chunkSummaries := ∅
  activePaneAgentId := none

def applyConversationsSnapshot (state : ConversationsState) (reply : ConversationsSnapshotReply)
    : ConversationsState :=
  let projected := projectConversationsSnapshot reply
  { state with
    transcripts := projected.transcripts
    conversationMeta := projected.conversationMeta
    chunkSummaries := projected.chunkSummaries
    pendingByAgent :=
      reconcilePendingByAgent state.pendingByAgent
        (confirmedClientMessageIds projected.transcripts) }

@[simp] theorem confirmedId_eq_some {block : ConversationBlock} {clientId : String}
    : confirmedId block = some clientId
      ↔ block.type = "user" ∧ block.raw.clientMessageId = some clientId ∧ clientId ≠ "" := by
  rw [confirmedId]
  by_cases user : block.type = "user"
  · cases carried : block.raw.clientMessageId with
    | none => simp [user]
    | some other =>
      rcases eq_or_ne other clientId with same | different
      · simp [user, same]
      · by_cases blank : other = "" <;> simp [user, blank, different]
  · simp [user]

def ConversationsSnapshotReply.HasUserBlock : Prop :=
  ∃ conv ∈ reply.conversations, ∃ row ∈ conv.blocks,
    (parseBlock row).type = "user" ∧ (parseBlock row).raw.clientMessageId = some clientId

theorem mem_confirmed_projected {reply : ConversationsSnapshotReply} {clientId : String}
    : clientId ∈ confirmedClientMessageIds (projectConversationsSnapshot reply).transcripts
      ↔ clientId ≠ "" ∧ reply.HasUserBlock clientId := by
  simp only [confirmedClientMessageIds, List.mem_toFinset, List.mem_filterMap, mem_everything,
    confirmedId_eq_some]
  have held {agentId : String} {blocks : List ConversationBlock}
      : (projectConversationsSnapshot reply).transcripts.lookup agentId = some blocks
        ↔ ∃ conv ∈ reply.conversations,
            conv.agentId = agentId ∧ conv.blocks.map parseBlock = blocks :=
    lookup_index reply.oneEach
  constructor
  · intro found
    obtain ⟨block, ⟨agentId, inside⟩, user, carried, named⟩ := found
    refine ⟨named, ?_⟩
    cases entry : (projectConversationsSnapshot reply).transcripts.lookup agentId with
    | none => simp [listAt, entry] at inside
    | some blocks =>
      obtain ⟨conv, listed, -, rfl⟩ := held.mp entry
      have member : block ∈ conv.blocks.map parseBlock := by
        simpa [listAt, entry] using inside
      obtain ⟨row, rowMember, rfl⟩ := List.mem_map.mp member
      exact ⟨conv, listed, row, rowMember, user, carried⟩
  · intro found
    obtain ⟨named, conv, listed, row, rowMember, user, carried⟩ := found
    refine ⟨parseBlock row, ⟨conv.agentId, ?_⟩, user, carried, named⟩
    rw [listAt, held.mpr ⟨conv, listed, rfl, rfl⟩]
    exact List.mem_map_of_mem rowMember

@[simp] theorem patchItem_clientId (item : PendingSend)
    : (patchItem clientId status item).clientId = item.clientId := by
  rw [patchItem]
  split <;> rfl

@[simp] theorem patchItem_agentId (item : PendingSend)
    : (patchItem clientId status item).agentId = item.agentId := by
  rw [patchItem]
  split <;> rfl

theorem patchItem_status (item : PendingSend)
    : (patchItem clientId status item).status
      = if item.clientId = clientId then status else item.status := by
  rw [patchItem]
  by_cases own : item.clientId = clientId <;> by_cases already : item.status = status <;>
    simp [own, already]

@[simp] theorem listAt_appendPending (item : PendingSend) (agentId : String)
    : listAt (appendPending pendingByAgent item) agentId
      = listAt pendingByAgent agentId ++ if agentId = item.agentId then [item] else [] := by
  rw [appendPending, listAt_insert]
  rcases eq_or_ne agentId item.agentId with own | other
  · subst own
    simp [listAt]
  · simp [other]

@[simp] theorem listAt_patchPending (agentId clientId name : String) (status : PendingStatus)
    : listAt (patchPending pendingByAgent agentId clientId status) name
      = if name = agentId then (listAt pendingByAgent name).map (patchItem clientId status)
        else listAt pendingByAgent name := by
  cases entry : pendingByAgent.lookup agentId with
  | none =>
    rw [patchPending, entry]
    rcases eq_or_ne name agentId with own | other
    · subst own
      simp [listAt, entry]
    · simp [other]
  | some existing =>
    rw [patchPending, entry]
    dsimp only
    have held : listAt pendingByAgent agentId = existing := by simp [listAt, entry]
    split
    next unchanged =>
      -- every item of this agent is left as it is
      have same : existing.map (patchItem clientId status) = existing := by
        refine (List.map_congr_left ?_).trans (List.map_id existing)
        intro item member
        have kept : item.clientId ≠ clientId ∨ item.status = status := by
          by_contra touched
          exact unchanged (List.any_eq_true.mpr ⟨item, member, decide_eq_true touched⟩)
        rw [patchItem, if_pos kept, id]
      rcases eq_or_ne name agentId with own | other
      · subst own
        simp [held, same]
      · simp [other]
    next changed =>
      rw [listAt_insert]
      rcases eq_or_ne name agentId with own | other
      · subst own
        simp [held]
      · simp [other]

@[simp] theorem listAt_reconcilePendingByAgent (confirmedIds : Finset String) (agentId : String)
    : listAt (reconcilePendingByAgent pendingByAgent confirmedIds) agentId
      = unconfirmed confirmedIds (listAt pendingByAgent agentId) := by
  rw [reconcilePendingByAgent]
  split
  next none_ =>
    rw [Finset.card_eq_zero.mp none_]
    simp [unconfirmed]
  next some_ =>
    dsimp only
    split
    next changed =>
      rw [listAt, lookup_rebuild, listAt]
      cases pendingByAgent.lookup agentId with
      | none => simp [unconfirmed]
      | some pending =>
        rw [Option.bind_some, Option.getD_some]
        split
        next kept => rfl
        next dropped => exact (List.eq_nil_of_length_eq_zero (by omega)).symm
    next unchanged =>
      -- nothing was dropped from any list
      cases entry : pendingByAgent.lookup agentId with
      | none => simp [listAt, entry, unconfirmed]
      | some pending =>
        have held : listAt pendingByAgent agentId = pending := by simp [listAt, entry]
        have member := AList.mem_lookup_iff.mp entry
        have all : (unconfirmed confirmedIds pending).length = pending.length := by
          by_contra fewer
          apply unchanged
          apply List.any_eq_true.mpr
          exact ⟨_, member, by simp [fewer]⟩
        rw [held]
        exact (List.filter_eq_self.mpr (List.length_filter_eq_length_iff.mp all)).symm

/-- The fields of an `agent.message` result that delivery reads; a field is present when it
is a boolean.
-/
structure CommandResult where
  ok : Option Bool := none
  handled : Option Bool := none
  queued : Option Bool := none
deriving DecidableEq

inductive CommandReply
  | result (result : CommandResult)
  | thrown
deriving DecidableEq

def isDefinitiveRejection (result : CommandResult) : Bool :=
  result.ok = some false || result.handled = some false

/-- What `deliverPending` does to the store when its command settles. -/
def deliverPending (state : ConversationsState) (pending : PendingSend)
    : CommandReply → ConversationsState
  | .result result =>
    if isDefinitiveRejection result then
      { state with
        pendingByAgent :=
          patchPending state.pendingByAgent pending.agentId pending.clientId .failed }
    else
      let status : PendingStatus := if result.queued = some true then .queued else .accepted
      let withStatus :=
        patchPending state.pendingByAgent pending.agentId pending.clientId status
      { state with
        pendingByAgent :=
          reconcilePendingByAgent withStatus (confirmedClientMessageIds state.transcripts) }
  | .thrown =>
    { state with
      pendingByAgent :=
        patchPending state.pendingByAgent pending.agentId pending.clientId .unknown }

/-- A delivery attempt, and whether its command has settled. -/
structure Attempt where
  pending : PendingSend
  settled : Bool

/-- What the past of a run has sent and shown. -/
inductive Entry
  | sent (agentId clientId : String)
  | applied (reply : ConversationsSnapshotReply)

/-- The store with the flows in progress. `attempts` has the latest attempt first, `requests`
the tokens of refreshes awaiting a reply, and `history` is what happened so far.
-/
structure Store where
  conversations : ConversationsState
  seq : Nat
  requests : List Nat
  attempts : List Attempt
  history : List Entry

namespace Store

def initial : Store where
  conversations := initialConversationsState
  seq := 0
  requests := []
  attempts := []
  history := []

def hydrate (store : Store) (reply : ConversationsSnapshotReply) : Store :=
  { store with
    conversations := applyConversationsSnapshot store.conversations reply
    history := store.history ++ [.applied reply] }

def refresh (store : Store) : Store :=
  { store with seq := store.seq + 1, requests := (store.seq + 1) :: store.requests }

def refreshed (store : Store) (token : Nat) (reply : Option ConversationsSnapshotReply) : Store :=
  let store := { store with requests := store.requests.erase token }
  match reply with
  | none => store
  | some reply => if token ≠ store.seq then store else store.hydrate reply

def send (store : Store) (agentId clientId message : String) (now : Int) : Store :=
  let pending : PendingSend :=
    { clientId := clientId, agentId := agentId, text := message, createdAt := now,
      status := .sending }
  { store with
    conversations :=
      { store.conversations with
        pendingByAgent := appendPending store.conversations.pendingByAgent pending
        activePaneAgentId := some agentId }
    attempts := { pending := pending, settled := false } :: store.attempts
    history := store.history ++ [.sent agentId clientId] }

def retryPending (store : Store) (agentId clientId : String) : Store :=
  let found :=
    (store.conversations.pendingByAgent.lookup agentId).bind
      (fun items => items.find? (fun item => item.clientId = clientId))
  match found with
  | none => store
  | some pending =>
    if pending.status ≠ .failed ∧ pending.status ≠ .unknown then store
    else
      { store with
        conversations :=
          { store.conversations with
            pendingByAgent :=
              patchPending store.conversations.pendingByAgent agentId clientId .sending }
        attempts :=
          { pending := { pending with status := .sending }, settled := false }
            :: store.attempts }

def replied (store : Store) (position : Nat) (attempt : Attempt) (reply : CommandReply) : Store :=
  { store with
    conversations := deliverPending store.conversations attempt.pending reply
    attempts := store.attempts.set position { attempt with settled := true } }

end Store

/-- A client id nobody has used: no earlier send drew it and no snapshot applied so far has
it. The empty id is never drawn.
-/
structure NewClientMessageId (history : List Entry) (clientId : String) : Prop where
  named : clientId ≠ ""
  unsent : ∀ agentId, Entry.sent agentId clientId ∉ history
  unseen : ∀ reply, Entry.applied reply ∈ history → ¬ reply.HasUserBlock clientId

inductive Event
  | send (agentId clientId message : String) (now : Int)
  | retryPending (agentId clientId : String)
  | replied (position : Nat) (reply : CommandReply)
  | refresh
  | refreshed (token : Nat) (reply : Option ConversationsSnapshotReply)
  | hydrate (reply : ConversationsSnapshotReply)

/-- One event of the user, the transport or the server. -/
inductive Step : Store → Event → Store → Prop
  | send {store agentId clientId message now}
    (drawn : NewClientMessageId store.history clientId)
    : Step store (.send agentId clientId message now) (store.send agentId clientId message now)
  | retryPending {store agentId clientId}
    : Step store (.retryPending agentId clientId) (store.retryPending agentId clientId)
  | replied {store position attempt reply} (started : store.attempts[position]? = some attempt)
    (open_ : attempt.settled = false)
    : Step store (.replied position reply) (store.replied position attempt reply)
  | refresh {store} : Step store .refresh store.refresh
  | refreshed {store token reply} (asked : token ∈ store.requests)
    : Step store (.refreshed token reply) (store.refreshed token reply)
  | hydrate {store reply} : Step store (.hydrate reply) (store.hydrate reply)

def Run (events : List Event) (store : Store) : Prop :=
  Library.Runs.Run (· = Store.initial) Step events store

end Murder.Chat

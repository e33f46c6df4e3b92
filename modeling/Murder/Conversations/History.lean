import Murder.Conversations.TurnOrder

/-! The history of a conversation's blocks over every run of its writers: ordinals without a
gap, one live block at the end, and sealed payloads that stay or grow.
-/

namespace Murder.Conversations

open Murder.Contracts Library.Runs Library.Tables Library.Transactions

/-- The stored blocks a merge walks over are distinct. -/
theorem zip_distinct {blocks : List ConversationBlock} {segments : List JsonValue}
    (distinct : blocks.Pairwise (fun left right => left.id ≠ right.id))
    (fits : blocks.length ≤ segments.length)
    : (blocks.zip segments).Pairwise (fun left right => left.1.id ≠ right.1.id) := by
  have firsts : (blocks.zip segments).map Prod.fst = blocks := List.map_fst_zip fits
  have pairwise : ((blocks.zip segments).map Prod.fst).Pairwise (fun left right =>
      left.id ≠ right.id) := by
    rw [firsts]
    exact distinct
  rw [List.pairwise_map] at pairwise
  exact pairwise

theorem mergeNonUserSegments_keeping (segments : List JsonValue)
    (receivedAt : Option String) (now : String)
    : Relates Keeping (mergeNonUserSegmentsWithChanges segments receivedAt now) := by
  intro start
  unfold mergeNonUserSegmentsWithChanges
  dsimp only
  split
  · exact refl_of Keeping start
  rw [get_bind]
  split
  · exact refl_of Keeping start
  · next fits =>
      refine related_bind (fun arranged => ?_) (fun changes => ?_)
      · refine mergeStoredBlocks_keeping arranged (fun pair held => ?_)
          (zip_distinct ((readConversationBlocks_ids start).filter _) (by omega))
        have read := List.mem_of_mem_filter (List.of_mem_zip held).1
        exact mem_readConversationBlocks.mp read
      · exact .bind (appendSegments_keeping _ _ _) (fun appended => .pure _)

/-- A modification beside the blocks. -/
theorem modify_keeping {update : Conversation → Conversation}
    (blocks : ∀ state, (update state).blocks = state.blocks)
    (issued : ∀ state, (update state).lastBlockId = state.lastBlockId)
    : Relates Keeping (modify update : ConversationSql PUnit) :=
  .modify (fun state => keeping_of_blocks (blocks state) (issued state))

theorem EmptyConversation.arranged {state : Conversation} (empty : EmptyConversation state)
    : Arranged state := by
  unfold EmptyConversation at empty
  constructor
  · rw [empty]
    exact .nil
  · intro block member
    rw [Table.mem_def, empty] at member
    cases member
  · rw [empty]
    exact .refl _
  · rw [empty]
    exact .nil
  · intro block member
    rw [Table.mem_def, empty] at member
    cases member

section Calls

variable [PyRepr]

theorem restoreParsedTurnOrder_keeping (segments : List JsonValue)
    : Relates Keeping (restoreParsedTurnOrder segments) := by
  intro start arranged
  rcases restoreParsedTurnOrder_outcome arranged segments with
    ⟨reordered, stop, returned, restored⟩ | ⟨⟨message, raised⟩, -⟩
  · rw [final_of_returns returned]
    exact restored.keeping arranged
  · rw [final_of_raises raised]
    exact ⟨arranged, .refl start⟩

variable [RealText]

/-- A call writes through its appends, merges and reorders, and otherwise beside the blocks. -/
theorem exec_relates {relation : Conversation → Conversation → Prop}
    [IsPreorder Conversation relation]
    (beside
      : ∀ {update : Conversation → Conversation},
          (∀ state, (update state).blocks = state.blocks)
          → (∀ state, (update state).lastBlockId = state.lastBlockId)
          → Relates relation (modify update : ConversationSql PUnit))
    (appends : ∀ seg receivedAt, Relates relation (appendBlock seg receivedAt))
    (merges
      : ∀ segments receivedAt now,
          Relates relation (mergeNonUserSegmentsWithChanges segments receivedAt now))
    (reorders : ∀ segments, Relates relation (restoreParsedTurnOrder segments))
    (op : ConversationOp)
    : Relates relation op.exec := by
  cases op with
  | appendUserMessage agentId text clientMessageId receivedAt now =>
    refine Relates.bind ?_ (fun _ => .pure _)
    unfold appendUserMessage
    dsimp only
    split
    · exact .pure _
    refine Relates.bind (beside (fun _ => rfl) (fun _ => rfl)) (fun _ => ?_)
    refine Relates.bind (appends _ _) (fun block => ?_)
    refine Relates.bind (beside (fun _ => rfl) (fun _ => rfl)) (fun _ => ?_)
    exact .bind (beside (fun _ => rfl) (fun _ => rfl)) (fun _ => .pure _)
  | appendNotice agentId message severity receivedAt now =>
    refine Relates.bind ?_ (fun _ => .pure _)
    unfold appendNotice
    dsimp only
    split
    · exact .pure _
    refine Relates.bind (beside (fun _ => rfl) (fun _ => rfl)) (fun _ => ?_)
    refine Relates.bind (appends _ _) (fun block => ?_)
    exact .bind (beside (fun _ => rfl) (fun _ => rfl)) (fun _ => .pure _)
  | projectParsedDoc agentId doc receivedAt now =>
    refine Relates.bind ?_ (fun _ => .pure _)
    refine Relates.bind (.fromExcept _) (fun segments => ?_)
    refine Relates.bind .get (fun before => ?_)
    refine Relates.bind (.fromExcept _) (fun harness => ?_)
    refine Relates.bind (.fromExcept _) (fun liveState => ?_)
    refine Relates.bind (beside (fun _ => rfl) (fun _ => rfl)) (fun _ => ?_)
    refine Relates.bind (merges _ _ _) (fun changes => ?_)
    refine Relates.bind (reorders _) (fun reordered => ?_)
    refine Relates.bind .get (fun after => ?_)
    refine Relates.bind (beside (fun _ => rfl) (fun _ => rfl)) (fun _ => ?_)
    split
    · exact .bind (beside (fun _ => rfl) (fun _ => rfl)) (fun _ => .pure _)
    · exact .pure _

/-- Every call keeps the arrangement and carries every block, however it ends. -/
theorem exec_keeping (op : ConversationOp) : Relates Keeping op.exec :=
  exec_relates modify_keeping appendBlock_keeping mergeNonUserSegments_keeping
    restoreParsedTurnOrder_keeping op

/-- A run keeps the arrangement and carries every block. -/
theorem steps_keeping {start stop : Conversation} {events : List ConversationOp}
    (run : Steps ConversationStep start events stop)
    : Keeping start stop := by
  refine run.related (fun s event t step => ?_)
  cases step with
  | call => exact exec_keeping event s

/-- What later states hold of a block: a user turn for good, a sealed payload as it is or
replaced by an assistant final whose text extends its own.
-/
structure KeptBlock (old new : ConversationBlock) : Prop where
  id : new.id = old.id
  user : old.kind = .user → new.kind = .user ∧ new.payload = old.payload
  payload : old.sealed_ = true → new.payload = old.payload ∨ Grown old new

/-- The blocks of a conversation: ordinals without a gap, which no restored order makes
collide, one live block behind every other, and a history in which blocks are kept.
-/
structure BlocksSound (state : Conversation) : Prop where
  ordinals
    : (state.blocks.rows.map ConversationBlock.ordinal).Perm
        (List.range state.blocks.rows.length)
  oneLive
    : ∀ block ∈ state.blocks,
        ∀ other ∈ state.blocks,
          block.sealed_ = false → other.sealed_ = false → block = other
  liveLast
    : ∀ block ∈ state.blocks,
        block.sealed_ = false → ∀ other ∈ state.blocks, other.id ≤ block.id
  noCollision
    : ∀ agentId harness liveState nonUser receivedAt now changes merged,
        Returns (mergeNonUserSegmentsWithChanges nonUser receivedAt now)
          (upsertConversation agentId harness liveState state) changes merged
        → ∀ segments raised stop,
            Raises (restoreParsedTurnOrder segments) merged raised stop
            → (∃ message, raised = .attributeError message) ∧ stop = merged
  kept
    : ∀ events stop,
        Steps ConversationStep state events stop
        → ∀ old ∈ state.blocks, ∃ new ∈ stop.blocks, KeptBlock old new

theorem Arranged.blocksSound {state : Conversation} (arranged : Arranged state)
    : BlocksSound state := by
  refine ⟨arranged.ordinals, ?_, ?_, ?_, ?_⟩
  · intro block member other stored lb lo
    exact arranged.eq_of_live member stored lb lo
  · intro block member live other stored
    obtain ⟨i, hi, rfl⟩ := List.getElem_of_mem member
    obtain ⟨j, hj, rfl⟩ := List.getElem_of_mem stored
    rcases Nat.lt_trichotomy i j with less | same | more
    · have sealed_ := List.pairwise_iff_getElem.mp arranged.live i j hi hj less
      rw [live] at sealed_
      cases sealed_
    · simp [same]
    · have less := List.pairwise_iff_getElem.mp arranged.created j i hj hi more
      omega
  · intro agentId harness liveState nonUser receivedAt now changes merged returned
      segments raised stop refused
    have kept : Keeping state (upsertConversation agentId harness liveState state) :=
      keeping_of_blocks rfl rfl
    have upserted : Arranged (upsertConversation agentId harness liveState state) :=
      (kept arranged).1
    have arranged' :=
      ((mergeNonUserSegments_keeping nonUser receivedAt now).returns returned upserted).1
    rcases restoreParsedTurnOrder_outcome arranged' segments with
      ⟨reordered, other, returned', -⟩ | ⟨⟨message, refused'⟩, -⟩
    · unfold Raises at refused
      rw [returned'] at refused
      cases refused
    · unfold Raises at refused refused'
      rw [refused'] at refused
      cases refused
      exact ⟨⟨message, rfl⟩, rfl⟩
  · intro events stop run old member
    obtain ⟨new, stored, carried⟩ := (steps_keeping run arranged).2 old member
    refine ⟨new, stored, carried.id, fun user => ?_, fun sealed_ => ?_⟩
    · rcases carried.payload (arranged.users old member user) with ⟨kind, payload⟩ | grown
      · exact ⟨kind.trans user, payload⟩
      · have final_ := grown.before
        rw [user] at final_
        cases final_
    · rcases carried.payload sealed_ with ⟨-, payload⟩ | grown
      · exact .inl payload
      · exact .inr grown

/-- Every run of the writers of one conversation keeps its blocks sound. -/
theorem blocksSound_of_empty {start : Conversation} (empty : EmptyConversation start)
    {events : List ConversationOp} {state : Conversation}
    (run : Steps ConversationStep start events state)
    : BlocksSound state :=
  (steps_keeping run empty.arranged).1.blocksSound

end Calls

namespace Answers

scoped instance : PyRepr := ⟨fun _ => ""⟩

scoped instance : RealText := ⟨fun _ => ""⟩

/-- A final answer as the parser emits it, with the time its turn took. -/
def answer (text : String) (elapsed : JsonValue) : JsonValue :=
  .obj (.ofList [("type", .str "assistant"), ("phase", .str "final"), ("text", .str text),
    ("elapsed", elapsed)])

def docOf (segments : List JsonValue) : JsonObject :=
  .ofList [("segments", .arr (.ofList segments))]

/-- A turn, its final answer, and the answer parsed again with more text and its time. -/
def events : List ConversationOp :=
  [.appendUserMessage "agent" "question" none none "t0",
    .projectParsedDoc "agent" (docOf [answer "a" .null]) none "t1",
    .projectParsedDoc "agent" (docOf [answer "ab" (.str "3s")]) none "t2"]

def after (calls : List ConversationOp) : Conversation :=
  calls.foldl (fun state call => final (call.exec state)) {}

theorem steps_after (state : Conversation) (calls : List ConversationOp)
    : Steps ConversationStep state calls
        (calls.foldl (fun state call => final (call.exec state)) state) := by
  induction calls generalizing state with
  | nil => exact .nil state
  | cons call rest ih => exact .cons (.call state call) (ih _)

theorem blocksSound_after : EmptyConversation {} ∧ BlocksSound (after events) :=
  have empty : EmptyConversation {} := rfl
  ⟨empty, blocksSound_of_empty empty (steps_after {} events)⟩

/-- A sealed answer grows and takes another field along, not its text only. -/
theorem elapsed_of_sealed_changes
    : Steps ConversationStep {} (events.take 2) (after (events.take 2))
      ∧ Steps ConversationStep (after (events.take 2)) (events.drop 2) (after events)
      ∧ ∃ old ∈ (after (events.take 2)).blocks.rows,
          ∃ new ∈ (after events).blocks.rows,
            old.sealed_ = true ∧ new.id = old.id
            ∧ old.payload.get? "elapsed" = some .null
            ∧ new.payload.get? "elapsed" = some (.str "3s") := by
  refine ⟨steps_after _ _, steps_after _ _, ?_⟩
  decide +kernel

end Answers

end Murder.Conversations

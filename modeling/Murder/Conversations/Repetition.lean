import Murder.Contracts.Equality
import Murder.Conversations.Placement
import Murder.Conversations.Transcripts

/-! Projecting one document twice: what a merge leaves of every block, where the restored
order puts it, and when the second projection finds nothing left to do.
-/

namespace Murder.Conversations

open Murder.Contracts Library.Runs Library.Tables Library.Transactions

----------------------------------------
-- Final answers are sealed
----------------------------------------

def FinalsSealed (state : Conversation) : Prop :=
  ∀ block ∈ state.blocks, block.kind = .assistantFinal → block.sealed_ = true

theorem finalsSealed_of_blocks {start stop : Conversation} (blocks : stop.blocks = start.blocks)
    : Preserves FinalsSealed start stop := by
  intro finals block member
  rw [blocks] at member
  exact finals block member

theorem writeBlock_finals (blockId : Nat) (kind : BlockKind) (seg : JsonValue)
    (receivedAt : String) (state : Conversation)
    : Preserves FinalsSealed state (writeBlock blockId kind seg receivedAt state) := by
  intro finals block member final_
  simp only [writeBlock, Conversation.updateBlocks, Table.mem_update] at member
  obtain ⟨old, held, rfl⟩ := member
  split at final_
  · next same =>
      rw [if_pos same]
      change kind = .assistantFinal at final_
      rw [final_]
      rfl
  · next other =>
      rw [if_neg other]
      exact finals old held final_

theorem sealLiveBlock_finals (state : Conversation)
    : Preserves FinalsSealed state (sealLiveBlock state) :=
  fun _ _ member _ => sealLiveBlock_sealed member

theorem appendBlock_finals (seg : JsonValue) (receivedAt : String)
    : Relates (Preserves FinalsSealed) (appendBlock seg receivedAt) := by
  apply Relates.intro
  · intro start block stop h finals other member final_
    have appended := appendBlock_returns h
    rw [Table.mem_def, appended.rows, List.mem_append, List.mem_singleton] at member
    rcases member with old | rfl
    · exact sealLiveBlock_sealed old
    · rw [appended.sealed_, final_]
      rfl
  · intro start raised stop h
    rcases appendBlock_raises h with rfl | rfl
    · exact refl_of (Preserves FinalsSealed) _
    · exact sealLiveBlock_finals start

section Merges

variable {relation : Conversation → Conversation → Prop} [IsPreorder Conversation relation]
  (writes
    : ∀ blockId kind seg receivedAt state,
        relation state (writeBlock blockId kind seg receivedAt state))

include writes

theorem mergeStored_relates (ts : String) (existing : ConversationBlock) (seg : JsonValue)
    : Relates relation (mergeStored ts existing seg) := by
  have writing : ∀ blockId kind, Relates relation
      (modify (writeBlock blockId kind seg ts) : ConversationSql PUnit) :=
    fun blockId kind => .modify (writes blockId kind seg ts)
  have updates : Relates relation (updateLiveBlock seg ts) := by
    refine .bind (.fromExcept _) (fun kind => .bind .get (fun state => ?_))
    split
    · exact .pure _
    · exact .bind (.orRaise _ _) (fun kind => .bind (writing _ _) (fun _ => .pure _))
  have replaces : Relates relation (updateBlockById existing.id seg ts) :=
    .bind (.fromExcept _) (fun kind => .bind (.orRaise _ _) (fun kind =>
      .bind (writing _ _) (fun _ => .bind .get (fun _ => .pure _))))
  unfold mergeStored
  split
  · exact .bind updates (fun _ => .bind .get (fun _ => .pure _))
  · refine .bind (.fromExcept _) (fun grows => ?_)
    split
    · exact .bind replaces (fun _ => .pure _)
    · exact .pure _

variable (appends : ∀ seg receivedAt, Relates relation (appendBlock seg receivedAt))

include appends

theorem mergeNonUserSegments_relates (segments : List JsonValue) (receivedAt : Option String)
    (now : String)
    : Relates relation (mergeNonUserSegmentsWithChanges segments receivedAt now) := by
  have stored : ∀ (ts : String) (pairs : List (ConversationBlock × JsonValue)),
      Relates relation (mergeStoredBlocks ts pairs) := by
    intro ts pairs
    induction pairs with
    | nil => exact .pure _
    | cons pair rest ih =>
      exact .bind (mergeStored_relates writes ts pair.1 pair.2)
        (fun _ => .bind ih (fun _ => .pure _))
  have appended : ∀ (ts : String) (livePred : Option ConversationBlock)
      (segments : List JsonValue), Relates relation (appendSegments ts livePred segments) := by
    intro ts livePred segments
    induction segments generalizing livePred with
    | nil => exact .pure _
    | cons seg rest ih =>
      refine Relates.bind (appends seg ts) (fun block => ?_)
      exact .bind .get (fun state => .bind (ih none) (fun more => .pure _))
  unfold mergeNonUserSegmentsWithChanges
  dsimp only
  split
  · exact .pure _
  refine .bind .get (fun state => ?_)
  split
  · exact .pure _
  · exact .bind (stored _ _) (fun _ => .bind (appended _ _ _) (fun _ => .pure _))

end Merges

theorem mergeNonUserSegments_finals (segments : List JsonValue) (receivedAt : Option String)
    (now : String)
    : Relates (Preserves FinalsSealed)
        (mergeNonUserSegmentsWithChanges segments receivedAt now) :=
  mergeNonUserSegments_relates writeBlock_finals appendBlock_finals segments receivedAt now

theorem mergeNonUserSegments_row (segments : List JsonValue) (receivedAt : Option String)
    (now : String)
    : Relates (Keeps Conversation.row)
        (mergeNonUserSegmentsWithChanges segments receivedAt now) := by
  refine mergeNonUserSegments_relates (fun _ _ _ _ _ => rfl) (fun seg ts => ?_) segments
    receivedAt now
  have inserts : ∀ block, Relates (Keeps Conversation.row) (insertBlock block) := by
    intro block start
    unfold insertBlock
    split <;> rfl
  exact .bind (.fromExcept _) (fun _ => .bind (.modify (fun _ => rfl)) (fun _ =>
    .bind .get (fun _ => .bind (.orRaise _ _) (fun _ => .bind (inserts _) (fun _ => .pure _)))))

theorem setOrdinal_finals (blockId : Nat) (ordinal : Nat → Nat)
    : Relates (Preserves FinalsSealed) (setOrdinal blockId ordinal) := by
  intro start
  unfold setOrdinal Table.replace?
  split
  · next blocks replaced =>
      split at replaced
      · cases replaced
        intro finals block member final_
        obtain ⟨old, held, rfl⟩ := List.mem_map.mp member
        split at final_
        · next same =>
            rw [if_pos same]
            exact finals old held final_
        · next other =>
            rw [if_neg other]
            exact finals old held final_
      · cases replaced
  · exact refl_of (Preserves FinalsSealed) start

variable {start state : Conversation}

section Calls

variable [PyRepr]

theorem restoreParsedTurnOrder_finals (segments : List JsonValue)
    : Relates (Preserves FinalsSealed) (restoreParsedTurnOrder segments) := by
  refine .bind .get (fun state => ?_)
  dsimp only
  split
  · exact .pure _
  refine .bind (.fromExcept _) (fun placed => ?_)
  split
  · exact .pure _
  · exact .bind (.bind .get (fun state => .forM (fun block => setOrdinal_finals _ _)))
      (fun _ => .bind (.forM (fun item => setOrdinal_finals _ _)) (fun _ => .pure _))

variable [RealText]

theorem exec_finals (op : ConversationOp) : Relates (Preserves FinalsSealed) op.exec :=
  exec_relates (fun blocks _ => .modify (fun state => finalsSealed_of_blocks (blocks state)))
    appendBlock_finals mergeNonUserSegments_finals restoreParsedTurnOrder_finals op

/-- In every reachable conversation the final answers are sealed. -/
theorem finalsSealed_of_run (empty : EmptyConversation start) {calls : List ConversationOp}
    (run : Steps ConversationStep start calls state)
    : FinalsSealed state := by
  have related : Preserves FinalsSealed start state := by
    refine run.related (fun s event t step => ?_)
    cases step with
    | call => exact exec_finals event s
  refine related (fun block member => ?_)
  rw [Table.mem_def, empty] at member
  cases member

end Calls

----------------------------------------
-- Settled blocks
----------------------------------------

/-- What a merge reads and writes of a block. -/
structure BlockContent where
  kind : BlockKind
  payload : JsonValue
  sealed_ : Bool
deriving DecidableEq

def ConversationBlock.content (block : ConversationBlock) : BlockContent :=
  ⟨block.kind, block.payload, block.sealed_⟩

namespace BlockContent

def asSealed (content : BlockContent) : BlockContent := { content with sealed_ := true }

/-- The segment's kind is known, and it is no longer version of a final answer. -/
def closedTo (content : BlockContent) (seg : JsonValue) : Bool :=
  match segmentToBlockKind seg with
  | .ok kind => !(kind == some .assistantFinal && growsText content.payload seg)
  | .error _ => false

/-- A block a merge with the segment leaves alone: a live one already has its payload, and a
final answer does not grow to it.
-/
def Settled (content : BlockContent) (seg : JsonValue) : Prop :=
  (content.sealed_ = true ∨ seg.pyEq content.payload = true)
  ∧ (content.sealed_ = true → content.kind = .assistantFinal → content.closedTo seg = true)

instance (content : BlockContent) (seg : JsonValue) : Decidable (content.Settled seg) :=
  inferInstanceAs (Decidable (_ ∧ _))

end BlockContent

variable {block : ConversationBlock} {seg : JsonValue}

theorem settled_iff
    : block.content.Settled seg
      ↔ (block.sealed_ = true ∨ seg.pyEq block.payload = true)
        ∧ sealedBlockCanGrow block seg = .ok false := by
  refine and_congr_right (fun _ => ?_)
  change (block.sealed_ = true → block.kind = .assistantFinal → _) ↔ _
  unfold sealedBlockCanGrow
  split
  · next other =>
      refine iff_of_true (fun sealed_ final_ => ?_) rfl
      simp [sealed_, final_] at other
  · next final_ =>
      simp only [Bool.or_eq_true, Bool.not_eq_true', bne_iff_ne, not_or, Bool.not_eq_false,
        Decidable.not_not] at final_
      obtain ⟨sealed_, kind_⟩ := final_
      rw [kind_]
      simp only [sealed_, true_implies, BlockContent.closedTo]
      cases segmentToBlockKind seg with
      | error raised => simp
      | ok kind =>
        change _ ↔ Except.ok _ = Except.ok _
        simp [ConversationBlock.content, imp_iff_not_or]

theorem mergeStored_of_settled {ts : String} {existing : ConversationBlock} {seg : JsonValue}
    (settled : existing.content.Settled seg) (state : Conversation)
    : Returns (mergeStored ts existing seg) state [] state := by
  obtain ⟨still, closed⟩ := settled_iff.mp settled
  have stays : ¬ ((!existing.sealed_ && !seg.pyEq existing.payload) = true) := by
    rcases still with sealed_ | same
    · simp [sealed_]
    · simp [same]
  unfold mergeStored
  rw [if_neg stays]
  refine returns_bind.mpr ⟨false, state, returns_fromExcept.mpr ⟨closed, rfl⟩, ?_⟩
  exact returns_pure.mpr ⟨rfl, rfl⟩

/-- A written block is still found. -/
theorem readBlockById_writeBlock
    (member : block ∈ state.blocks) (blockId : Nat) (kind : BlockKind) (seg : JsonValue)
    (receivedAt : String)
    : readBlockById (writeBlock blockId kind seg receivedAt state) block.id ≠ none := by
  intro none_
  have absent := Table.find?_eq_none.mp none_ _ (List.mem_map_of_mem member)
  dsimp only at absent
  split at absent <;> simp at absent

variable {ts : String} {stop : Conversation}

theorem settled_of_mergeStored {existing : ConversationBlock} (member : existing ∈ start.blocks)
    (h : Returns (mergeStored ts existing seg) start [] stop)
    : existing.content.Settled seg := by
  unfold mergeStored at h
  split at h
  · next live =>
      rw [Bool.and_eq_true, Bool.not_eq_true'] at live
      obtain ⟨found, _, hu, h⟩ := returns_bind.mp h
      obtain ⟨_, _, hg, h⟩ := returns_bind.mp h
      obtain ⟨rfl, rfl⟩ := returns_get.mp hg
      obtain ⟨none_, rfl⟩ := returns_pure.mp h
      rw [Option.toList_eq_nil_iff, Option.map_eq_none_iff] at none_
      rcases updateLiveBlock_returns hu with ⟨rfl, all⟩ | ⟨other, stored, live_, kind, kindOf, rfl⟩
      · rw [all existing member] at live
        cases live.1
      · exact absurd none_ (readBlockById_writeBlock member _ _ _ _)
  · next still =>
      obtain ⟨grows, _, hc, h⟩ := returns_bind.mp h
      obtain ⟨canGrow, rfl⟩ := returns_fromExcept.mp hc
      split at h
      · obtain ⟨updated, _, hu, h⟩ := returns_bind.mp h
        obtain ⟨none_, rfl⟩ := returns_pure.mp h
        rw [Option.toList_eq_nil_iff, Option.map_eq_none_iff] at none_
        obtain ⟨kind, _, hk, hu⟩ := returns_bind.mp hu
        obtain ⟨-, rfl⟩ := returns_fromExcept.mp hk
        obtain ⟨checked, _, hc, hu⟩ := returns_bind.mp hu
        obtain ⟨-, rfl⟩ := returns_orRaise.mp hc
        obtain ⟨_, _, hm, hu⟩ := returns_bind.mp hu
        obtain rfl := returns_modify.mp hm
        obtain ⟨_, _, hg, hu⟩ := returns_bind.mp hu
        obtain ⟨rfl, rfl⟩ := returns_get.mp hg
        obtain ⟨read, -⟩ := returns_pure.mp hu
        exact absurd (read.trans none_) (readBlockById_writeBlock member _ _ _ _)
      · next no =>
          refine settled_iff.mpr ⟨?_, by rw [canGrow, Bool.eq_false_iff.mpr no]⟩
          cases sealed_ : existing.sealed_ with
          | true => exact .inl rfl
          | false => exact .inr (by simpa [sealed_] using still)

variable {pairs : List (ConversationBlock × JsonValue)}

/-- Merging settled blocks changes nothing; by induction over the blocks. -/
theorem mergeStoredBlocks_of_settled (settled : ∀ pair ∈ pairs, pair.1.content.Settled pair.2)
    : Returns (mergeStoredBlocks ts pairs) state [] state := by
  induction pairs with
  | nil => exact returns_pure.mpr ⟨rfl, rfl⟩
  | cons pair rest ih =>
    have first := @mergeStored_of_settled ts _ _ (settled pair List.mem_cons_self) state
    have later := ih (fun other held => settled other (List.mem_cons_of_mem _ held))
    exact returns_bind.mpr ⟨[], state, first,
      returns_bind.mpr ⟨[], state, later, returns_pure.mpr ⟨rfl, rfl⟩⟩⟩

/-- Merging that changes nothing found its blocks settled; by induction over the blocks. -/
theorem settled_of_mergeStoredBlocks (stored : ∀ pair ∈ pairs, pair.1 ∈ start.blocks)
    (h : Returns (mergeStoredBlocks ts pairs) start [] stop)
    : (∀ pair ∈ pairs, pair.1.content.Settled pair.2) ∧ stop = start := by
  induction pairs with
  | nil =>
    obtain ⟨-, rfl⟩ := returns_pure.mp h
    exact ⟨fun pair member => (nomatch member), rfl⟩
  | cons pair rest ih =>
    obtain ⟨changes, middle, first, h⟩ := returns_bind.mp h
    obtain ⟨more, _, later, h⟩ := returns_bind.mp h
    obtain ⟨none_, rfl⟩ := returns_pure.mp h
    obtain ⟨rfl, rfl⟩ := List.append_eq_nil_iff.mp none_
    have settled := settled_of_mergeStored (stored pair List.mem_cons_self) first
    cases (mergeStored_of_settled settled start).symm.trans first
    obtain ⟨others, rfl⟩ :=
      ih (fun other held => stored other (List.mem_cons_of_mem _ held)) later
    refine ⟨fun other member => ?_, rfl⟩
    rcases List.mem_cons.mp member with rfl | held
    · exact settled
    · exact others other held

def nonUserBlocks (state : Conversation) : List ConversationBlock :=
  (readConversationBlocks state).filter (fun block => block.kind != .user)

variable {segments : List JsonValue}

theorem mergeNonUserSegments_of_settled
    (settled : segments.length < (nonUserBlocks state).length
      ∨ segments.length = (nonUserBlocks state).length
        ∧ ∀ pair ∈ (nonUserBlocks state).zip segments, pair.1.content.Settled pair.2)
    (receivedAt : Option String) (now : String)
    : Returns (mergeNonUserSegmentsWithChanges segments receivedAt now) state [] state := by
  unfold mergeNonUserSegmentsWithChanges
  dsimp only
  by_cases none_ : segments = []
  · rw [if_pos none_]
    exact returns_pure.mpr ⟨rfl, rfl⟩
  rw [if_neg none_]
  refine returns_bind.mpr ⟨state, state, returns_get.mpr ⟨rfl, rfl⟩, ?_⟩
  change Returns (if segments.length < (nonUserBlocks state).length then _ else _) _ _ _
  rcases settled with shorter | same
  · rw [if_pos shorter]
    exact returns_pure.mpr ⟨rfl, rfl⟩
  · rw [if_neg (by omega)]
    refine returns_bind.mpr ⟨[], state, mergeStoredBlocks_of_settled same.2, ?_⟩
    refine returns_bind.mpr ⟨[], state, ?_, returns_pure.mpr ⟨rfl, rfl⟩⟩
    change Returns (appendSegments _ _ (segments.drop (nonUserBlocks state).length)) _ _ _
    rw [List.drop_eq_nil_of_le (by omega)]
    exact returns_pure.mpr ⟨rfl, rfl⟩

variable {receivedAt : Option String} {now : String}

/-- A parse as long as the store is settled in it when its merge changes nothing. -/
theorem settled_of_mergeNonUserSegments (same : segments.length = (nonUserBlocks start).length)
    (h : Returns (mergeNonUserSegmentsWithChanges segments receivedAt now) start [] stop)
    : ∀ pair ∈ (nonUserBlocks start).zip segments, pair.1.content.Settled pair.2 := by
  unfold mergeNonUserSegmentsWithChanges at h
  dsimp only at h
  by_cases none_ : segments = []
  · rw [none_, List.zip_nil_right]
    exact fun pair member => (nomatch member)
  rw [if_neg none_] at h
  obtain ⟨_, _, hg, h⟩ := returns_bind.mp h
  obtain ⟨rfl, rfl⟩ := returns_get.mp hg
  change Returns (if segments.length < (nonUserBlocks _).length then _ else _) _ _ _ at h
  rw [if_neg (by omega)] at h
  obtain ⟨changes, middle, merged, h⟩ := returns_bind.mp h
  obtain ⟨appended, _, _, h⟩ := returns_bind.mp h
  obtain ⟨both, -⟩ := returns_pure.mp h
  obtain ⟨rfl, -⟩ := List.append_eq_nil_iff.mp both
  refine (settled_of_mergeStoredBlocks (fun pair held => ?_) merged).1
  exact mem_readConversationBlocks.mp (List.mem_of_mem_filter (List.of_mem_zip held).1)

----------------------------------------
-- What a merge leaves
----------------------------------------

def storedKind (seg : JsonValue) : BlockKind :=
  match segmentToBlockKind seg with
  | .ok (some kind) => kind
  | _ => .notice

def writtenContent (seg : JsonValue) : BlockContent :=
  ⟨storedKind seg, seg, !blockIsLive (storedKind seg) seg⟩

def mergedContent (block : ConversationBlock) (seg : JsonValue) : BlockContent :=
  if block.content.Settled seg then block.content else writtenContent seg

def appendContents (contents : List BlockContent) (segments : List JsonValue)
    : List BlockContent :=
  segments.foldl (fun contents seg =>
    contents.map BlockContent.asSealed ++ [writtenContent seg]) contents

def mergedContents (blocks : List ConversationBlock) (segments : List JsonValue)
    : List BlockContent :=
  appendContents (List.zipWith mergedContent blocks segments) (segments.drop blocks.length)

def HasKind (seg : JsonValue) : Prop := ∃ kind, segmentToBlockKind seg = .ok (some kind)

theorem storedKind_of_ok {kind : BlockKind} (known : segmentToBlockKind seg = .ok (some kind))
    : storedKind seg = kind := by
  unfold storedKind
  rw [known]

/-- Merges of distinct stored blocks: each leaves its block as said and every other one, and no
block becomes a user block or stops being one.
-/
structure WrittenOver (pairs : List (ConversationBlock × JsonValue)) (start stop : Conversation)
    (change : ConversationBlock → ConversationBlock) : Prop where
  rows : stop.blocks.rows = start.blocks.rows.map change
  ids : ∀ block, (change block).id = block.id
  ordinal : ∀ block, (change block).ordinal = block.ordinal
  users : ∀ block ∈ start.blocks, (change block).kind = .user ↔ block.kind = .user
  contents : ∀ pair ∈ pairs, (change pair.1).content = mergedContent pair.1 pair.2
  known : ∀ pair ∈ pairs, ¬ pair.1.content.Settled pair.2 → HasKind pair.2
  others : ∀ block, (∀ pair ∈ pairs, pair.1.id ≠ block.id) → change block = block

theorem WrittenOver.refl (state : Conversation) : WrittenOver [] state state id where
  rows := (List.map_id _).symm
  ids _ := rfl
  ordinal _ := rfl
  users _ _ := Iff.rfl
  contents pair member := by cases member
  known pair member := by cases member
  others _ _ := rfl

/-- A first merge and those of other blocks after it. -/
theorem WrittenOver.cons {pair : ConversationBlock × JsonValue}
    {rest : List (ConversationBlock × JsonValue)} {start middle stop : Conversation}
    {first second : ConversationBlock → ConversationBlock}
    (hf : WrittenOver [pair] start middle first) (hs : WrittenOver rest middle stop second)
    (apart : ∀ other ∈ rest, pair.1.id ≠ other.1.id)
    : WrittenOver (pair :: rest) start stop (second ∘ first) := by
  have alone : ∀ block, pair.1.id ≠ block.id → first block = block := by
    intro block other
    refine hf.others block (fun single held => ?_)
    rw [List.mem_singleton.mp held]
    exact other
  constructor
  · rw [hs.rows, hf.rows, List.map_map]
  · intro block
    exact (hs.ids _).trans (hf.ids _)
  · intro block
    exact (hs.ordinal _).trans (hf.ordinal _)
  · intro block member
    have held : first block ∈ middle.blocks := by
      rw [Table.mem_def, hf.rows]
      exact List.mem_map_of_mem member
    exact (hs.users _ held).trans (hf.users _ member)
  · intro other member
    rcases List.mem_cons.mp member with rfl | later
    · have stays : second (first other.1) = first other.1 := by
        refine hs.others _ (fun later held => ?_)
        rw [hf.ids]
        exact (apart later held).symm
      rw [Function.comp_apply, stays]
      exact hf.contents other List.mem_cons_self
    · rw [Function.comp_apply, alone other.1 (apart other later)]
      exact hs.contents other later
  · intro other member
    rcases List.mem_cons.mp member with rfl | later
    · exact hf.known other List.mem_cons_self
    · exact hs.known other later
  · intro block away
    rw [Function.comp_apply, alone block (away pair List.mem_cons_self)]
    exact hs.others _ (fun other held => away other (List.mem_cons_of_mem _ held))

variable {changes : List ConversationBlockChange}

theorem mergeStored_over {existing : ConversationBlock}
    (arranged : Arranged start) (member : existing ∈ start.blocks)
    (parsed : existing.kind ≠ .user) (segment : isUserSegment seg = false)
    (h : Returns (mergeStored ts existing seg) start changes stop)
    : ∃ change, WrittenOver [(existing, seg)] start stop change := by
  by_cases settled : existing.content.Settled seg
  · cases (mergeStored_of_settled settled start).symm.trans h
    refine ⟨id, (List.map_id _).symm, fun _ => rfl, fun _ => rfl, fun _ _ => Iff.rfl, ?_, ?_,
      fun _ _ => rfl⟩
    · intro pair single
      rw [List.mem_singleton.mp single, mergedContent, if_pos settled]
      rfl
    · intro pair single
      rw [List.mem_singleton.mp single]
      exact fun open_ => absurd settled open_
  · cases mergeStored_returns arranged member h with
    | kept same closed => exact absurd (settled_iff.mpr ⟨same, closed⟩) settled
    | @written kind kindOf may =>
      have notUser : kind ≠ .user := by
        intro user
        rw [user] at kindOf
        rw [isUserSegment_of_kind kindOf] at segment
        cases segment
      refine ⟨fun block => if block.id == existing.id then
        { block with
            kind := kind
            payload := seg
            sealed_ := !blockIsLive kind seg
            serviceReceivedAt := ts } else block, rfl, ?_, ?_, ?_, ?_, ?_, ?_⟩
      · intro block
        split <;> rfl
      · intro block
        split <;> rfl
      · intro block stored
        split
        · next same =>
            rw [block_eq_of_id stored member (eq_of_beq same)]
            exact iff_of_false notUser parsed
        · exact Iff.rfl
      · intro pair single
        rw [List.mem_singleton.mp single, mergedContent, if_neg settled, writtenContent,
          storedKind_of_ok kindOf]
        dsimp only
        rw [if_pos (beq_self_eq_true _)]
        rfl
      · intro pair single _
        rw [List.mem_singleton.mp single]
        exact ⟨kind, kindOf⟩
      · intro block away
        have other := away _ (List.mem_singleton.mpr rfl)
        dsimp only at other ⊢
        rw [if_neg]
        simpa using fun same => other same.symm

theorem mergeStoredBlocks_over
    (arranged : Arranged start) (stored : ∀ pair ∈ pairs, pair.1 ∈ start.blocks)
    (distinct : pairs.Pairwise (fun left right => left.1.id ≠ right.1.id))
    (parsed : ∀ pair ∈ pairs, pair.1.kind ≠ .user ∧ isUserSegment pair.2 = false)
    (h : Returns (mergeStoredBlocks ts pairs) start changes stop)
    : ∃ change, WrittenOver pairs start stop change ∧ Arranged stop := by
  induction pairs generalizing start changes with
  | nil =>
    obtain ⟨-, rfl⟩ := returns_pure.mp h
    exact ⟨id, .refl start, arranged⟩
  | cons pair rest ih =>
    obtain ⟨apart, distinct⟩ := List.pairwise_cons.mp distinct
    obtain ⟨first, middle, merged, h⟩ := returns_bind.mp h
    obtain ⟨more, _, later, h⟩ := returns_bind.mp h
    obtain ⟨-, rfl⟩ := returns_pure.mp h
    have member := stored pair List.mem_cons_self
    have kinds := parsed pair List.mem_cons_self
    obtain ⟨change, over_⟩ := mergeStored_over arranged member kinds.1 kinds.2 merged
    have step := mergeStored_returns arranged member merged
    obtain ⟨change', over', arranged'⟩ := ih (step.keeping arranged member).1
      (fun other held => step.others (stored other (List.mem_cons_of_mem _ held))
        (apart other held).symm)
      distinct (fun other held => parsed other (List.mem_cons_of_mem _ held)) later
    exact ⟨change' ∘ change, over_.cons over' apart, arranged'⟩

def nonUserContents (state : Conversation) : List BlockContent :=
  (nonUserBlocks state).map ConversationBlock.content

theorem WrittenOver.nonUserContents {change : ConversationBlock → ConversationBlock}
    (h : WrittenOver ((nonUserBlocks start).zip segments) start stop change)
    (fits : (nonUserBlocks start).length ≤ segments.length)
    : nonUserContents stop = List.zipWith mergedContent (nonUserBlocks start) segments := by
  have blocks : nonUserBlocks stop = (nonUserBlocks start).map change := by
    unfold nonUserBlocks
    rw [readConversationBlocks_map h.rows h.ordinal, List.filter_map]
    refine congrArg _ (List.filter_congr (fun block member => ?_))
    have users := h.users block (mem_readConversationBlocks.mp member)
    rw [Function.comp_apply, Bool.eq_iff_iff, bne_iff_ne, bne_iff_ne]
    exact not_congr users
  have firsts : ((nonUserBlocks start).zip segments).map Prod.fst = nonUserBlocks start :=
    List.map_fst_zip fits
  unfold Conversations.nonUserContents
  rw [blocks, ← firsts, List.map_map, List.map_map, firsts,
    ← List.map_uncurry_zip_eq_zipWith]
  exact List.map_congr_left (fun pair member => h.contents pair member)

theorem WrittenOver.userBlocks {change : ConversationBlock → ConversationBlock}
    (h : WrittenOver ((nonUserBlocks start).zip segments) start stop change)
    : userBlocks stop = userBlocks start := by
  unfold Conversations.userBlocks
  rw [readConversationBlocks_map h.rows h.ordinal, List.filter_map]
  have kinds : (readConversationBlocks start).filter ((fun block => block.kind == .user) ∘ change)
      = (readConversationBlocks start).filter (fun block => block.kind == .user) := by
    refine List.filter_congr (fun block member => ?_)
    have users := h.users block (mem_readConversationBlocks.mp member)
    rw [Function.comp_apply, Bool.eq_iff_iff, beq_iff_eq, beq_iff_eq]
    exact users
  rw [kinds]
  refine (List.map_congr_left (fun block member => ?_)).trans (List.map_id _)
  obtain ⟨stored, user⟩ := List.mem_filter.mp member
  refine h.others block (fun pair held same => ?_)
  obtain ⟨parsed, other⟩ := List.mem_filter.mp (List.of_mem_zip held).1
  rw [block_eq_of_id (mem_readConversationBlocks.mp parsed) (mem_readConversationBlocks.mp stored)
    same, eq_of_beq user] at other
  cases other

theorem readConversationBlocks_sealed (state : Conversation)
    : readConversationBlocks (sealLiveBlock state)
      = (readConversationBlocks state).map (fun block =>
          if !block.sealed_ then { block with sealed_ := true } else block) :=
  readConversationBlocks_map rfl (fun block => by split <;> rfl)

theorem Appended.kind_ne_user (h : Appended seg block start stop)
    (segment : isUserSegment seg = false)
    : block.kind ≠ .user := by
  intro user
  have kind := h.kind
  rw [user] at kind
  rw [isUserSegment_of_kind kind] at segment
  cases segment

theorem Appended.nonUserContents (h : Appended seg block start stop) (arranged : Arranged start)
    (segment : isUserSegment seg = false)
    : nonUserContents stop
      = (nonUserContents start).map BlockContent.asSealed ++ [writtenContent seg] := by
  have last : [block].filter (fun block => block.kind != .user) = [block] := by
    simp [h.kind_ne_user segment]
  have written : block.content = writtenContent seg := by
    unfold ConversationBlock.content writtenContent
    rw [storedKind_of_ok h.kind, h.payload, h.sealed_]
  have kinds : ((fun block : ConversationBlock => block.kind != .user) ∘ fun block =>
      if !block.sealed_ then { block with sealed_ := true } else block)
      = fun block => block.kind != .user := by
    funext block
    dsimp only [Function.comp_apply]
    split <;> rfl
  unfold Conversations.nonUserContents nonUserBlocks
  rw [h.read arranged, readConversationBlocks_sealed, List.filter_append, List.filter_map, kinds,
    last, List.map_append, List.map_map, List.map_map]
  refine congrArg₂ _ (List.map_congr_left (fun block _ => ?_)) (congrArg (· :: []) written)
  dsimp only [Function.comp_apply]
  split
  · rfl
  · next sealed_ =>
      unfold ConversationBlock.content BlockContent.asSealed
      simpa using sealed_

theorem Appended.userBlocks (h : Appended seg block start stop) (arranged : Arranged start)
    (segment : isUserSegment seg = false)
    : userBlocks stop = userBlocks start := by
  have last : [block].filter (fun block => block.kind == .user) = [] := by
    simp [h.kind_ne_user segment]
  have kinds : ((fun block : ConversationBlock => block.kind == .user) ∘ fun block =>
      if !block.sealed_ then { block with sealed_ := true } else block)
      = fun block => block.kind == .user := by
    funext block
    dsimp only [Function.comp_apply]
    split <;> rfl
  unfold Conversations.userBlocks
  rw [h.read arranged, readConversationBlocks_sealed, List.filter_append, List.filter_map, kinds,
    last, List.append_nil]
  refine (List.map_congr_left (fun block member => ?_)).trans (List.map_id _)
  obtain ⟨stored, user⟩ := List.mem_filter.mp member
  have sealed_ := arranged.users block (mem_readConversationBlocks.mp stored) (eq_of_beq user)
  simp [sealed_]

theorem appendSegments_contents {livePred : Option ConversationBlock} (arranged : Arranged start)
    (parsed : ∀ seg ∈ segments, isUserSegment seg = false)
    (h : Returns (appendSegments ts livePred segments) start changes stop)
    : nonUserContents stop = appendContents (nonUserContents start) segments
      ∧ (∀ seg ∈ segments, HasKind seg) ∧ userBlocks stop = userBlocks start
      ∧ Arranged stop := by
  induction segments generalizing livePred start changes with
  | nil =>
    obtain ⟨-, rfl⟩ := returns_pure.mp h
    exact ⟨rfl, fun seg member => (nomatch member), rfl, arranged⟩
  | cons seg rest ih =>
    obtain ⟨block, middle, first, h⟩ := returns_bind.mp h
    obtain ⟨_, _, hg, h⟩ := returns_bind.mp h
    obtain ⟨rfl, rfl⟩ := returns_get.mp hg
    obtain ⟨more, _, later, h⟩ := returns_bind.mp h
    obtain ⟨-, rfl⟩ := returns_pure.mp h
    have appended := appendBlock_returns first
    have segment := parsed seg List.mem_cons_self
    obtain ⟨contents, kinds, users, arranged'⟩ := ih (appended.keeping arranged).1
      (fun other held => parsed other (List.mem_cons_of_mem _ held)) later
    refine ⟨?_, ?_, users.trans (appended.userBlocks arranged segment), arranged'⟩
    · rw [contents, appended.nonUserContents arranged segment]
      rfl
    · intro other member
      rcases List.mem_cons.mp member with rfl | held
      · exact ⟨_, appended.kind⟩
      · exact kinds other held

/-- What a merge leaves: the merged contents, each of them under its kind. -/
structure Contents (segments : List JsonValue) (start stop : Conversation) : Prop where
  contents : nonUserContents stop = mergedContents (nonUserBlocks start) segments
  known
    : ∀ pair ∈ (nonUserBlocks start).zip segments,
        ¬ pair.1.content.Settled pair.2 → HasKind pair.2
  appended : ∀ seg ∈ segments.drop (nonUserBlocks start).length, HasKind seg
  users : userBlocks stop = userBlocks start
  arranged : Arranged stop

theorem mergeNonUserSegments_contents
    (arranged : Arranged start) (fits : (nonUserBlocks start).length ≤ segments.length)
    (parsed : ∀ seg ∈ segments, isUserSegment seg = false)
    (h : Returns (mergeNonUserSegmentsWithChanges segments receivedAt now) start changes stop)
    : Contents segments start stop := by
  unfold mergeNonUserSegmentsWithChanges at h
  dsimp only at h
  by_cases none_ : segments = []
  · subst none_
    rw [if_pos rfl] at h
    obtain ⟨-, rfl⟩ := returns_pure.mp h
    have empty := List.eq_nil_of_length_eq_zero (Nat.le_zero.mp fits)
    refine ⟨?_, fun pair member => ?_, fun seg member => ?_, rfl, arranged⟩
    · unfold nonUserContents
      rw [empty]
      rfl
    · rw [List.zip_nil_right] at member
      cases member
    · rw [List.drop_nil] at member
      cases member
  rw [if_neg none_] at h
  obtain ⟨_, _, hg, h⟩ := returns_bind.mp h
  obtain ⟨rfl, rfl⟩ := returns_get.mp hg
  change Returns (if segments.length < (nonUserBlocks _).length then _ else _) _ _ _ at h
  rw [if_neg (by omega)] at h
  obtain ⟨merged, middle, first, h⟩ := returns_bind.mp h
  obtain ⟨appended, _, last, h⟩ := returns_bind.mp h
  obtain ⟨-, rfl⟩ := returns_pure.mp h
  have pairs := mergeStoredBlocks_over arranged (fun pair held =>
      mem_readConversationBlocks.mp (List.mem_of_mem_filter (List.of_mem_zip held).1))
    (zip_distinct ((readConversationBlocks_ids _).filter _) fits)
    (fun pair held => ⟨by simpa using (List.mem_filter.mp (List.of_mem_zip held).1).2,
      parsed pair.2 (List.of_mem_zip held).2⟩) first
  obtain ⟨change, over_, arranged'⟩ := pairs
  change Returns (appendSegments _ _ (segments.drop (nonUserBlocks _).length)) _ _ _ at last
  obtain ⟨contents, kinds, users, arranged''⟩ := appendSegments_contents arranged'
    (fun seg held => parsed seg (List.mem_of_mem_drop held)) last
  refine ⟨?_, over_.known, kinds, users.trans over_.userBlocks, arranged''⟩
  rw [contents, over_.nonUserContents fits]
  rfl

/-- A block that is settled, and stays so when it is sealed. -/
structure Kept (seg : JsonValue) (content : BlockContent) : Prop where
  settled : content.Settled seg
  final : content.kind = .assistantFinal → content.sealed_ = true

theorem Kept.asSealed {content : BlockContent} (h : Kept seg content)
    : Kept seg content.asSealed :=
  ⟨⟨.inl rfl, fun _ final_ => h.settled.2 (h.final final_) final_⟩, fun _ => rfl⟩

theorem growsText_irrefl (payload : JsonValue) : growsText payload payload = false := by
  rw [Bool.eq_false_iff]
  intro grows
  obtain ⟨before, after, hb, ha, shorter, -⟩ := growsText_iff.mp grows
  rw [hb] at ha
  cases ha
  omega

theorem kept_written (known : HasKind seg) (same : seg.pyEq seg = true)
    : Kept seg (writtenContent seg) := by
  obtain ⟨kind, known⟩ := known
  have stored := storedKind_of_ok known
  refine ⟨⟨.inr same, fun _ _ => ?_⟩, fun final_ => ?_⟩
  · simp [BlockContent.closedTo, known, writtenContent, growsText_irrefl]
  · change storedKind seg = .assistantFinal at final_
    change (!blockIsLive (storedKind seg) seg) = true
    rw [final_]
    rfl

/-- Merged blocks are kept by their segments; by induction over the blocks. -/
theorem kept_merged {blocks : List ConversationBlock} (fits : blocks.length ≤ segments.length)
    (finals : ∀ block ∈ blocks, block.kind = .assistantFinal → block.sealed_ = true)
    (known : ∀ pair ∈ blocks.zip segments, ¬ pair.1.content.Settled pair.2 → HasKind pair.2)
    (same : ∀ seg ∈ segments, seg.pyEq seg = true)
    : List.Forall₂ Kept (segments.take blocks.length)
        (List.zipWith mergedContent blocks segments) := by
  induction blocks generalizing segments with
  | nil => exact .nil
  | cons block rest ih =>
    cases segments with
    | nil => simp at fits
    | cons seg segments =>
      refine .cons ?_ (ih (Nat.le_of_succ_le_succ fits)
        (fun other held => finals other (List.mem_cons_of_mem _ held))
        (fun pair held => known pair (List.mem_cons_of_mem _ held))
        (fun other held => same other (List.mem_cons_of_mem _ held)))
      unfold mergedContent
      split
      · next settled => exact ⟨settled, finals block List.mem_cons_self⟩
      · next open_ =>
          exact kept_written (known _ List.mem_cons_self open_) (same seg List.mem_cons_self)

/-- Appending keeps blocks kept; by induction over the segments. -/
theorem kept_appended {shown : List JsonValue} {contents : List BlockContent}
    (kept : List.Forall₂ Kept shown contents) (known : ∀ seg ∈ segments, HasKind seg)
    (same : ∀ seg ∈ segments, seg.pyEq seg = true)
    : List.Forall₂ Kept (shown ++ segments) (appendContents contents segments) := by
  induction segments generalizing shown contents with
  | nil =>
    rw [List.append_nil]
    exact kept
  | cons seg rest ih =>
    have sealed_ : List.Forall₂ Kept shown (contents.map BlockContent.asSealed) := by
      rw [List.forall₂_map_right_iff]
      exact kept.imp (fun _ _ h => h.asSealed)
    have written := kept_written (known seg List.mem_cons_self) (same seg List.mem_cons_self)
    have more := ih (List.rel_append sealed_ (.cons written .nil))
      (fun other held => known other (List.mem_cons_of_mem _ held))
      (fun other held => same other (List.mem_cons_of_mem _ held))
    rw [List.append_assoc] at more
    exact more

----------------------------------------
-- The restored order
----------------------------------------

/-- The contents of the parsed blocks, and those of the notices behind them. -/
def realigned (contents : List BlockContent) : List BlockContent :=
  contents.filter (fun content => content.kind != .notice)
    ++ contents.filter (fun content => content.kind == .notice)

theorem filter_isParsed (state : Conversation)
    : (readConversationBlocks state).filter isParsed
      = (nonUserBlocks state).filter (fun block => block.kind != .notice) := by
  unfold nonUserBlocks isParsed
  rw [List.filter_filter]
  exact List.filter_congr (fun block _ => Bool.and_comm _ _)

theorem filter_notice (state : Conversation)
    : (readConversationBlocks state).filter (fun block => block.kind == .notice)
      = (nonUserBlocks state).filter (fun block => block.kind == .notice) := by
  unfold nonUserBlocks
  rw [List.filter_filter]
  refine List.filter_congr (fun block _ => ?_)
  cases block.kind <;> rfl

theorem realigned_contents (state : Conversation)
    : ((readConversationBlocks state).filter isParsed
        ++ (readConversationBlocks state).filter (fun block => block.kind == .notice)).map
          ConversationBlock.content
      = realigned (nonUserContents state) := by
  unfold realigned nonUserContents
  rw [List.map_append, filter_isParsed, filter_notice, List.filter_map, List.filter_map]
  rfl

/-- Without parsed blocks there is nothing to realign. -/
theorem realigned_notices {contents : List BlockContent}
    (notices : contents.filter (fun content => content.kind != .notice) = [])
    : realigned contents = contents := by
  unfold realigned
  rw [notices, List.nil_append, List.filter_eq_self]
  intro content member
  have other := List.filter_eq_nil_iff.mp notices content member
  simpa using other

variable {reordered : List (Nat × Nat)}

section Calls

variable [PyRepr]

/-- A user segment has the text of a stored user turn. -/
def Anchored (state : Conversation) (segments : List JsonValue) : Prop :=
  ∃ segment ∈ segments, isUserSegment segment = true
    ∧ ∃ text, textOf segment = some text ∧ ∃ block ∈ userBlocks state, anchors text block = true

/-- Restoring the order moves the notices behind the parsed blocks, if the segments are
anchored.
-/
theorem Reordering.contents (h : Reordering segments start reordered stop)
    (enough : (nonUserBlocks start).length ≤ (nonUserSegments segments).length)
    : ¬ Anchored start segments ∧ nonUserContents stop = nonUserContents start
      ∨ Anchored start segments
        ∧ nonUserContents stop = realigned (nonUserContents start) := by
  have few : ((readConversationBlocks start).filter isParsed).length
      ≤ (segments.filter (fun segment => !isUserSegment segment)).length := by
    rw [filter_isParsed]
    exact (List.length_filter_le _ _).trans enough
  cases h with
  | idle none_ =>
    rcases none_ with noUsers | noParsed
    · refine .inl ⟨fun anchored => ?_, rfl⟩
      obtain ⟨segment, _, _, text, _, block, held, _⟩ := anchored
      rw [noUsers] at held
      cases held
    · by_cases anchored : Anchored start segments
      · refine .inr ⟨anchored, (realigned_notices ?_).symm⟩
        unfold nonUserContents
        rw [filter_isParsed] at noParsed
        rw [List.filter_map]
        exact List.map_eq_nil_iff.mpr noParsed
      · exact .inl ⟨anchored, rfl⟩
  | unmatched places =>
    exact .inl ⟨fun anchored => (nomatch places.matched_iff.mpr anchored), rfl⟩
  | settled places order =>
    refine .inr ⟨places.matched_iff.mp rfl, ?_⟩
    have blocks := places.nonUser few
    rw [order] at blocks
    rw [← realigned_contents, ← blocks]
    rfl
  | @moved placed _ places read rest =>
    refine .inr ⟨places.matched_iff.mp rfl, ?_⟩
    have blocks := places.nonUser few
    rw [← realigned_contents, ← blocks]
    unfold nonUserContents nonUserBlocks
    rw [read, List.filter_map, List.map_map]
    rfl

/-- The number of blocks a merge counts is kept by the restored order. -/
theorem Reordering.length (h : Reordering segments start reordered stop)
    : (nonUserBlocks stop).length = (nonUserBlocks start).length := by
  cases h with
  | idle none_ => rfl
  | unmatched places => rfl
  | settled places order => rfl
  | @moved placed _ places read rest =>
    have perm := orderedBlocks_perm (readConversationBlocks_ids start)
      (placeBlocks_stored places.ok).1
    unfold nonUserBlocks
    rw [read, List.filter_map, List.length_map]
    exact (perm.filter _).length_eq

theorem Reordering.row (h : Reordering segments start reordered stop)
    : stop.row = start.row := by
  cases h with
  | idle none_ => rfl
  | unmatched places => rfl
  | settled places order => rfl
  | moved places read rest => exact (Prod.mk.inj rest).1

/-- Where the segments are anchored and as many as the blocks they are merged with, those
blocks are still settled with the notices behind the parsed ones.
-/
def StaysAligned (state : Conversation) (segments : List JsonValue) : Prop :=
  (nonUserBlocks state).length ≤ (nonUserSegments segments).length
  → Anchored state segments
  → ∀ pair ∈ (realigned (mergedContents (nonUserBlocks state) (nonUserSegments segments))).zip
      (nonUserSegments segments), pair.1.Settled pair.2

/-- The blocks behind a first merge and restored order, and when they are settled. -/
structure Idles (state last : Conversation) (segments : List JsonValue) : Prop where
  length_le : (nonUserSegments segments).length ≤ (nonUserBlocks last).length
  settled
    : (nonUserSegments segments).length = (nonUserBlocks last).length →
        ((∀ pair ∈ (nonUserContents last).zip (nonUserSegments segments),
            pair.1.Settled pair.2)
          ↔ StaysAligned state segments)
  shorter
    : (nonUserSegments segments).length < (nonUserBlocks last).length →
        StaysAligned state segments

omit [PyRepr] in
theorem settled_of_kept {contents : List BlockContent} (kept : List.Forall₂ Kept segments contents)
    : ∀ pair ∈ contents.zip segments, pair.1.Settled pair.2 := by
  induction kept with
  | nil => exact fun pair member => (nomatch member)
  | cons first _ ih =>
    intro pair member
    rcases List.mem_cons.mp member with rfl | held
    · exact first.settled
    · exact ih pair held

theorem idles_of_projected {middle last : Conversation} {merges : List ConversationBlockChange}
    (arranged : Arranged state) (finals : FinalsSealed state)
    (same : ∀ seg ∈ nonUserSegments segments, seg.pyEq seg = true)
    (merging
      : Returns (mergeNonUserSegmentsWithChanges (nonUserSegments segments) receivedAt now) state
          merges middle)
    (restoring : Returns (restoreParsedTurnOrder segments) middle reordered last)
    : Idles state last segments := by
  by_cases fits : (nonUserBlocks state).length ≤ (nonUserSegments segments).length
  · have merged := mergeNonUserSegments_contents arranged fits
      (fun seg member => by simpa using (List.mem_filter.mp member).2) merging
    have restored := reordering_of_returns merged.arranged restoring
    have kept := kept_appended
      (kept_merged fits (fun block member => finals block
          (mem_readConversationBlocks.mp (List.mem_of_mem_filter member))) merged.known same)
      merged.appended (fun seg held => same seg (List.mem_of_mem_drop held))
    rw [List.take_append_drop] at kept
    change List.Forall₂ Kept _ (mergedContents _ _) at kept
    have count : (nonUserBlocks middle).length = (nonUserSegments segments).length := by
      have length := kept.length_eq
      rw [← merged.contents] at length
      simpa [nonUserContents] using length.symm
    have anchored : Anchored middle segments ↔ Anchored state segments := by
      unfold Anchored
      rw [merged.users]
    have last_ := restored.length.trans count
    refine ⟨Nat.le_of_eq last_.symm, fun _ => ?_, fun less => absurd last_ (by omega)⟩
    rcases restored.contents (Nat.le_of_eq count) with ⟨free, contents⟩ | ⟨bound, contents⟩
    · rw [contents, merged.contents]
      exact iff_of_true (settled_of_kept kept)
        (fun _ bound => absurd (anchored.mpr bound) free)
    · rw [contents, merged.contents]
      exact ⟨fun all _ _ => all, fun stays => stays fits (anchored.mp bound)⟩
  · have short : (nonUserSegments segments).length < (nonUserBlocks state).length := by omega
    cases (mergeNonUserSegments_of_settled (.inl short) receivedAt now).symm.trans merging
    have restored := reordering_of_returns arranged restoring
    have last_ := restored.length
    exact ⟨by omega, fun equal => absurd equal (by omega), fun _ few => absurd few fits⟩

----------------------------------------
-- A second projection
----------------------------------------

variable [RealText]

/-- What a projection writes behind the merge and the restored order. -/
def projected (before : Option ConversationRow) (doc : JsonObject) (capturedAt : String)
    (changes : List ConversationBlockChange) (reordered : List (Nat × Nat))
    (state : Conversation) : Conversation :=
  let flat := replaceAgentMessages (docToFlatTurns (readConversationDoc state)) capturedAt state
  if changes ≠ [] ∨ metadataChanged before doc ∨ reordered ≠ [] then
    invalidateConversations flat
  else
    flat

/-- The steps of a projection that returns. -/
structure Projection (agentId : String) (doc : JsonObject) (receivedAt : Option String)
    (now : String) (start : Conversation) (merged : TranscriptDoc)
    (changes : List ConversationBlockChange) (stop : Conversation) where
  segments : List JsonValue
  harness : Option String
  liveState : Option String
  merges : List ConversationBlockChange
  middle : Conversation
  reordered : List (Nat × Nat)
  last : Conversation
  items : iterItems ((doc.get? "segments").getD (.arr .nil)) = .ok segments
  harnessBound : bindText (doc.get? "harness") = .ok harness
  stateBound : bindText (doc.get? "state") = .ok liveState
  merging
    : Returns (mergeNonUserSegmentsWithChanges (nonUserSegments segments) receivedAt now)
        (upsertConversation agentId harness liveState start) merges middle
  restoring : Returns (restoreParsedTurnOrder segments) middle reordered last
  read : merged = readConversationDoc last
  mapped : changes = merges.map (repositioned reordered)
  wrote : stop = projected start.row doc (stamp receivedAt now) changes reordered last

theorem projection_iff {agentId : String} {doc : JsonObject} {merged : TranscriptDoc}
    : Returns (projectParsedDocWithChanges agentId doc receivedAt now) start (merged, changes)
        stop
      ↔ Nonempty (Projection agentId doc receivedAt now start merged changes stop) := by
  constructor
  · intro h
    obtain ⟨segments, _, hi, h⟩ := returns_bind.mp h
    obtain ⟨items, rfl⟩ := returns_fromExcept.mp hi
    obtain ⟨_, _, hg, h⟩ := returns_bind.mp h
    obtain ⟨rfl, rfl⟩ := returns_get.mp hg
    obtain ⟨harness, _, hh, h⟩ := returns_bind.mp h
    obtain ⟨harnessBound, rfl⟩ := returns_fromExcept.mp hh
    obtain ⟨liveState, _, hs, h⟩ := returns_bind.mp h
    obtain ⟨stateBound, rfl⟩ := returns_fromExcept.mp hs
    obtain ⟨_, _, hu, h⟩ := returns_bind.mp h
    obtain rfl := returns_modify.mp hu
    obtain ⟨merges, middle, merging, h⟩ := returns_bind.mp h
    obtain ⟨reordered, last, restoring, h⟩ := returns_bind.mp h
    obtain ⟨_, _, hg, h⟩ := returns_bind.mp h
    obtain ⟨rfl, rfl⟩ := returns_get.mp hg
    obtain ⟨_, _, hm, h⟩ := returns_bind.mp h
    obtain rfl := returns_modify.mp hm
    by_cases changed : merges.map (repositioned reordered) ≠ []
        ∨ metadataChanged start.row doc = true ∨ reordered ≠ []
    · rw [if_pos changed] at h
      obtain ⟨_, _, hm, h⟩ := returns_bind.mp h
      obtain rfl := returns_modify.mp hm
      obtain ⟨same, rfl⟩ := returns_pure.mp h
      cases same
      exact ⟨⟨segments, harness, liveState, merges, middle, reordered, _, items, harnessBound,
        stateBound, merging, restoring, rfl, rfl, (if_pos changed).symm⟩⟩
    · rw [if_neg changed] at h
      obtain ⟨same, rfl⟩ := returns_pure.mp h
      cases same
      exact ⟨⟨segments, harness, liveState, merges, middle, reordered, _, items, harnessBound,
        stateBound, merging, restoring, rfl, rfl, (if_neg changed).symm⟩⟩
  · intro h
    obtain ⟨segments, harness, liveState, merges, middle, reordered, last, items, harnessBound,
      stateBound, merging, restoring, rfl, rfl, rfl⟩ := h
    refine returns_bind.mpr ⟨segments, start, returns_fromExcept.mpr ⟨items, rfl⟩, ?_⟩
    refine returns_bind.mpr ⟨start, start, returns_get.mpr ⟨rfl, rfl⟩, ?_⟩
    refine returns_bind.mpr ⟨harness, start, returns_fromExcept.mpr ⟨harnessBound, rfl⟩, ?_⟩
    refine returns_bind.mpr ⟨liveState, start, returns_fromExcept.mpr ⟨stateBound, rfl⟩, ?_⟩
    refine returns_bind.mpr ⟨⟨⟩, _, returns_modify.mpr rfl, ?_⟩
    refine returns_bind.mpr ⟨merges, middle, merging, ?_⟩
    refine returns_bind.mpr ⟨reordered, last, restoring, ?_⟩
    refine returns_bind.mpr ⟨last, last, returns_get.mpr ⟨rfl, rfl⟩, ?_⟩
    refine returns_bind.mpr ⟨⟨⟩, _, returns_modify.mpr rfl, ?_⟩
    unfold projected
    by_cases changed : merges.map (repositioned reordered) ≠ []
        ∨ metadataChanged start.row doc = true ∨ reordered ≠ []
    · rw [if_pos changed]
      dsimp only
      rw [if_pos changed]
      exact returns_bind.mpr ⟨⟨⟩, _, returns_modify.mpr rfl, returns_pure.mpr ⟨rfl, rfl⟩⟩
    · rw [if_neg changed]
      dsimp only
      rw [if_neg changed]
      exact returns_pure.mpr ⟨rfl, rfl⟩

def TextColumns (doc : JsonObject) : Prop :=
  ∀ key ∈ ["harness", "state"], ∀ value, doc.get? key = some value →
    value = .null ∨ ∃ text, value = .str text

/-- Projecting the document changes no block, returns no change and invalidates nothing. -/
def Repeats (agentId : String) (doc : JsonObject) (receivedAt : Option String) (now : String)
    (state : Conversation) : Prop :=
  ∃ merged stop,
    Returns (projectParsedDocWithChanges agentId doc receivedAt now) state (merged, []) stop
    ∧ stop.blocks.rows = state.blocks.rows ∧ stop.invalidations = state.invalidations

omit [PyRepr] in
theorem columnDiffers_bound {value : Option JsonValue} {text : Option String}
    (bound : bindText value = .ok text) (old : Option String)
    : columnDiffers value (text <|> old) = false
      ↔ ∀ found, value = some found → found = .null ∨ ∃ text, found = .str text := by
  cases value with
  | none => exact iff_of_true rfl (fun found same => (nomatch same))
  | some found =>
    cases found with
    | null => exact iff_of_true rfl (fun other same => .inl (Option.some.inj same).symm)
    | str written =>
      cases bound
      refine iff_of_true ?_ (fun other same => .inr ⟨written, (Option.some.inj same).symm⟩)
      simp [columnDiffers]
    | arr items => cases bound
    | obj fields => cases bound
    | _ =>
      refine iff_of_false (by simp [columnDiffers]) (fun all => ?_)
      rcases all _ rfl with null | ⟨text, written⟩
      · cases null
      · cases written

omit [PyRepr] in
/-- A projected document changes the metadata again exactly by other values than texts. -/
theorem metadataChanged_upsert {agentId : String} {doc : JsonObject}
    {harness liveState : Option String} (harnessBound : bindText (doc.get? "harness") = .ok harness)
    (stateBound : bindText (doc.get? "state") = .ok liveState)
    : metadataChanged (upsertConversation agentId harness liveState state).row doc = false
      ↔ TextColumns doc := by
  have row : ∃ agent old previous, (upsertConversation agentId harness liveState state).row
      = some ⟨agent, harness <|> old, liveState <|> previous, "in_progress"⟩ := by
    unfold upsertConversation
    cases state.row with
    | none => exact ⟨agentId, none, none, by cases harness <;> cases liveState <;> rfl⟩
    | some row => exact ⟨row.agentId, row.harness, row.liveState, rfl⟩
  obtain ⟨agent, old, previous, row⟩ := row
  rw [row]
  change (columnDiffers _ _ || columnDiffers _ _ || "in_progress" != "in_progress") = false ↔ _
  rw [Bool.or_eq_false_iff, Bool.or_eq_false_iff, columnDiffers_bound harnessBound,
    columnDiffers_bound stateBound]
  simp only [TextColumns, List.forall_mem_cons, List.not_mem_nil, false_imp_iff, implies_true,
    and_true, bne_self_eq_false]

omit [PyRepr] [RealText] in
theorem projected_blocks (before : Option ConversationRow) (doc : JsonObject)
    (capturedAt : String) (changes : List ConversationBlockChange)
    (reordered : List (Nat × Nat)) (state : Conversation)
    : (projected before doc capturedAt changes reordered state).blocks = state.blocks := by
  unfold projected
  dsimp only
  split <;> rfl

omit [PyRepr] [RealText] in
theorem projected_row (before : Option ConversationRow) (doc : JsonObject)
    (capturedAt : String) (changes : List ConversationBlockChange)
    (reordered : List (Nat × Nat)) (state : Conversation)
    : (projected before doc capturedAt changes reordered state).row = state.row := by
  unfold projected
  dsimp only
  split <;> rfl

omit [PyRepr] [RealText] in
/-- A projection without changes invalidates by the metadata only. -/
theorem projected_invalidations (before : Option ConversationRow) (doc : JsonObject)
    (capturedAt : String) (state : Conversation)
    : (projected before doc capturedAt [] [] state).invalidations = state.invalidations
      ↔ metadataChanged before doc = false := by
  unfold projected
  dsimp only
  cases metadataChanged before doc with
  | false => simp [replaceAgentMessages]
  | true => simp [replaceAgentMessages, invalidateConversations]

omit [PyRepr] [RealText] in
theorem settled_contents
    : (∀ pair ∈ (nonUserContents state).zip segments, pair.1.Settled pair.2)
      ↔ ∀ pair ∈ (nonUserBlocks state).zip segments, pair.1.content.Settled pair.2 := by
  unfold nonUserContents
  rw [List.zip_map_left]
  exact List.forall_mem_map

omit [PyRepr] [RealText] in
/-- The segments of a keyed document are keyed, so each equals itself. -/
theorem pyEq_of_items {doc : JsonObject} (keyed : doc.Keyed)
    (items : iterItems ((doc.get? "segments").getD (.arr .nil)) = .ok segments)
    : ∀ seg ∈ segments, seg.pyEq seg = true := by
  have value : ((doc.get? "segments").getD (.arr .nil)).Keyed := by
    cases found : doc.get? "segments" with
    | none => trivial
    | some value => exact JsonFields.keyed_of_get? keyed found
  intro seg member
  refine seg.pyEq_self ?_
  unfold iterItems at items
  split at items
  · next entries same =>
      cases items
      rw [same] at value
      exact JsonItems.keyed_of_mem value member
  · cases items
    obtain ⟨c, -, rfl⟩ := List.mem_map.mp member
    trivial
  · cases items
    obtain ⟨key, -, rfl⟩ := List.mem_map.mp member
    trivial
  · cases items

/-- Behind a projection that returned, another one of the same document repeats it exactly if
its text columns hold texts and the blocks stay aligned.
-/
theorem repeats_iff {start : Conversation} (empty : EmptyConversation start)
    {calls : List ConversationOp} {state : Conversation}
    (run : Steps ConversationStep start calls state) {agentId : String} {doc : JsonObject}
    (keyed : doc.Keyed) {receivedAt : Option String} {now : String} {merged : TranscriptDoc}
    {changes : List ConversationBlockChange} {stop : Conversation}
    (first : Returns (projectParsedDocWithChanges agentId doc receivedAt now) state
      (merged, changes) stop)
    (receivedAt' : Option String) (now' : String)
    : Repeats agentId doc receivedAt' now' stop
      ↔ TextColumns doc
        ∧ ∀ segments, iterItems ((doc.get? "segments").getD (.arr .nil)) = .ok segments
          → StaysAligned state segments := by
  obtain ⟨segments, harness, liveState, merges, middle, reordered, last, items, harnessBound,
    stateBound, merging, restoring, -, -, flat⟩ := projection_iff.mp first
  have arranged := (steps_keeping run empty.arranged).1
  have upserted := (@keeping_of_blocks state
    (upsertConversation agentId harness liveState state) rfl rfl arranged).1
  have finals := @finalsSealed_of_blocks state
    (upsertConversation agentId harness liveState state) rfl (finalsSealed_of_run empty run)
  have idles := idles_of_projected upserted finals
    (fun seg member => pyEq_of_items keyed items seg (List.mem_of_mem_filter member))
    merging restoring
  have restored := reordering_of_returns
    ((mergeNonUserSegments_keeping _ _ _).returns merging upserted).1 restoring
  -- What the second projection starts from, by the steps of the first one.
  have blocks : stop.blocks = last.blocks := by
    rw [flat, projected_blocks]
  have columns : metadataChanged stop.row doc = false ↔ TextColumns doc := by
    have row : stop.row = (upsertConversation agentId harness liveState state).row := by
      rw [flat, projected_row, restored.row]
      exact (mergeNonUserSegments_row _ _ _).returns merging
    rw [row]
    exact metadataChanged_upsert harnessBound stateBound
  have read : readConversationBlocks (upsertConversation agentId harness liveState stop)
      = readConversationBlocks last := by
    unfold readConversationBlocks
    exact congrArg (fun table => List.insertionSort _ (Table.rows table)) blocks
  have counted : nonUserBlocks (upsertConversation agentId harness liveState stop)
      = nonUserBlocks last := by
    unfold nonUserBlocks
    rw [read]
  have again := restored.again read
  -- The second merge does nothing exactly if the blocks stay aligned.
  have idle : StaysAligned state segments
      → Returns (mergeNonUserSegmentsWithChanges (nonUserSegments segments) receivedAt' now')
          (upsertConversation agentId harness liveState stop) []
          (upsertConversation agentId harness liveState stop) := by
    intro stays
    refine mergeNonUserSegments_of_settled ?_ receivedAt' now'
    rw [counted]
    rcases Nat.lt_or_eq_of_le idles.length_le with less | equal
    · exact .inl less
    · exact .inr ⟨equal, settled_contents.mp ((idles.settled equal).mpr stays)⟩
  constructor
  · intro repeats
    obtain ⟨merged', stop', returned, rows, invalidations⟩ := repeats
    obtain ⟨segments', harness', liveState', merges', middle', reordered', last', items',
      harnessBound', stateBound', merging', restoring', -, mapped, rfl⟩ :=
      projection_iff.mp returned
    cases items.symm.trans items'
    cases harnessBound.symm.trans harnessBound'
    cases stateBound.symm.trans stateBound'
    cases List.map_eq_nil_iff.mp mapped.symm
    have stays : StaysAligned state segments := by
      rcases Nat.lt_or_eq_of_le idles.length_le with less | equal
      · exact idles.shorter less
      · refine (idles.settled equal).mp (settled_contents.mpr ?_)
        rw [← counted]
        exact settled_of_mergeNonUserSegments (by rw [counted]; exact equal) merging'
    cases (idle stays).symm.trans merging'
    cases again.symm.trans restoring'
    refine ⟨columns.mp ((projected_invalidations _ _ _ _).mp invalidations), ?_⟩
    intro others same
    cases items.symm.trans same
    exact stays
  · intro condition
    obtain ⟨texts, stays⟩ := condition
    refine ⟨_, _, projection_iff.mpr ⟨⟨segments, harness, liveState, [], _, [], _, items,
      harnessBound, stateBound, idle (stays segments items), again, rfl, rfl, rfl⟩⟩, ?_, ?_⟩
    · rw [projected_blocks]
      rfl
    · exact (projected_invalidations _ _ _ _).mpr (columns.mpr texts)

end Calls

----------------------------------------
-- A notice between a turn and its answers
----------------------------------------

namespace Notices

open Answers

def asked : JsonValue :=
  .obj (.ofList [("type", .str "user"), ("text", .str "question")])

def notice : ConversationOp := .appendNotice "agent" "usage limit" "error" none "t0"

def parsed (answers : List JsonValue) : JsonObject := docOf (asked :: answers)

def projects (answers : List JsonValue) : ConversationOp :=
  .projectParsedDoc "agent" (parsed answers) none "t1"

theorem after_append (calls : List ConversationOp) (call : ConversationOp)
    : after (calls ++ [call]) = final (call.exec (after calls)) := by
  unfold after
  rw [List.foldl_append]
  rfl

/-- A projection that returns ends where its call does. -/
theorem returns_projects {calls : List ConversationOp} {answers : List JsonValue}
    (returns
      : (outcome (projectParsedDocWithChanges "agent" (parsed answers) none "t1"
          (after calls))).isOk = true)
    : ∃ merged changes,
        Returns (projectParsedDocWithChanges "agent" (parsed answers) none "t1") (after calls)
          (merged, changes) (after (calls ++ [projects answers])) := by
  have ends : final ((projects answers).exec (after calls))
      = final (projectParsedDocWithChanges "agent" (parsed answers) none "t1" (after calls)) :=
    final_before (fun _ => .pure _) (after calls)
  rw [after_append, ends]
  cases ended : outcome (projectParsedDocWithChanges "agent" (parsed answers) none "t1"
      (after calls)) with
  | error raised =>
    rw [ended] at returns
    cases returns
  | ok value => exact ⟨value.1, value.2, outcome_eq_ok.mp ended⟩

/-- Without a notice the answers are stored once. -/
theorem repeats_answer
    : Repeats "agent" (parsed [answer "a" .null]) none "t2"
        (after [question, projects [answer "a" .null]]) := by
  have keyed : (parsed [answer "a" .null]).Keyed := by
    simp [parsed, docOf, asked, answer, JsonFields.ofList, JsonItems.ofList, JsonFields.Keyed,
      JsonItems.Keyed, JsonValue.Keyed, JsonFields.keys]
  obtain ⟨merged, changes, first⟩ := @returns_projects [question] [answer "a" .null]
    (by decide +kernel)
  refine (repeats_iff (rfl : EmptyConversation {}) (steps_after {} [question]) keyed first none
    "t2").mpr ⟨?_, fun segments items => ?_⟩
  · intro key member value found
    simp only [List.mem_cons, List.not_mem_nil, or_false] at member
    rcases member with rfl | rfl <;> cases found
  · cases items
    intro _ _
    decide +kernel

/-- The notice takes the first answer's place, and the second projection stores that answer
in the place of the second one.
-/
theorem not_repeats_noticed
    : Steps ConversationStep {} [question, notice] (after [question, notice])
      ∧ (∃ merged changes,
          Returns (projectParsedDocWithChanges "agent"
            (parsed [answer "ab" .null, answer "a" .null]) none "t1")
            (after [question, notice]) (merged, changes)
            (after [question, notice, projects [answer "ab" .null, answer "a" .null]]))
      ∧ ¬ Repeats "agent" (parsed [answer "ab" .null, answer "a" .null]) none "t2"
          (after [question, notice, projects [answer "ab" .null, answer "a" .null]]) := by
  have first := @returns_projects [question, notice]
    [answer "ab" .null, answer "a" .null] (by decide +kernel)
  refine ⟨steps_after _ _, first, fun repeats => ?_⟩
  obtain ⟨merged, stop, returned, -⟩ := repeats
  have changed : ((outcome (projectParsedDocWithChanges "agent"
      (parsed [answer "ab" .null, answer "a" .null]) none "t2"
      (after [question, notice, projects [answer "ab" .null, answer "a" .null]]))).toOption.map
        (fun result => result.2.isEmpty)) = some false := by decide +kernel
  rw [outcome_of_returns returned] at changed
  cases changed

end Notices

end Murder.Conversations

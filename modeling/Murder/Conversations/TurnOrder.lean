import Mathlib.Data.List.Perm.Subperm
import Murder.Conversations.Arrangement

/-! Reading blocks in ordinal order, and restoring the order of turns: the ordinals move out of
the way and are numbered again, and no row ever meets another's ordinal.
-/

namespace Murder.Conversations

open Murder.Contracts Library.Tables Library.Transactions

theorem readConversationBlocks_perm (state : Conversation)
    : (readConversationBlocks state).Perm state.blocks.rows :=
  List.perm_insertionSort _ _

variable {state : Conversation} {block : ConversationBlock}

@[simp] theorem mem_readConversationBlocks
    : block ∈ readConversationBlocks state ↔ block ∈ state.blocks :=
  (readConversationBlocks_perm state).mem_iff

theorem ordinals_apart (state : Conversation)
    : state.blocks.rows.Pairwise (fun left right => left.ordinal ≠ right.ordinal) := by
  refine state.blocks.unique.imp (fun {left right} apart => ?_)
  intro same
  simp [blockClash, same] at apart

theorem ids_apart (state : Conversation)
    : state.blocks.rows.Pairwise (fun left right => left.id ≠ right.id) := by
  refine state.blocks.unique.imp (fun {left right} apart => ?_)
  intro same
  simp [blockClash, same] at apart

theorem readConversationBlocks_sorted (state : Conversation)
    : (readConversationBlocks state).Pairwise (fun left right =>
        left.ordinal < right.ordinal) := by
  have total : Std.Total (fun left right : ConversationBlock =>
      left.ordinal ≤ right.ordinal) := ⟨fun left right => Nat.le_total _ _⟩
  have trans : IsTrans ConversationBlock (fun left right =>
      left.ordinal ≤ right.ordinal) := ⟨fun _ _ _ hl hr => Nat.le_trans hl hr⟩
  have weak : (readConversationBlocks state).Pairwise (fun left right =>
      left.ordinal ≤ right.ordinal) := List.pairwise_insertionSort _ _
  have apart : (readConversationBlocks state).Pairwise (fun left right =>
      left.ordinal ≠ right.ordinal) :=
    ((readConversationBlocks_perm state).pairwise_iff (fun h => h.symm)).mpr
      (ordinals_apart state)
  refine (weak.and apart).imp (fun {left right} both => ?_)
  have le := both.1
  have ne := both.2
  omega

theorem readConversationBlocks_ids (state : Conversation)
    : (readConversationBlocks state).Pairwise (fun left right => left.id ≠ right.id) :=
  ((readConversationBlocks_perm state).pairwise_iff (fun h => h.symm)).mpr (ids_apart state)

variable {blocks : List ConversationBlock}

theorem readConversationBlocks_eq (perm : blocks.Perm state.blocks.rows)
    (sorted : blocks.Pairwise (fun left right => left.ordinal < right.ordinal))
    : readConversationBlocks state = blocks := by
  refine List.Perm.eq_of_pairwise (fun left right _ _ hl hr => ?_)
    (readConversationBlocks_sorted state) sorted
    ((readConversationBlocks_perm state).trans perm.symm)
  omega

theorem readConversationBlocks_append {start stop : Conversation}
    (rows : stop.blocks.rows = start.blocks.rows ++ [block])
    (last : ∀ other ∈ start.blocks, other.ordinal < block.ordinal)
    : readConversationBlocks stop = readConversationBlocks start ++ [block] := by
  refine readConversationBlocks_eq ?_ ?_
  · rw [rows]
    exact (readConversationBlocks_perm start).append_right _
  · refine List.pairwise_append.mpr ⟨readConversationBlocks_sorted start,
      List.pairwise_singleton _ _, fun earlier member later single => ?_⟩
    rw [List.mem_singleton.mp single]
    exact last earlier (mem_readConversationBlocks.mp member)

/-- A change of the blocks that keeps their ordinals keeps the order they are read in. -/
theorem readConversationBlocks_map {start stop : Conversation}
    {change : ConversationBlock → ConversationBlock}
    (rows : stop.blocks.rows = start.blocks.rows.map change)
    (ordinal : ∀ block, (change block).ordinal = block.ordinal)
    : readConversationBlocks stop = (readConversationBlocks start).map change := by
  refine readConversationBlocks_eq ?_ ?_
  · rw [rows]
    exact (readConversationBlocks_perm start).map change
  · refine List.pairwise_map.mpr ((readConversationBlocks_sorted start).imp ?_)
    intro left right less
    rw [ordinal, ordinal]
    exact less

def ConversationBlock.at_ (position : Nat → Nat) (block : ConversationBlock)
    : ConversationBlock :=
  { block with ordinal := position block.id }

def outsideBlocks (state : Conversation) :=
  (state.row, state.lastBlockId, state.messages, state.invalidations)

/-- The conversation with its blocks at the given positions. -/
structure Positioned (start : Conversation) (position : Nat → Nat) (state : Conversation)
    : Prop where
  rows : state.blocks.rows = start.blocks.rows.map (ConversationBlock.at_ position)
  rest : Keeps outsideBlocks start state

theorem setOrdinal_returns {start : Conversation} {position : Nat → Nat}
    (positioned : Positioned start position state) {blockId : Nat} {ordinal : Nat → Nat}
    {target : Nat} (moves : ordinal (position blockId) = target)
    (apart
      : start.blocks.rows.Pairwise (fun left right =>
          position left.id ≠ position right.id))
    (free : ∀ block ∈ start.blocks, block.id ≠ blockId → position block.id ≠ target)
    : ∃ stop, Returns (setOrdinal blockId ordinal) state () stop
        ∧ Positioned start (Function.update position blockId target) stop := by
  have rows : state.blocks.rows.map (fun block =>
      if block.id == blockId then { block with ordinal := ordinal block.ordinal } else block)
      = start.blocks.rows.map
          (ConversationBlock.at_ (Function.update position blockId target)) := by
    rw [positioned.rows, List.map_map]
    refine List.map_congr_left (fun block _ => ?_)
    by_cases same : block.id = blockId
    · simp [ConversationBlock.at_, same, moves]
    · simp [ConversationBlock.at_, same]
  have unique : (state.blocks.rows.map (fun block =>
      if block.id == blockId then { block with ordinal := ordinal block.ordinal }
      else block)).Pairwise (fun earlier later => blockClash earlier later = false) := by
    rw [rows, List.pairwise_map]
    refine ((ids_apart start).and apart).imp_of_mem (fun {left right} hl hr both => ?_)
    have ordinals : Function.update position blockId target left.id
        ≠ Function.update position blockId target right.id := by
      by_cases same : left.id = blockId
      · have other : right.id ≠ blockId := fun equal => both.1 (same.trans equal.symm)
        rw [same, Function.update_self, Function.update_of_ne other]
        exact (free right hr other).symm
      · by_cases same' : right.id = blockId
        · rw [same', Function.update_self, Function.update_of_ne same]
          exact free left hl same
        · rw [Function.update_of_ne same, Function.update_of_ne same']
          exact both.2
    simp [blockClash, ConversationBlock.at_, both.1, ordinals]
  refine ⟨{ state with blocks := ⟨_, unique⟩ }, ?_, rows, positioned.rest⟩
  unfold Returns setOrdinal Table.replace?
  rw [dif_pos unique]

/-- Moving listed blocks one after another succeeds when no position in use before or after
is met; by induction over the list.
-/
theorem setOrdinals_returns {ι : Type} {start : Conversation} {items : List ι}
    {blockId : ι → Nat} {ordinal : ι → Nat → Nat} {target : Nat → Nat}
    {state : Conversation} {position : Nat → Nat}
    (positioned : Positioned start position state)
    (distinct : items.Pairwise (fun left right => blockId left ≠ blockId right))
    (moves
      : ∀ item ∈ items,
          ordinal item (position (blockId item)) = target (blockId item))
    (apart
      : start.blocks.rows.Pairwise (fun left right => position left.id ≠ position right.id))
    (free
      : ∀ block ∈ start.blocks,
          ∀ item ∈ items,
            block.id ≠ blockId item → position block.id ≠ target (blockId item))
    (targets
      : ∀ left ∈ items,
          ∀ right ∈ items,
            blockId left ≠ blockId right → target (blockId left) ≠ target (blockId right))
    : ∃ stop, Returns (items.forM (fun item => setOrdinal (blockId item) (ordinal item)))
        state () stop
        ∧ Positioned start
            (fun id => if id ∈ items.map blockId then target id else position id) stop := by
  induction items generalizing state position with
  | nil => exact ⟨state, rfl, by simpa using positioned⟩
  | cons item rest ih =>
    obtain ⟨others, distinct⟩ := List.pairwise_cons.mp distinct
    obtain ⟨middle, first, moved⟩ := setOrdinal_returns positioned
      (moves item List.mem_cons_self) apart
      (fun block member other => free block member item List.mem_cons_self other)
    have next : ∀ id, id ≠ blockId item
        → Function.update position (blockId item) (target (blockId item)) id
          = position id :=
      fun id other => Function.update_of_ne other _ _
    have rest_ := ih moved distinct ?_ ?_ ?_ ?_
    · obtain ⟨stop, remaining, done⟩ := rest_
      refine ⟨stop, returns_bind.mpr ⟨(), middle, first, remaining⟩, ?_⟩
      have same : (fun id => if id ∈ rest.map blockId then target id
          else Function.update position (blockId item) (target (blockId item)) id)
          = fun id => if id ∈ (item :: rest).map blockId then target id else position id := by
        funext id
        by_cases here : id = blockId item
        · subst here
          simp
        · simp [here]
      rwa [← same]
    · intro other member
      rw [next _ (others other member).symm]
      exact moves other (List.mem_cons_of_mem _ member)
    · refine ((ids_apart start).and apart).imp_of_mem (fun {left right} hl hr both => ?_)
      by_cases same : left.id = blockId item
      · have other : right.id ≠ blockId item := fun equal => both.1 (same.trans equal.symm)
        rw [same, Function.update_self, next _ other]
        exact (free right hr item List.mem_cons_self other).symm
      · by_cases same' : right.id = blockId item
        · rw [same', Function.update_self, next _ same]
          exact free left hl item List.mem_cons_self same
        · rw [next _ same, next _ same']
          exact both.2
    · intro block member other held apart_
      by_cases same : block.id = blockId item
      · rw [same, Function.update_self]
        exact targets item List.mem_cons_self other (List.mem_cons_of_mem _ held)
          (others other held)
      · rw [next _ same]
        exact free block member other (List.mem_cons_of_mem _ held) apart_
    · intro left hl right hr
      exact targets left (List.mem_cons_of_mem _ hl) right (List.mem_cons_of_mem _ hr)

def ordinalAt (state : Conversation) (blockId : Nat) : Nat :=
  ((readBlockById state blockId).map ConversationBlock.ordinal).getD 0

theorem ordinalAt_stored (member : block ∈ state.blocks)
    : ordinalAt state block.id = block.ordinal := by
  have found : readBlockById state block.id = some block := by
    refine Table.find?_eq_some member (beq_self_eq_true _) (fun other stored same => ?_)
    exact block_eq_of_id stored member (eq_of_beq same)
  rw [ordinalAt, found]
  rfl

theorem positioned_self (state : Conversation) : Positioned state (ordinalAt state) state := by
  refine ⟨?_, rfl⟩
  refine Eq.symm ((List.map_congr_left (fun block member => ?_)).trans (List.map_id _))
  rw [ConversationBlock.at_, ordinalAt_stored member]
  rfl

/-- Moving every ordinal up by more than the number of blocks meets no ordinal. -/
theorem offsetOrdinals_returns (arranged : Arranged state)
    {offset : Nat} (far : state.blocks.rows.length ≤ offset)
    : ∃ stop, Returns (offsetOrdinals offset) state () stop
        ∧ Positioned state (fun id =>
            if id ∈ state.blocks.rows.map ConversationBlock.id then
              ordinalAt state id + offset
            else
              ordinalAt state id) stop := by
  have apart : state.blocks.rows.Pairwise (fun left right =>
      ordinalAt state left.id ≠ ordinalAt state right.id) := by
    refine (ordinals_apart state).imp_of_mem (fun {left right} hl hr ne => ?_)
    rw [ordinalAt_stored hl, ordinalAt_stored hr]
    exact ne
  have moves := @setOrdinals_returns _ state state.blocks.rows
    ConversationBlock.id (fun _ ordinal => ordinal + offset)
    (fun id => ordinalAt state id + offset) state _ (positioned_self state) (ids_apart state)
    (fun _ _ => rfl) apart ?_ ?_
  · obtain ⟨stop, moved, positioned⟩ := moves
    exact ⟨stop, returns_bind.mpr ⟨state, state, rfl, moved⟩, positioned⟩
  · intro block member item held _
    have below := arranged.ordinal_lt member
    rw [ordinalAt_stored member]
    omega
  · intro left hl right hr ne
    have distinct : left.ordinal ≠ right.ordinal := by
      intro same
      exact ne (congrArg ConversationBlock.id
        (Table.eq_of_clash hl hr (by simp [blockClash, same]) (by simp [blockClash, same])))
    rw [ordinalAt_stored hl, ordinalAt_stored hr]
    omega

theorem ordered_distinct {start : Conversation} {ordered : List ConversationBlock}
    (perm : ordered.Perm start.blocks.rows)
    : (ordered.map ConversationBlock.id).Nodup := by
  refine (perm.map ConversationBlock.id).nodup_iff.mpr ?_
  exact List.pairwise_map.mpr (ids_apart start)

/-- Moving the blocks out of the way and numbering them in a given order succeeds. -/
theorem reorder_returns (arranged : Arranged state)
    {ordered : List ConversationBlock} (perm : ordered.Perm state.blocks.rows)
    {offset : Nat} (far : state.blocks.rows.length ≤ offset)
    : ∃ middle stop, Returns (offsetOrdinals offset) state () middle
        ∧ Returns (renumber (ordered.map ConversationBlock.id)) middle () stop
        ∧ stop.blocks.rows = state.blocks.rows.map (ConversationBlock.at_ (fun id =>
            (ordered.map ConversationBlock.id).idxOf id))
        ∧ Keeps outsideBlocks state stop := by
  obtain ⟨middle, first, positioned⟩ := offsetOrdinals_returns arranged far
  have nodup := ordered_distinct perm
  have stored : ∀ block ∈ state.blocks,
      block.id ∈ state.blocks.rows.map ConversationBlock.id :=
    fun block member => List.mem_map.mpr ⟨block, member, rfl⟩
  have indexed : ∀ item ∈ (ordered.map ConversationBlock.id).zipIdx,
      item.2 = (ordered.map ConversationBlock.id).idxOf item.1
        ∧ item.2 < state.blocks.rows.length := by
    intro item member
    have at_ := List.mem_zipIdx_iff_getElem?.mp member
    obtain ⟨less, same⟩ := List.getElem?_eq_some_iff.mp at_
    refine ⟨?_, ?_⟩
    · rw [← same, nodup.idxOf_getElem]
    · rw [← perm.length_eq]
      simpa using less
  have moves := @setOrdinals_returns _ state
    (ordered.map ConversationBlock.id).zipIdx Prod.fst (fun item _ => item.2)
    (fun id => (ordered.map ConversationBlock.id).idxOf id) middle _ positioned ?_ ?_ ?_ ?_ ?_
  · obtain ⟨stop, moved, positioned'⟩ := moves
    refine ⟨middle, stop, first, moved, ?_, positioned'.rest⟩
    rw [positioned'.rows]
    refine List.map_congr_left (fun block member => ?_)
    have held : block.id ∈ (ordered.map ConversationBlock.id).zipIdx.map Prod.fst := by
      rw [List.zipIdx_map_fst]
      exact (perm.map ConversationBlock.id).mem_iff.mpr (stored block member)
    simp only [ConversationBlock.at_, if_pos held]
  · have firsts : ((ordered.map ConversationBlock.id).zipIdx.map Prod.fst).Nodup := by
      rw [List.zipIdx_map_fst]
      exact nodup
    exact List.pairwise_map.mp firsts
  · intro item member
    exact (indexed item member).1
  · refine (ordinals_apart state).imp_of_mem (fun {left right} hl hr ne => ?_)
    rw [if_pos (stored left hl), if_pos (stored right hr), ordinalAt_stored hl,
      ordinalAt_stored hr]
    omega
  · intro block member item held _
    rw [if_pos (stored block member), ← (indexed item held).1]
    have less := (indexed item held).2
    omega
  · intro left hl right hr ne same
    have member : left.1 ∈ ordered.map ConversationBlock.id :=
      List.mem_of_getElem? (List.mem_zipIdx_iff_getElem?.mp hl)
    exact ne ((List.idxOf_inj member).mp same)

def orderedBlocks (blocks placed : List ConversationBlock) : List ConversationBlock :=
  placed ++ blocks.filter (fun block => !placed.any (fun other => other.id == block.id))

theorem mem_unplaced {blocks placed : List ConversationBlock}
    (distinct : blocks.Pairwise (fun left right => left.id ≠ right.id))
    (subset : placed ⊆ blocks) {block : ConversationBlock}
    : block ∈ blocks.filter (fun block => !placed.any (fun other => other.id == block.id))
      ↔ block ∈ blocks ∧ block ∉ placed := by
  rw [List.mem_filter]
  refine and_congr_right (fun member => ?_)
  simp only [Bool.not_eq_true', List.any_eq_false, beq_iff_eq]
  constructor
  · intro none_ held
    exact none_ block held rfl
  · intro absent other held same
    have distinct' : (blocks.map ConversationBlock.id).Nodup := List.pairwise_map.mpr distinct
    have equal := List.inj_on_of_nodup_map distinct' (subset held) member same
    exact absent (equal ▸ held)

variable {placed : List ConversationBlock}

theorem orderedBlocks_perm (distinct : blocks.Pairwise (fun left right => left.id ≠ right.id))
    (subperm : placed.Subperm blocks)
    : (orderedBlocks blocks placed).Perm blocks := by
  have nodup : blocks.Nodup := distinct.imp (fun {left right} ne same => ne (by rw [same]))
  have placedNodup : placed.Nodup := by
    obtain ⟨other, perm, sublist⟩ := subperm
    exact perm.nodup_iff.mp (nodup.sublist sublist)
  refine (List.perm_ext_iff_of_nodup ?_ nodup).mpr (fun block => ?_)
  · refine List.nodup_append.mpr ⟨placedNodup, nodup.filter _, fun block held other left => ?_⟩
    intro same
    subst same
    exact ((mem_unplaced distinct subperm.subset).mp left).2 held
  · rw [orderedBlocks, List.mem_append, mem_unplaced distinct subperm.subset]
    constructor
    · intro h
      rcases h with held | left
      · exact subperm.subset held
      · exact left.1
    · intro member
      by_cases held : block ∈ placed
      · exact .inl held
      · exact .inr ⟨member, held⟩

/-- Blocks whose placed part stands in front of them keep their order. -/
theorem orderedBlocks_filter {keep : ConversationBlock → Bool}
    (distinct : blocks.Pairwise (fun left right => left.id ≠ right.id))
    (subset : placed ⊆ blocks) (order : placed.filter keep <+: blocks.filter keep)
    : (orderedBlocks blocks placed).filter keep = blocks.filter keep := by
  obtain ⟨behind, whole⟩ := order
  have nodup : (blocks.filter keep).Nodup :=
    (distinct.imp (fun {left right} ne same => ne (by rw [same]))).filter _
  rw [← whole] at nodup
  have apart := (List.nodup_append.mp nodup).2.2
  have unplaced : ∀ block ∈ blocks.filter keep,
      (!placed.any (fun other => other.id == block.id)) = decide (block ∉ placed) := by
    intro block member
    have stored := (List.mem_filter.mp member).1
    have both := @mem_unplaced blocks placed distinct subset block
    rw [List.mem_filter] at both
    rw [Bool.eq_iff_iff, decide_eq_true_eq]
    constructor
    · intro h
      exact (both.mp ⟨stored, h⟩).2
    · intro h
      exact (both.mpr ⟨stored, h⟩).2
  have front : (placed.filter keep).filter (fun block => decide (block ∉ placed)) = [] := by
    refine List.filter_eq_nil_iff.mpr (fun block member => ?_)
    simpa using (List.mem_filter.mp member).1
  have back : behind.filter (fun block => decide (block ∉ placed)) = behind := by
    refine List.filter_eq_self.mpr (fun block member => ?_)
    have kept : block ∈ blocks.filter keep := by
      rw [← whole]
      exact List.mem_append_right _ member
    rw [decide_eq_true_eq]
    intro held
    exact apart block (List.mem_filter.mpr ⟨held, (List.mem_filter.mp kept).2⟩) block member rfl
  rw [orderedBlocks, List.filter_append, List.filter_comm, List.filter_congr unplaced, ← whole,
    List.filter_append, front, back, List.nil_append]

/-- A block of the parsed stream: neither a user turn nor a notice. -/
def isParsed (block : ConversationBlock) : Bool :=
  block.kind != .user && block.kind != .notice

/-- What restoring the order does: nothing, or it numbers the blocks in an order that keeps
the parsed blocks as they stood.
-/
inductive Restored (start : Conversation) : Conversation → Prop
  | same : Restored start start
  | reordered {stop} (ordered : List ConversationBlock)
    (perm : ordered.Perm start.blocks.rows)
    (parsed : ordered.filter isParsed = (readConversationBlocks start).filter isParsed)
    (rows
      : stop.blocks.rows
        = start.blocks.rows.map (ConversationBlock.at_ (fun id =>
            (ordered.map ConversationBlock.id).idxOf id)))
    (rest : Keeps outsideBlocks start stop)
    : Restored start stop

/-- Blocks numbered by their place in a list carry the numbers below its length. -/
theorem map_idxOf_range {ordered : List ConversationBlock}
    (distinct : (ordered.map ConversationBlock.id).Nodup)
    : ordered.map (fun block => (ordered.map ConversationBlock.id).idxOf block.id)
      = List.range ordered.length := by
  refine List.ext_getElem (by simp) (fun index hl hr => ?_)
  have less : index < (ordered.map ConversationBlock.id).length := by simpa using hl
  have same := distinct.idxOf_getElem index less
  simpa using same

section Restored

variable {start stop : Conversation} {ordered : List ConversationBlock}
  (perm : ordered.Perm start.blocks.rows)
  (rows
    : stop.blocks.rows
      = start.blocks.rows.map (ConversationBlock.at_ (fun id =>
          (ordered.map ConversationBlock.id).idxOf id)))

include perm rows

theorem readConversationBlocks_reordered
    : readConversationBlocks stop
      = ordered.map (ConversationBlock.at_ (fun id =>
          (ordered.map ConversationBlock.id).idxOf id)) := by
  refine readConversationBlocks_eq ?_ ?_
  · rw [rows]
    exact perm.map _
  · have numbers := map_idxOf_range (ordered_distinct perm)
    have increasing : (ordered.map (fun block =>
        (ordered.map ConversationBlock.id).idxOf block.id)).Pairwise (fun left right =>
          left < right) := by
      rw [numbers]
      exact List.pairwise_lt_range
    exact List.pairwise_map.mpr (List.pairwise_map.mp increasing)

theorem reordered_keeping (rest : Keeps outsideBlocks start stop) : Keeping start stop := by
  intro arranged
  have issued : stop.lastBlockId = start.lastBlockId := by
    simp only [Keeps, outsideBlocks, Prod.mk.injEq] at rest
    exact rest.2.1
  constructor
  · constructor
    · rw [rows, List.pairwise_map]
      exact arranged.created
    · intro block member
      rw [Table.mem_def, rows] at member
      obtain ⟨old, stored, rfl⟩ := List.mem_map.mp member
      rw [issued]
      exact arranged.issued old stored
    · rw [rows, List.map_map, List.length_map, ← perm.length_eq,
        ← map_idxOf_range (ordered_distinct perm)]
      exact perm.symm.map _
    · rw [rows, List.pairwise_map]
      exact arranged.live
    · intro block member
      rw [Table.mem_def, rows] at member
      obtain ⟨old, stored, rfl⟩ := List.mem_map.mp member
      exact arranged.users old stored
  · intro old member
    have held : old.at_ (fun id => (ordered.map ConversationBlock.id).idxOf id)
        ∈ stop.blocks := by
      rw [Table.mem_def, rows]
      exact List.mem_map.mpr ⟨old, member, rfl⟩
    exact ⟨_, held, rfl, fun h => h, fun _ => .inl ⟨rfl, rfl⟩⟩

end Restored

theorem Restored.keeping {start stop : Conversation} (h : Restored start stop)
    : Keeping start stop := by
  cases h with
  | same => exact refl_of Keeping start
  | reordered ordered perm parsed rows rest => exact reordered_keeping perm rows rest

variable {segments : List JsonValue}

section Order

variable [PyRepr]

/-- Placing blocks draws them from the users and the others without repetition, the others in
their order; by induction over the segments.
-/
theorem placeBlocks_places {users nonUsers : List ConversationBlock} {matchedUser : Bool}
    (h : placeBlocks segments users nonUsers = .ok (placed, matchedUser))
    {keep : ConversationBlock → Bool} (drops : ∀ block ∈ users, keep block = false)
    (keeps : ∀ block ∈ nonUsers, keep block = true)
    : placed.Subperm (users ++ nonUsers) ∧ placed.filter keep <+: nonUsers := by
  induction segments generalizing users nonUsers placed matchedUser with
  | nil =>
    cases h
    exact ⟨List.nil_subperm, List.nil_prefix⟩
  | cons segment rest ih =>
    cases segment with
    | obj fields =>
      unfold placeBlocks at h
      split at h
      · split at h
        · split at h
          · next block found =>
              obtain ⟨⟨placed', matched'⟩, hp, h⟩ := except_bind_ok.mp h
              cases h
              have member := List.mem_of_find?_eq_some found
              obtain ⟨subperm, order⟩ := ih hp
                (fun other held => drops other (List.mem_of_mem_erase held)) keeps
              refine ⟨?_, ?_⟩
              · have whole := (List.subperm_cons block).mpr subperm
                refine whole.trans (List.Perm.subperm ?_)
                exact (List.perm_cons_erase member).symm.append_right nonUsers
              · rw [List.filter_cons_of_neg (by simp [drops block member])]
                exact order
          · exact ih h drops keeps
        · exact ih h drops keeps
      · split at h
        · next block others =>
            obtain ⟨⟨placed', matched'⟩, hp, h⟩ := except_bind_ok.mp h
            cases h
            obtain ⟨subperm, order⟩ := ih hp drops
              (fun other held => keeps other (List.mem_cons_of_mem _ held))
            refine ⟨?_, ?_⟩
            · have whole := (List.subperm_cons block).mpr subperm
              refine whole.trans (List.Perm.subperm ?_)
              exact List.perm_middle.symm
            · rw [List.filter_cons_of_pos (keeps block List.mem_cons_self)]
              exact List.cons_prefix_cons.mpr ⟨rfl, order⟩
        · exact ih h drops keeps
    | _ => cases h

def NoObject (segment : JsonValue) : Prop := ∀ fields, segment ≠ .obj fields

theorem placeBlocks_error {users nonUsers : List ConversationBlock}
    {raised : Failure} (h : placeBlocks segments users nonUsers = .error raised)
    : (∃ message, raised = .attributeError message) ∧ ∃ segment ∈ segments, NoObject segment := by
  induction segments generalizing users nonUsers with
  | nil => cases h
  | cons segment rest ih =>
    have later : ∀ {users nonUsers}, placeBlocks rest users nonUsers = .error raised
        → (∃ message, raised = .attributeError message)
          ∧ ∃ segment' ∈ segment :: rest, NoObject segment' := by
      intro users nonUsers hp
      obtain ⟨text, other, held, noObject⟩ := ih hp
      exact ⟨text, other, List.mem_cons_of_mem _ held, noObject⟩
    cases segment with
    | obj fields =>
      unfold placeBlocks at h
      split at h
      · split at h
        · split at h
          · next block found =>
              cases hp : placeBlocks rest (users.erase block) nonUsers with
              | error failure =>
                rw [hp] at h
                cases h
                exact later hp
              | ok value =>
                rw [hp] at h
                cases h
          · exact later h
        · exact later h
      · split at h
        · next block others =>
            cases hp : placeBlocks rest users others with
            | error failure =>
              rw [hp] at h
              cases h
              exact later hp
            | ok value =>
              rw [hp] at h
              cases h
        · exact later h
    | _ =>
      cases h
      exact ⟨⟨_, rfl⟩, _, List.mem_cons_self, fun fields same => by cases same⟩

theorem placeBlocks_stored {matchedUser : Bool}
    (h : placeBlocks segments
        ((readConversationBlocks state).filter (fun block => block.kind == .user))
        ((readConversationBlocks state).filter isParsed)
      = .ok (placed, matchedUser))
    : placed.Subperm (readConversationBlocks state)
      ∧ placed.filter isParsed <+: (readConversationBlocks state).filter isParsed := by
  have nodup : (readConversationBlocks state).Nodup :=
    (readConversationBlocks_ids state).imp (fun {left right} ne same => ne (by rw [same]))
  obtain ⟨subperm, order⟩ := placeBlocks_places h
    (fun block member => by
      have user := eq_of_beq (List.mem_filter.mp member).2
      simp [isParsed, user])
    (fun block member => (List.mem_filter.mp member).2)
  refine ⟨subperm.trans (List.Nodup.subperm ?_ ?_), order⟩
  · refine List.nodup_append.mpr ⟨nodup.filter _, nodup.filter _, ?_⟩
    intro block user other parsed same
    subst same
    have kind := eq_of_beq (List.mem_filter.mp user).2
    have not_ := (List.mem_filter.mp parsed).2
    simp [isParsed, kind] at not_
  · intro block member
    rcases List.mem_append.mp member with user | parsed
    · exact List.mem_of_mem_filter user
    · exact List.mem_of_mem_filter parsed

/-- Without user blocks or without parsed ones nothing is placed. -/
theorem restoreParsedTurnOrder_idle (segments : List JsonValue)
    (idle : (readConversationBlocks state).filter (fun block => block.kind == .user) = []
      ∨ (readConversationBlocks state).filter isParsed = [])
    : Returns (restoreParsedTurnOrder segments) state [] state := by
  have reads : Returns (get : ConversationSql Conversation) state state state :=
    returns_get.mpr ⟨rfl, rfl⟩
  exact returns_bind.mpr ⟨state, state, reads, (congrFun (if_pos idle) state).trans rfl⟩

theorem restoreParsedTurnOrder_placing (segments : List JsonValue)
    (busy : ¬ ((readConversationBlocks state).filter (fun block => block.kind == .user) = []
      ∨ (readConversationBlocks state).filter isParsed = []))
    : restoreParsedTurnOrder segments state
      = (fromExcept (placeBlocks segments
          ((readConversationBlocks state).filter (fun block => block.kind == .user))
          ((readConversationBlocks state).filter isParsed)) >>= fun result =>
        let ordered := orderedBlocks (readConversationBlocks state) result.1
        if !result.2 ∨ ordered.map ConversationBlock.id
            = (readConversationBlocks state).map ConversationBlock.id then
          pure []
        else do
          offsetOrdinals ((readConversationBlocks state).length + 1)
          renumber (ordered.map ConversationBlock.id)
          pure (ordered.map ConversationBlock.id).zipIdx : ConversationSql _) state :=
  congrFun (if_neg busy) state

/-- Restoring the order returns, or raises on a segment that is no object without a write:
no ordinal ever meets another one.
-/
theorem restoreParsedTurnOrder_outcome (arranged : Arranged state) (segments : List JsonValue)
    : (∃ reordered stop, Returns (restoreParsedTurnOrder segments) state reordered stop
        ∧ Restored state stop)
      ∨ (∃ message, Raises (restoreParsedTurnOrder segments) state (.attributeError message)
          state) ∧ ∃ segment ∈ segments, NoObject segment := by
  by_cases idle : (readConversationBlocks state).filter (fun block => block.kind == .user) = []
      ∨ (readConversationBlocks state).filter isParsed = []
  · exact .inl ⟨[], state, restoreParsedTurnOrder_idle segments idle, .same⟩
  unfold Returns Raises
  rw [restoreParsedTurnOrder_placing segments idle]
  cases hp : placeBlocks segments
      ((readConversationBlocks state).filter (fun block => block.kind == .user))
      ((readConversationBlocks state).filter isParsed) with
  | error raised =>
    obtain ⟨⟨message, rfl⟩, noObject⟩ := placeBlocks_error hp
    exact .inr ⟨⟨message, rfl⟩, noObject⟩
  | ok value =>
    obtain ⟨placed, matchedUser⟩ := value
    obtain ⟨subperm, order⟩ := placeBlocks_stored hp
    have ids := readConversationBlocks_ids state
    have read := readConversationBlocks_perm state
    have perm := (orderedBlocks_perm ids subperm).trans read
    have parsed := orderedBlocks_filter ids subperm.subset order
    obtain ⟨middle, stop, first, second, rows, rest⟩ := reorder_returns arranged perm
      (show state.blocks.rows.length ≤ (readConversationBlocks state).length + 1 by
        rw [read.length_eq]
        omega)
    left
    by_cases stays : !matchedUser
        ∨ (orderedBlocks (readConversationBlocks state) placed).map ConversationBlock.id
          = (readConversationBlocks state).map ConversationBlock.id
    · exact ⟨[], state, congrFun (if_pos stays) state, .same⟩
    · have renumbered : Returns (do
          offsetOrdinals ((readConversationBlocks state).length + 1)
          renumber ((orderedBlocks (readConversationBlocks state) placed).map
            ConversationBlock.id)
          pure ((orderedBlocks (readConversationBlocks state) placed).map
            ConversationBlock.id).zipIdx : ConversationSql _) state _ stop :=
        returns_bind.mpr ⟨(), middle, first,
          returns_bind.mpr ⟨(), stop, second, returns_pure.mpr ⟨rfl, rfl⟩⟩⟩
      exact ⟨_, stop, (congrFun (if_neg stays) state).trans renumbered,
        .reordered _ perm parsed rows rest⟩

end Order

end Murder.Conversations

import Murder.Library.Runs
import Murder.Conversations.Projection

/-! The arrangement of a conversation's blocks: creation order, ordinals and the live block,
and what a write may do to a block that is there.
-/

namespace Murder.Conversations

open Murder.Contracts Library.Tables Library.Transactions

/-- Blocks in creation order carry the ordinals below their number, and only the last one may
be live, which no user block is.
-/
structure Arranged (state : Conversation) : Prop where
  created : state.blocks.rows.Pairwise (fun earlier later => earlier.id < later.id)
  issued : ∀ block ∈ state.blocks, block.id ≤ state.lastBlockId
  ordinals
    : (state.blocks.rows.map ConversationBlock.ordinal).Perm
        (List.range state.blocks.rows.length)
  live : state.blocks.rows.Pairwise (fun earlier _ => earlier.sealed_ = true)
  users : ∀ block ∈ state.blocks, block.kind = .user → block.sealed_ = true

/-- A sealed assistant final was replaced by one whose text extends its own. -/
structure Grown (old new : ConversationBlock) : Prop where
  before : old.kind = .assistantFinal
  after : new.kind = .assistantFinal
  text : growsText old.payload new.payload = true

/-- What a block stays: once sealed it keeps its payload, or grows as an assistant final. -/
structure BlockCarried (old new : ConversationBlock) : Prop where
  id : new.id = old.id
  sealed_ : old.sealed_ = true → new.sealed_ = true
  payload : old.sealed_ = true → new.kind = old.kind ∧ new.payload = old.payload ∨ Grown old new

/-- Every block is still there. -/
def Carried (start stop : Conversation) : Prop :=
  ∀ old ∈ start.blocks, ∃ new ∈ stop.blocks, BlockCarried old new

def Keeping (start stop : Conversation) : Prop :=
  Arranged start → Arranged stop ∧ Carried start stop

theorem BlockCarried.refl (block : ConversationBlock) : BlockCarried block block :=
  ⟨rfl, fun h => h, fun _ => .inl ⟨rfl, rfl⟩⟩

theorem growsText_iff {old new : JsonValue}
    : growsText old new = true
      ↔ ∃ before after, textOf old = some before ∧ textOf new = some after
          ∧ before.length < after.length ∧ before.toList <+: after.toList := by
  unfold growsText
  split
  · next before after hb ha =>
      rw [Bool.and_eq_true, decide_eq_true_eq, List.isPrefixOf_iff_prefix]
      constructor
      · intro h
        exact ⟨before, after, hb, ha, h⟩
      · intro h
        obtain ⟨before', after', hb', ha', h⟩ := h
        rw [hb] at hb'
        rw [ha] at ha'
        cases hb'
        cases ha'
        exact h
  · next none_ =>
      constructor
      · intro h
        cases h
      · intro h
        obtain ⟨before, after, hb, ha, -⟩ := h
        exact absurd ha (none_ before after hb)

theorem growsText_trans {first second third : JsonValue} (hl : growsText first second = true)
    (hr : growsText second third = true)
    : growsText first third = true := by
  obtain ⟨one, two, h₁, h₂, shorter, pre⟩ := growsText_iff.mp hl
  obtain ⟨two', three, h₂', h₃, shorter', pre'⟩ := growsText_iff.mp hr
  rw [h₂] at h₂'
  cases h₂'
  exact growsText_iff.mpr ⟨one, three, h₁, h₃, by omega, pre.trans pre'⟩

theorem BlockCarried.trans {first second third : ConversationBlock}
    (hl : BlockCarried first second) (hr : BlockCarried second third)
    : BlockCarried first third := by
  refine ⟨hr.id.trans hl.id, fun h => hr.sealed_ (hl.sealed_ h), fun h => ?_⟩
  rcases hl.payload h with ⟨kind, payload⟩ | grown
  · rcases hr.payload (hl.sealed_ h) with ⟨kind', payload'⟩ | grown'
    · exact .inl ⟨kind'.trans kind, payload'.trans payload⟩
    · refine .inr ⟨kind ▸ grown'.before, grown'.after, ?_⟩
      rw [← payload]
      exact grown'.text
  · rcases hr.payload (hl.sealed_ h) with ⟨kind', payload'⟩ | grown'
    · refine .inr ⟨grown.before, kind'.trans grown.after, ?_⟩
      rw [payload']
      exact grown.text
    · exact .inr ⟨grown.before, grown'.after, growsText_trans grown.text grown'.text⟩

theorem Carried.refl (state : Conversation) : Carried state state :=
  fun old member => ⟨old, member, .refl old⟩

theorem Carried.trans {first second third : Conversation} (hl : Carried first second)
    (hr : Carried second third)
    : Carried first third := by
  intro old member
  obtain ⟨middle, stored, left⟩ := hl old member
  obtain ⟨new, still, right⟩ := hr middle stored
  exact ⟨new, still, left.trans right⟩

instance : IsPreorder Conversation Keeping where
  refl state := fun arranged => ⟨arranged, .refl state⟩
  trans _ _ _ hl hr := by
    intro arranged
    obtain ⟨middle, left⟩ := hl arranged
    obtain ⟨last, right⟩ := hr middle
    exact ⟨last, left.trans right⟩

/-- A write beside the blocks. -/
theorem keeping_of_blocks {start stop : Conversation} (blocks : stop.blocks = start.blocks)
    (issued : stop.lastBlockId = start.lastBlockId)
    : Keeping start stop := by
  intro arranged
  constructor
  · constructor
    · rw [blocks]
      exact arranged.created
    · rw [blocks, issued]
      exact arranged.issued
    · rw [blocks]
      exact arranged.ordinals
    · rw [blocks]
      exact arranged.live
    · rw [blocks]
      exact arranged.users
  · intro old member
    rw [blocks]
    exact ⟨old, member, .refl old⟩

variable {block : ConversationBlock}

/-- An identifier names one block. -/
theorem block_eq_of_id {state : Conversation} {other : ConversationBlock}
    (hb : block ∈ state.blocks) (ho : other ∈ state.blocks) (same : block.id = other.id)
    : block = other :=
  Table.eq_of_clash hb ho (by simp [blockClash, same]) (by simp [blockClash, same])

section Arranged

variable {state : Conversation} (arranged : Arranged state)

include arranged

theorem Arranged.eq_of_live {other : ConversationBlock} (hb : block ∈ state.blocks)
    (ho : other ∈ state.blocks) (lb : block.sealed_ = false) (lo : other.sealed_ = false)
    : block = other := by
  obtain ⟨i, hi, rfl⟩ := List.getElem_of_mem hb
  obtain ⟨j, hj, rfl⟩ := List.getElem_of_mem ho
  have order := List.pairwise_iff_getElem.mp arranged.live
  rcases Nat.lt_trichotomy i j with less | same | more
  · rw [order i j hi hj less] at lb
    cases lb
  · simp [same]
  · rw [order j i hj hi more] at lo
    cases lo

theorem Arranged.nextOrdinal : nextOrdinal state = state.blocks.rows.length := by
  have fold : ∀ (blocks : List ConversationBlock) (first : Nat),
      blocks.foldl (fun next block => max next (block.ordinal + 1)) first
        = (blocks.map ConversationBlock.ordinal).foldl (fun next ordinal =>
            max next (ordinal + 1)) first := by
    intro blocks first
    rw [List.foldl_map]
  have range : ∀ count, (List.range count).foldl (fun next ordinal => max next (ordinal + 1)) 0
      = count := by
    intro count
    induction count with
    | zero => rfl
    | succ count ih =>
      rw [List.range_succ, List.foldl_append, ih]
      simp
  unfold Conversations.nextOrdinal
  rw [fold, arranged.ordinals.foldl_eq', range]
  intro x _ y _ z
  omega

theorem Arranged.ordinal_lt (member : block ∈ state.blocks)
    : block.ordinal < state.blocks.rows.length :=
  List.mem_range.mp (arranged.ordinals.subset (List.mem_map.mpr ⟨block, member, rfl⟩))

end Arranged

theorem updateBlocks_keeping {state : Conversation} (arranged : Arranged state)
    {where_ : ConversationBlock → Bool} {change : ConversationBlock → ConversationBlock}
    {keeps : Table.KeepsKeys blockClash change}
    (ordinal : ∀ block, (change block).ordinal = block.ordinal)
    (carried
      : ∀ block ∈ state.blocks, where_ block = true → BlockCarried block (change block))
    (users
      : ∀ block ∈ state.blocks,
          where_ block = true → (change block).kind = .user → (change block).sealed_ = true)
    : Arranged (state.updateBlocks where_ change keeps)
      ∧ Carried state (state.updateBlocks where_ change keeps) := by
  have rows : (state.updateBlocks where_ change keeps).blocks.rows
      = state.blocks.rows.map (fun block => if where_ block then change block else block) := rfl
  have each : ∀ block ∈ state.blocks,
      BlockCarried block (if where_ block then change block else block) := by
    intro block member
    split
    · exact carried block member ‹_›
    · exact .refl block
  constructor
  · constructor
    · rw [rows, List.pairwise_map]
      refine arranged.created.imp_of_mem (fun {earlier later} he hl less => ?_)
      rw [(each earlier he).id, (each later hl).id]
      exact less
    · intro block member
      rw [Table.mem_def, rows] at member
      obtain ⟨old, stored, rfl⟩ := List.mem_map.mp member
      rw [(each old stored).id]
      exact arranged.issued old stored
    · have same : (state.blocks.rows.map (fun block =>
          if where_ block then change block else block)).map ConversationBlock.ordinal
          = state.blocks.rows.map ConversationBlock.ordinal := by
        rw [List.map_map]
        refine List.map_congr_left (fun block _ => ?_)
        dsimp only [Function.comp_apply]
        split
        · exact ordinal block
        · rfl
      rw [rows, same, List.length_map]
      exact arranged.ordinals
    · rw [rows, List.pairwise_map]
      refine arranged.live.imp_of_mem (fun {earlier later} he _ sealed_ => ?_)
      exact (each earlier he).sealed_ sealed_
    · intro block member user
      rw [Table.mem_def, rows] at member
      obtain ⟨old, stored, rfl⟩ := List.mem_map.mp member
      split at user
      · next touched =>
          rw [if_pos touched]
          exact users old stored touched user
      · next untouched =>
          rw [if_neg untouched]
          exact arranged.users old stored user
  · intro old member
    refine ⟨_, ?_, each old member⟩
    rw [Table.mem_def, rows]
    exact List.mem_map.mpr ⟨old, member, rfl⟩

theorem sealLiveBlock_keeping (state : Conversation) : Keeping state (sealLiveBlock state) := by
  intro arranged
  refine updateBlocks_keeping arranged (fun _ => rfl) (fun block _ _ => ?_) (fun _ _ _ _ => rfl)
  exact ⟨rfl, fun _ => rfl, fun _ => .inl ⟨rfl, rfl⟩⟩

def UnknownKind (seg : JsonValue) : Prop := ∀ kind, segmentToBlockKind seg ≠ .ok (some kind)

variable {start stop : Conversation} {raised : Failure}

theorem checkedKind_raises {kind : Option BlockKind}
    (h : Raises (checkedKind kind) start raised stop)
    : kind = none ∧ stop = start := by
  cases kind with
  | none =>
    cases h
    exact ⟨rfl, rfl⟩
  | some kind => cases h

variable {seg : JsonValue}

/-- A kind that cannot be computed, or that the column refuses, is no known one. -/
theorem unknownKind_of_error (h : segmentToBlockKind seg = .error raised)
    : UnknownKind seg := by
  intro kind known
  rw [h] at known
  cases known

theorem unknownKind_of_none (h : segmentToBlockKind seg = .ok none)
    : UnknownKind seg := by
  intro kind known
  rw [h] at known
  cases known

theorem sealLiveBlock_sealed {state : Conversation} (member : block ∈ (sealLiveBlock state).blocks)
    : block.sealed_ = true := by
  simp only [sealLiveBlock, Conversation.updateBlocks, Table.mem_update] at member
  obtain ⟨old, -, rfl⟩ := member
  split
  · rfl
  · next not_ => simpa using not_

/-- An append sealed what was live and added its block behind every other. -/
structure Appended (seg : JsonValue) (block : ConversationBlock) (start stop : Conversation)
    : Prop where
  rows : stop.blocks.rows = (sealLiveBlock start).blocks.rows ++ [block]
  id : block.id = start.lastBlockId + 1
  issued : stop.lastBlockId = block.id
  ordinal : block.ordinal = nextOrdinal (sealLiveBlock start)
  kind : segmentToBlockKind seg = .ok (some block.kind)
  payload : block.payload = seg
  sealed_ : block.sealed_ = !blockIsLive block.kind seg

theorem insertBlock_returns {result : Unit} (h : Returns (insertBlock block) start result stop)
    : stop.blocks.rows = start.blocks.rows ++ [block] ∧ stop.lastBlockId = block.id := by
  unfold Returns insertBlock at h
  split at h
  · next blocks inserted =>
      cases h
      exact ⟨(Table.insert?_eq_some inserted).2, rfl⟩
  · cases h

theorem insertBlock_raises (h : Raises (insertBlock block) start raised stop)
    : stop = start := by
  unfold Raises insertBlock at h
  split at h
  · cases h
  · cases h
    rfl

variable {receivedAt : String}

theorem appendBlock_returns (h : Returns (appendBlock seg receivedAt) start block stop)
    : Appended seg block start stop := by
  obtain ⟨kind, _, hk, h⟩ := returns_bind.mp h
  obtain ⟨kindOf, rfl⟩ := returns_fromExcept.mp hk
  obtain ⟨_, _, hm, h⟩ := returns_bind.mp h
  obtain rfl := returns_modify.mp hm
  obtain ⟨_, _, hg, h⟩ := returns_bind.mp h
  obtain ⟨rfl, rfl⟩ := returns_get.mp hg
  obtain ⟨checked, _, hc, h⟩ := returns_bind.mp h
  obtain ⟨known, rfl⟩ := returns_orRaise.mp hc
  obtain ⟨_, inserted, hi, h⟩ := returns_bind.mp h
  obtain ⟨rows, issued⟩ := insertBlock_returns hi
  obtain ⟨rfl, rfl⟩ := returns_pure.mp h
  exact ⟨rows, rfl, issued, rfl, by rw [kindOf, known], rfl, rfl⟩

theorem appendBlock_raises (h : Raises (appendBlock seg receivedAt) start raised stop)
    : stop = start ∨ stop = sealLiveBlock start := by
  rcases raises_bind.mp h with h | ⟨kind, _, hk, h⟩
  · exact .inl (Eq.symm ((Relates.fromExcept _).raises h))
  obtain ⟨-, rfl⟩ := returns_fromExcept.mp hk
  right
  rcases raises_bind.mp h with h | ⟨_, _, hm, h⟩
  · cases h
  obtain rfl := returns_modify.mp hm
  rcases raises_bind.mp h with h | ⟨_, _, hg, h⟩
  · cases h
  obtain ⟨rfl, rfl⟩ := returns_get.mp hg
  rcases raises_bind.mp h with h | ⟨checked, _, hc, h⟩
  · exact Eq.symm ((Relates.orRaise _ _).raises h)
  obtain ⟨-, rfl⟩ := returns_orRaise.mp hc
  rcases raises_bind.mp h with h | ⟨_, _, -, h⟩
  · exact insertBlock_raises h
  · exact absurd h raises_pure

/-- The ordinal behind all others and a new identifier clash with no stored block. -/
theorem insertBlock_of_arranged {state : Conversation} (arranged : Arranged state)
    (id : state.lastBlockId < block.id) (ordinal : block.ordinal = nextOrdinal state)
    : ∃ stop, Returns (insertBlock block) state () stop := by
  obtain ⟨next, inserted, -⟩ := @Table.insert?_of_apart _ _ state.blocks block (by
    intro stored member
    have issued := arranged.issued stored member
    have less := arranged.ordinal_lt member
    rw [← arranged.nextOrdinal] at less
    simp only [blockClash, Bool.or_eq_false_iff, beq_eq_false_iff_ne]
    omega)
  exact ⟨{ state with blocks := next, lastBlockId := block.id }, by
    unfold Returns insertBlock
    rw [inserted]⟩

theorem appendBlock_of_known {kind : BlockKind} {state : Conversation}
    (known : segmentToBlockKind seg = .ok (some kind)) (arranged : Arranged state)
    (receivedAt : String)
    : ∃ block stop, Returns (appendBlock seg receivedAt) state block stop := by
  obtain ⟨sealed_, -⟩ := sealLiveBlock_keeping state arranged
  obtain ⟨block, made⟩ : ∃ block : ConversationBlock, block = {
    id := (sealLiveBlock state).lastBlockId + 1
    ordinal := nextOrdinal (sealLiveBlock state)
    kind := kind
    payload := seg
    sealed_ := !blockIsLive kind seg
    serviceReceivedAt := receivedAt
  } := ⟨_, rfl⟩
  have id : (sealLiveBlock state).lastBlockId < block.id := by
    rw [made]
    exact Nat.lt_succ_self _
  have ordinal : block.ordinal = nextOrdinal (sealLiveBlock state) := by rw [made]
  obtain ⟨stop, inserted⟩ := insertBlock_of_arranged sealed_ id ordinal
  have last : Returns (do insertBlock block; pure block) (sealLiveBlock state) block stop :=
    returns_bind.mpr ⟨(), stop, inserted, returns_pure.mpr ⟨rfl, rfl⟩⟩
  have checked : Returns (checkedKind (some kind)) (sealLiveBlock state) kind
      (sealLiveBlock state) := returns_orRaise.mpr ⟨rfl, rfl⟩
  have computed : Returns (fromExcept (segmentToBlockKind seg)) state (some kind) state :=
    returns_fromExcept.mpr ⟨known, rfl⟩
  refine ⟨block, stop, returns_bind.mpr ⟨some kind, state, computed, ?_⟩⟩
  refine returns_bind.mpr ⟨⟨⟩, sealLiveBlock state, returns_modify.mpr rfl, ?_⟩
  refine returns_bind.mpr ⟨_, _, returns_get.mpr ⟨rfl, rfl⟩, ?_⟩
  refine returns_bind.mpr ⟨kind, _, checked, ?_⟩
  subst made
  exact last

theorem Appended.keeping (h : Appended seg block start stop)
    : Keeping start stop := by
  intro arranged
  obtain ⟨sealed_, carried⟩ := sealLiveBlock_keeping start arranged
  have issued := arranged.issued
  have id := h.id
  have last : stop.lastBlockId = start.lastBlockId + 1 := h.issued.trans h.id
  constructor
  · constructor
    · rw [h.rows]
      refine List.pairwise_append.mpr ⟨sealed_.created, List.pairwise_singleton _ _, ?_⟩
      intro earlier member later single
      rw [List.mem_singleton.mp single]
      have bound : earlier.id ≤ start.lastBlockId := sealed_.issued earlier member
      omega
    · intro other member
      rw [Table.mem_def, h.rows, List.mem_append, List.mem_singleton] at member
      rcases member with old | rfl
      · have bound : other.id ≤ start.lastBlockId := sealed_.issued other old
        omega
      · omega
    · rw [h.rows, List.map_append, List.length_append, List.length_singleton, List.range_succ]
      refine List.Perm.append sealed_.ordinals ?_
      rw [List.map_singleton, h.ordinal, sealed_.nextOrdinal]
    · rw [h.rows]
      refine List.pairwise_append.mpr ⟨sealed_.live, List.pairwise_singleton _ _, ?_⟩
      intro earlier member _ _
      exact sealLiveBlock_sealed member
    · intro other member user
      rw [Table.mem_def, h.rows, List.mem_append, List.mem_singleton] at member
      rcases member with old | rfl
      · exact sealLiveBlock_sealed old
      · rw [h.sealed_, user]
        rfl
  · intro old member
    obtain ⟨new, stored, same⟩ := carried old member
    refine ⟨new, ?_, same⟩
    rw [Table.mem_def, h.rows]
    exact List.mem_append_left _ stored

theorem appendBlock_keeping (seg : JsonValue) (receivedAt : String)
    : Relates Keeping (appendBlock seg receivedAt) := by
  apply Relates.intro
  · intro start block stop h
    exact (appendBlock_returns h).keeping
  · intro start raised stop h
    rcases appendBlock_raises h with rfl | rfl
    · exact refl_of Keeping _
    · exact sealLiveBlock_keeping start

theorem mem_writeBlock {blockId : Nat} {kind : BlockKind} {state : Conversation}
    (member : block ∈ state.blocks) (other : block.id ≠ blockId)
    : block ∈ (writeBlock blockId kind seg receivedAt state).blocks := by
  simp only [writeBlock, Conversation.updateBlocks, Table.mem_update]
  refine ⟨block, member, if_neg ?_⟩
  simpa using other

variable {existing : ConversationBlock}

theorem writeBlock_keeping {kind : BlockKind}
    {state : Conversation} (arranged : Arranged state) (member : existing ∈ state.blocks)
    (may
      : existing.sealed_ = false
        ∨ (existing.kind = .assistantFinal ∧ kind = .assistantFinal
            ∧ growsText existing.payload seg = true))
    (receivedAt : String)
    : Arranged (writeBlock existing.id kind seg receivedAt state)
      ∧ Carried state (writeBlock existing.id kind seg receivedAt state) := by
  refine updateBlocks_keeping arranged (fun _ => rfl) ?_ ?_
  · intro block stored same
    rw [block_eq_of_id stored member (eq_of_beq same)]
    rcases may with live | ⟨before, after, grows⟩
    · refine ⟨rfl, fun sealed_ => ?_, fun sealed_ => ?_⟩
      · rw [live] at sealed_
        cases sealed_
      · rw [live] at sealed_
        cases sealed_
    · exact ⟨rfl, fun _ => by rw [after]; rfl, fun _ => .inr ⟨before, after, grows⟩⟩
  · intro block _ _ user
    have kind_ : kind = .user := user
    rw [kind_]
    rfl

theorem updateLiveBlock_returns {found : Bool}
    (h : Returns (updateLiveBlock seg receivedAt) start found stop)
    : (stop = start ∧ ∀ block ∈ start.blocks, block.sealed_ = true)
      ∨ ∃ live ∈ start.blocks, live.sealed_ = false
          ∧ ∃ kind, segmentToBlockKind seg = .ok (some kind)
            ∧ stop = writeBlock live.id kind seg receivedAt start := by
  obtain ⟨kind, _, hk, h⟩ := returns_bind.mp h
  obtain ⟨kindOf, rfl⟩ := returns_fromExcept.mp hk
  obtain ⟨_, _, hg, h⟩ := returns_bind.mp h
  obtain ⟨rfl, rfl⟩ := returns_get.mp hg
  split at h
  · next none_ =>
      obtain ⟨-, rfl⟩ := returns_pure.mp h
      refine .inl ⟨rfl, fun block member => ?_⟩
      simpa using Table.find?_eq_none.mp none_ block member
  · next live some_ =>
      obtain ⟨member, live_⟩ := Table.mem_of_find? some_
      obtain ⟨checked, _, hc, h⟩ := returns_bind.mp h
      obtain ⟨known, rfl⟩ := returns_orRaise.mp hc
      obtain ⟨_, _, hm, h⟩ := returns_bind.mp h
      obtain rfl := returns_modify.mp hm
      obtain ⟨-, rfl⟩ := returns_pure.mp h
      exact .inr ⟨live, member, by simpa using live_, checked, by rw [kindOf, known], rfl⟩

theorem updateLiveBlock_raises (h : Raises (updateLiveBlock seg receivedAt) start raised stop)
    : stop = start ∧ UnknownKind seg := by
  rcases raises_bind.mp h with h | ⟨kind, _, hk, h⟩
  · obtain ⟨failed, rfl⟩ := raises_fromExcept.mp h
    exact ⟨rfl, unknownKind_of_error failed⟩
  obtain ⟨kindOf, rfl⟩ := returns_fromExcept.mp hk
  rcases raises_bind.mp h with h | ⟨_, _, hg, h⟩
  · cases h
  obtain ⟨rfl, rfl⟩ := returns_get.mp hg
  split at h
  · exact absurd h raises_pure
  · rcases raises_bind.mp h with h | ⟨_, _, -, h⟩
    · obtain ⟨rfl, rfl⟩ := checkedKind_raises h
      exact ⟨rfl, unknownKind_of_none kindOf⟩
    · cases h

theorem updateBlockById_returns {blockId : Nat} {updated : Option ConversationBlock}
    (h : Returns (updateBlockById blockId seg receivedAt) start updated stop)
    : ∃ kind, segmentToBlockKind seg = .ok (some kind)
        ∧ stop = writeBlock blockId kind seg receivedAt start := by
  obtain ⟨kind, _, hk, h⟩ := returns_bind.mp h
  obtain ⟨kindOf, rfl⟩ := returns_fromExcept.mp hk
  obtain ⟨checked, _, hc, h⟩ := returns_bind.mp h
  obtain ⟨known, rfl⟩ := returns_orRaise.mp hc
  obtain ⟨_, _, hm, h⟩ := returns_bind.mp h
  obtain rfl := returns_modify.mp hm
  obtain ⟨_, _, hg, h⟩ := returns_bind.mp h
  obtain ⟨rfl, rfl⟩ := returns_get.mp hg
  obtain ⟨-, rfl⟩ := returns_pure.mp h
  exact ⟨checked, by rw [kindOf, known], rfl⟩

theorem updateBlockById_raises {blockId : Nat}
    (h : Raises (updateBlockById blockId seg receivedAt) start raised stop)
    : stop = start ∧ UnknownKind seg := by
  rcases raises_bind.mp h with h | ⟨kind, _, hk, h⟩
  · obtain ⟨failed, rfl⟩ := raises_fromExcept.mp h
    exact ⟨rfl, unknownKind_of_error failed⟩
  obtain ⟨kindOf, rfl⟩ := returns_fromExcept.mp hk
  rcases raises_bind.mp h with h | ⟨checked, _, hc, h⟩
  · obtain ⟨rfl, rfl⟩ := checkedKind_raises h
    exact ⟨rfl, unknownKind_of_none kindOf⟩
  obtain ⟨-, rfl⟩ := returns_orRaise.mp hc
  cases h

theorem sealedBlockCanGrow_error (h : sealedBlockCanGrow existing seg = .error raised)
    : UnknownKind seg := by
  unfold sealedBlockCanGrow at h
  split at h
  · cases h
  · cases kind : segmentToBlockKind seg with
    | error failure => exact unknownKind_of_error kind
    | ok kind' =>
      rw [kind] at h
      cases h

theorem sealedBlockCanGrow_true (h : sealedBlockCanGrow existing seg = .ok true)
    : existing.kind = .assistantFinal ∧ segmentToBlockKind seg = .ok (some .assistantFinal)
      ∧ growsText existing.payload seg = true := by
  unfold sealedBlockCanGrow at h
  split at h
  · cases h
  · next final =>
      simp only [Bool.or_eq_true, Bool.not_eq_true', bne_iff_ne, not_or, Bool.not_eq_false,
        Decidable.not_not] at final
      cases kind : segmentToBlockKind seg with
      | error raised =>
        rw [kind] at h
        cases h
      | ok kind' =>
        rw [kind] at h
        have both : (kind' == some existing.kind && growsText existing.payload seg) = true :=
          Except.ok.inj h
        rw [Bool.and_eq_true, beq_iff_eq, final.2] at both
        exact ⟨final.2, by rw [both.1], both.2⟩

/-- What a merge does to a stored block: it leaves the block, or writes the segment to it. -/
inductive Merged (ts : String) (existing : ConversationBlock) (seg : JsonValue)
    (start : Conversation) : Conversation → Prop
  | kept (same : existing.sealed_ = true ∨ seg.pyEq existing.payload = true)
    (closed : sealedBlockCanGrow existing seg = .ok false)
    : Merged ts existing seg start start
  | written {kind} (kindOf : segmentToBlockKind seg = .ok (some kind))
    (may
      : existing.sealed_ = false
        ∨ (existing.kind = .assistantFinal ∧ kind = .assistantFinal
            ∧ growsText existing.payload seg = true))
    : Merged ts existing seg start (writeBlock existing.id kind seg ts start)

variable {ts : String}

theorem mergeStored_returns {changes : List ConversationBlockChange}
    (arranged : Arranged start) (member : existing ∈ start.blocks)
    (h : Returns (mergeStored ts existing seg) start changes stop)
    : Merged ts existing seg start stop := by
  unfold mergeStored at h
  split at h
  · next live =>
      rw [Bool.and_eq_true, Bool.not_eq_true'] at live
      obtain ⟨found, _, hu, h⟩ := returns_bind.mp h
      obtain ⟨_, _, hg, h⟩ := returns_bind.mp h
      obtain ⟨rfl, rfl⟩ := returns_get.mp hg
      obtain ⟨-, rfl⟩ := returns_pure.mp h
      rcases updateLiveBlock_returns hu with ⟨-, all⟩ | ⟨other, stored, live_, kind, kindOf, rfl⟩
      · have sealed_ := all existing member
        rw [live.1] at sealed_
        cases sealed_
      · rw [arranged.eq_of_live stored member live_ live.1]
        exact .written kindOf (.inl live.1)
  · next still =>
      obtain ⟨grows, _, hc, h⟩ := returns_bind.mp h
      obtain ⟨canGrow, rfl⟩ := returns_fromExcept.mp hc
      split at h
      · next yes =>
          rw [yes] at canGrow
          obtain ⟨before, kindOf, text⟩ := sealedBlockCanGrow_true canGrow
          obtain ⟨updated, _, hu, h⟩ := returns_bind.mp h
          obtain ⟨kind, kindOf', rfl⟩ := updateBlockById_returns hu
          obtain ⟨-, rfl⟩ := returns_pure.mp h
          rw [kindOf] at kindOf'
          cases kindOf'
          exact .written kindOf (.inr ⟨before, rfl, text⟩)
      · next no =>
          obtain ⟨-, rfl⟩ := returns_pure.mp h
          refine .kept ?_ (by rw [canGrow, Bool.eq_false_iff.mpr no])
          cases sealed_ : existing.sealed_ with
          | true => exact .inl rfl
          | false => exact .inr (by simpa [sealed_] using still)

theorem mergeStored_raises (h : Raises (mergeStored ts existing seg) start raised stop)
    : stop = start ∧ UnknownKind seg := by
  unfold mergeStored at h
  split at h
  · rcases raises_bind.mp h with h | ⟨_, _, -, h⟩
    · exact updateLiveBlock_raises h
    · cases h
  · rcases raises_bind.mp h with h | ⟨grows, _, hc, h⟩
    · obtain ⟨failed, rfl⟩ := raises_fromExcept.mp h
      exact ⟨rfl, sealedBlockCanGrow_error failed⟩
    obtain ⟨-, rfl⟩ := returns_fromExcept.mp hc
    split at h
    · rcases raises_bind.mp h with h | ⟨_, _, -, h⟩
      · exact updateBlockById_raises h
      · cases h
    · exact absurd h raises_pure

theorem Merged.keeping (h : Merged ts existing seg start stop)
    (arranged : Arranged start) (member : existing ∈ start.blocks)
    : Arranged stop ∧ Carried start stop := by
  cases h with
  | kept same closed => exact ⟨arranged, .refl start⟩
  | written kindOf may => exact writeBlock_keeping arranged member may ts

theorem Merged.others (h : Merged ts existing seg start stop) (member : block ∈ start.blocks)
    (other : block.id ≠ existing.id)
    : block ∈ stop.blocks := by
  cases h with
  | kept same closed => exact member
  | written kindOf may => exact mem_writeBlock member other

theorem mergeStoredBlocks_keeping {pairs : List (ConversationBlock × JsonValue)}
    (arranged : Arranged start) (stored : ∀ pair ∈ pairs, pair.1 ∈ start.blocks)
    (distinct : pairs.Pairwise (fun left right => left.1.id ≠ right.1.id))
    : Arranged (final (mergeStoredBlocks ts pairs start))
      ∧ Carried start (final (mergeStoredBlocks ts pairs start)) := by
  induction pairs generalizing start with
  | nil => exact ⟨arranged, .refl start⟩
  | cons pair rest ih =>
    obtain ⟨existing, seg⟩ := pair
    obtain ⟨apart, distinct⟩ := List.pairwise_cons.mp distinct
    have member : existing ∈ start.blocks := stored _ List.mem_cons_self
    unfold mergeStoredBlocks
    rw [final_bind]
    cases h : mergeStored ts existing seg start with
    | error raised stop =>
      rw [(mergeStored_raises h).1]
      exact ⟨arranged, .refl start⟩
    | ok changes middle =>
      have merged := mergeStored_returns arranged member h
      obtain ⟨arranged', carried⟩ := merged.keeping arranged member
      have more := ih arranged' (fun pair held => merged.others
        (stored pair (List.mem_cons_of_mem _ held)) (apart pair held).symm) distinct
      dsimp only
      rw [final_before (fun _ => .pure _)]
      exact ⟨more.1, carried.trans more.2⟩

theorem appendSegments_keeping (ts : String) (livePred : Option ConversationBlock)
    (segments : List JsonValue)
    : Relates Keeping (appendSegments ts livePred segments) := by
  induction segments generalizing livePred with
  | nil => exact .pure _
  | cons seg rest ih =>
    refine Relates.bind (appendBlock_keeping seg ts) (fun block => ?_)
    exact .bind .get (fun state => .bind (ih none) (fun more => .pure _))

end Murder.Conversations

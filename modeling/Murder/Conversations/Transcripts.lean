import Murder.Conversations.History

/-! Projections of one growing transcript: what a parse leaves in the store, over every
interleaving with the user's turns.
-/

namespace Murder.Conversations

open Murder.Contracts Library.Runs Library.Tables Library.Transactions

def parsedBlocks (state : Conversation) : List ConversationBlock :=
  (readConversationBlocks state).filter isParsed

/-- A block stores a segment; a payload Python takes for equal is not written again. -/
def Stores (seg : JsonValue) (block : ConversationBlock) : Prop :=
  seg = block.payload ∨ seg.pyEq block.payload = true

/-- The parsed blocks store the segments, in order. -/
def Shows (state : Conversation) (segments : List JsonValue) : Prop :=
  List.Forall₂ Stores segments (parsedBlocks state)

/-- A conversation without notices whose parsed blocks store the segments. -/
structure Showing (segments : List JsonValue) (state : Conversation) : Prop where
  arranged : Arranged state
  unnoticed : ∀ block ∈ state.blocks, block.kind ≠ .notice
  shows : Shows state segments

def Follows (block : ConversationBlock) (seg : JsonValue) : Prop :=
  block.sealed_ = false ∨ sealedBlockCanGrow block seg = .ok true

----------------------------------------
-- Kinds of segments
----------------------------------------

def ParsedSegment (seg : JsonValue) : Prop :=
  ∃ kind, segmentToBlockKind seg = .ok (some kind) ∧ kind ≠ .user ∧ kind ≠ .notice

variable {seg : JsonValue}

theorem ParsedSegment.known (h : ParsedSegment seg) : ¬ UnknownKind seg := by
  intro unknown
  obtain ⟨kind, known, -⟩ := h
  exact unknown kind known

theorem ParsedSegment.kind (h : ParsedSegment seg) {kind : BlockKind}
    (known : segmentToBlockKind seg = .ok (some kind))
    : kind ≠ .user ∧ kind ≠ .notice := by
  obtain ⟨kind', known', apart⟩ := h
  rw [known'] at known
  cases known
  exact apart

theorem ofString?_user {type : String} (h : BlockKind.ofString? type = some .user)
    : type = "user" := by
  unfold BlockKind.ofString? at h
  split at h <;> first | rfl | cases h

/-- Only a segment of the type `user` is stored as a user turn. -/
theorem isUserSegment_of_kind (h : segmentToBlockKind seg = .ok (some .user))
    : isUserSegment seg = true := by
  unfold segmentToBlockKind at h
  split at h
  · next fields =>
      split at h
      · cases h
      · split at h <;> cases h
      · next type _ found =>
          have same := ofString?_user (Except.ok.inj h)
          simp [isUserSegment, JsonValue.get?, found, same]
      · cases h
  · cases h
  · cases h
  · cases h

----------------------------------------
-- Merging
----------------------------------------

/-- A change of stored blocks by a merge: the merged ones store their segments, every other
block stays, and the parsed stream stays the parsed stream.
-/
structure Rewritten (pairs : List (ConversationBlock × JsonValue)) (start stop : Conversation)
    (change : ConversationBlock → ConversationBlock) : Prop where
  rows : stop.blocks.rows = start.blocks.rows.map change
  ids : ∀ block, (change block).id = block.id
  ordinal : ∀ block, (change block).ordinal = block.ordinal
  parsed : ∀ block ∈ start.blocks, isParsed (change block) = isParsed block
  notices : ∀ block ∈ start.blocks, block.kind ≠ .notice → (change block).kind ≠ .notice
  stored : ∀ pair ∈ pairs, Stores pair.2 (change pair.1)
  others : ∀ block, (∀ pair ∈ pairs, pair.1.id ≠ block.id) → change block = block

theorem Rewritten.refl (state : Conversation) : Rewritten [] state state id where
  rows := (List.map_id _).symm
  ids _ := rfl
  ordinal _ := rfl
  parsed _ _ := rfl
  notices _ _ h := h
  stored pair member := by cases member
  others _ _ := rfl

/-- A first merge and those of other blocks after it. -/
theorem Rewritten.cons {pair : ConversationBlock × JsonValue}
    {rest : List (ConversationBlock × JsonValue)} {start middle stop : Conversation}
    {first second : ConversationBlock → ConversationBlock}
    (hf : Rewritten [pair] start middle first) (hs : Rewritten rest middle stop second)
    (apart : ∀ other ∈ rest, pair.1.id ≠ other.1.id)
    : Rewritten (pair :: rest) start stop (second ∘ first) := by
  constructor
  · rw [hs.rows, hf.rows, List.map_map]
  · intro block
    exact (hs.ids _).trans (hf.ids _)
  · intro block
    exact (hs.ordinal _).trans (hf.ordinal _)
  · intro block member
    have held : first block ∈ middle.blocks := by
      rw [Table.mem_def, hf.rows]
      exact List.mem_map_of_mem member
    exact (hs.parsed _ held).trans (hf.parsed _ member)
  · intro block member other
    have held : first block ∈ middle.blocks := by
      rw [Table.mem_def, hf.rows]
      exact List.mem_map_of_mem member
    exact hs.notices _ held (hf.notices _ member other)
  · intro other member
    rcases List.mem_cons.mp member with rfl | later
    · have stays : second (first other.1) = first other.1 := by
        refine hs.others _ (fun later held => ?_)
        rw [hf.ids]
        exact (apart later held).symm
      rw [Function.comp_apply, stays]
      exact hf.stored other List.mem_cons_self
    · have stays : first other.1 = other.1 := by
        refine hf.others _ (fun single held => ?_)
        rw [List.mem_singleton.mp held]
        exact apart other later
      rw [Function.comp_apply, stays]
      exact hs.stored other later
  · intro block away
    have stays : first block = block :=
      hf.others _ (fun single held => by
        rw [List.mem_singleton.mp held]
        exact away pair List.mem_cons_self)
    rw [Function.comp_apply, stays]
    exact hs.others _ (fun other held => away other (List.mem_cons_of_mem _ held))

variable {start stop : Conversation}

theorem Merged.rewritten {ts : String} {existing : ConversationBlock}
    (h : Merged ts existing seg start stop)
    (member : existing ∈ start.blocks) (isParsed_ : isParsed existing = true)
    (segment : ParsedSegment seg) (ready : Stores seg existing ∨ Follows existing seg)
    : ∃ change, Rewritten [(existing, seg)] start stop change := by
  cases h with
  | kept same closed =>
    have stores : Stores seg existing := by
      rcases ready with stores | live | grows
      · exact stores
      · rcases same with sealed_ | equal
        · rw [live] at sealed_
          cases sealed_
        · exact .inr equal
      · rw [grows] at closed
        cases closed
    refine ⟨id, (List.map_id _).symm, fun _ => rfl, fun _ => rfl, fun _ _ => rfl,
      fun _ _ other => other, ?_, fun _ _ => rfl⟩
    intro pair single
    rw [List.mem_singleton.mp single]
    exact stores
  | @written kind kindOf may =>
    obtain ⟨notUser, notNotice⟩ := segment.kind kindOf
    refine ⟨fun block => if block.id == existing.id then
      { block with
          kind := kind
          payload := seg
          sealed_ := !blockIsLive kind seg
          serviceReceivedAt := ts } else block, rfl, ?_, ?_, ?_, ?_, ?_, ?_⟩
    · intro block
      split <;> rfl
    · intro block
      split <;> rfl
    · intro block stored
      split
      · next same =>
          rw [block_eq_of_id stored member (eq_of_beq same), isParsed_]
          simp [isParsed, notUser, notNotice]
      · rfl
    · intro block _ other
      split
      · exact notNotice
      · exact other
    · intro pair single
      rw [List.mem_singleton.mp single]
      left
      simp
    · intro block away
      have other := away _ (List.mem_singleton.mpr rfl)
      dsimp only at other ⊢
      rw [if_neg]
      simpa using fun same => other same.symm

/-- Merging stored blocks that still follow their segments returns, with every segment
stored; by induction over the blocks.
-/
theorem mergeStoredBlocks_returns {ts : String}
    {pairs : List (ConversationBlock × JsonValue)} {start : Conversation}
    (arranged : Arranged start) (stored : ∀ pair ∈ pairs, pair.1 ∈ start.blocks)
    (distinct : pairs.Pairwise (fun left right => left.1.id ≠ right.1.id))
    (parsed : ∀ pair ∈ pairs, isParsed pair.1 = true ∧ ParsedSegment pair.2)
    (ready : ∀ pair ∈ pairs, Stores pair.2 pair.1 ∨ Follows pair.1 pair.2)
    : ∃ changes stop change, Returns (mergeStoredBlocks ts pairs) start changes stop
        ∧ Rewritten pairs start stop change ∧ Arranged stop := by
  induction pairs generalizing start with
  | nil => exact ⟨[], start, id, returns_pure.mpr ⟨rfl, rfl⟩, .refl start, arranged⟩
  | cons pair rest ih =>
    obtain ⟨existing, seg⟩ := pair
    obtain ⟨apart, distinct⟩ := List.pairwise_cons.mp distinct
    have member : existing ∈ start.blocks := stored _ List.mem_cons_self
    obtain ⟨isParsed_, segment⟩ := parsed _ List.mem_cons_self
    rcases returns_or_raises (mergeStored ts existing seg) start with
      ⟨changes, first⟩ | ⟨raised, failed⟩
    · have merged := mergeStored_returns arranged member first
      obtain ⟨change, rewritten⟩ :=
        merged.rewritten member isParsed_ segment (ready _ List.mem_cons_self)
      obtain ⟨arranged', -⟩ := merged.keeping arranged member
      obtain ⟨more, stop, change', returned, rewritten', arranged''⟩ := ih arranged'
        (fun pair held => merged.others (stored pair (List.mem_cons_of_mem _ held))
          (apart pair held).symm)
        distinct (fun pair held => parsed pair (List.mem_cons_of_mem _ held))
        (fun pair held => ready pair (List.mem_cons_of_mem _ held))
      refine ⟨changes ++ more, stop, change' ∘ change, ?_, rewritten.cons rewritten' apart,
        arranged''⟩
      exact returns_bind.mpr ⟨changes, _, first,
        returns_bind.mpr ⟨more, stop, returned, returns_pure.mpr ⟨rfl, rfl⟩⟩⟩
    · exact absurd (mergeStored_raises failed).2 segment.known

theorem Rewritten.parsedBlocks {pairs : List (ConversationBlock × JsonValue)}
    {change : ConversationBlock → ConversationBlock} (h : Rewritten pairs start stop change)
    : parsedBlocks stop = (parsedBlocks start).map change := by
  unfold Conversations.parsedBlocks
  rw [readConversationBlocks_map h.rows h.ordinal, List.filter_map]
  refine congrArg _ (List.filter_congr (fun block member => ?_))
  exact h.parsed block (mem_readConversationBlocks.mp member)

----------------------------------------
-- Appending
----------------------------------------

variable {block : ConversationBlock}

theorem Appended.read (h : Appended seg block start stop) (arranged : Arranged start)
    : readConversationBlocks stop
      = readConversationBlocks (sealLiveBlock start) ++ [block] := by
  obtain ⟨sealed_, -⟩ := sealLiveBlock_keeping start arranged
  refine readConversationBlocks_append h.rows (fun other member => ?_)
  have less := sealed_.ordinal_lt member
  rw [h.ordinal, sealed_.nextOrdinal]
  exact less

variable {state : Conversation} {segments : List JsonValue}

theorem Shows.sealLiveBlock (h : Shows state segments)
    : Shows (sealLiveBlock state) segments := by
  unfold Shows parsedBlocks at h ⊢
  have rows : (Conversations.sealLiveBlock state).blocks.rows
      = state.blocks.rows.map (fun block =>
          if !block.sealed_ then { block with sealed_ := true } else block) := rfl
  have same : (isParsed ∘ fun block : ConversationBlock =>
      if !block.sealed_ then { block with sealed_ := true } else block) = isParsed := by
    funext block
    dsimp only [Function.comp_apply]
    split <;> rfl
  rw [readConversationBlocks_map rows (fun block => by split <;> rfl), List.filter_map,
    same, List.forall₂_map_right_iff]
  refine h.imp (fun seg block stores => ?_)
  unfold Stores at stores ⊢
  split <;> exact stores

theorem Appended.shows (h : Appended seg block start stop) (arranged : Arranged start)
    (shows : Shows start segments)
    : Shows stop (segments ++ if isParsed block then [seg] else []) := by
  have sealed_ := shows.sealLiveBlock
  unfold Shows parsedBlocks at sealed_ ⊢
  rw [h.read arranged, List.filter_append]
  refine List.rel_append sealed_ ?_
  cases kind : isParsed block with
  | true =>
    simp only [List.filter_cons, kind, if_true, List.filter_nil]
    exact .cons (.inl h.payload.symm) .nil
  | false => simp [kind]

theorem Appended.showing (h : Appended seg block start stop)
    (showing : Showing segments start) (other : block.kind ≠ .notice)
    : Showing (segments ++ if isParsed block then [seg] else []) stop where
  arranged := (h.keeping showing.arranged).1
  unnoticed := by
    intro stored member
    rw [Table.mem_def, h.rows, List.mem_append, List.mem_singleton] at member
    rcases member with old | rfl
    · simp only [← Table.mem_def, sealLiveBlock, Conversation.updateBlocks,
        Table.mem_update] at old
      obtain ⟨block, held, rfl⟩ := old
      have kept := showing.unnoticed block held
      split <;> exact kept
    · exact other
  shows := h.shows showing.arranged showing.shows

/-- Appending parsed segments returns, with every one stored; by induction over them. -/
theorem appendSegments_returns {ts : String} {livePred : Option ConversationBlock}
    {segments shown : List JsonValue} {start : Conversation} (showing : Showing shown start)
    (parsed : ∀ seg ∈ segments, ParsedSegment seg)
    : ∃ changes stop, Returns (appendSegments ts livePred segments) start changes stop
        ∧ Showing (shown ++ segments) stop := by
  induction segments generalizing livePred shown start with
  | nil =>
    refine ⟨[], start, returns_pure.mpr ⟨rfl, rfl⟩, ?_⟩
    rw [List.append_nil]
    exact showing
  | cons seg rest ih =>
    have segment := parsed seg List.mem_cons_self
    obtain ⟨kind, known, -⟩ := segment
    obtain ⟨block, middle, first⟩ := appendBlock_of_known known showing.arranged ts
    have appended := appendBlock_returns first
    obtain ⟨notUser, notNotice⟩ :=
      (parsed seg List.mem_cons_self).kind appended.kind
    have isParsed_ : isParsed block = true := by simp [isParsed, notUser, notNotice]
    have more := appended.showing showing notNotice
    rw [if_pos isParsed_] at more
    obtain ⟨changes, stop, returned, showing'⟩ :=
      @ih none _ middle more (fun seg held => parsed seg (List.mem_cons_of_mem _ held))
    rw [List.append_assoc] at showing'
    refine ⟨sealedPredecessor livePred middle
      ++ { action := .blockAppended, block := block } :: changes, stop,
      returns_bind.mpr ⟨block, middle, first, ?_⟩, showing'⟩
    refine returns_bind.mpr ⟨middle, middle, returns_get.mpr ⟨rfl, rfl⟩, ?_⟩
    exact returns_bind.mpr ⟨changes, stop, returned, returns_pure.mpr ⟨rfl, rfl⟩⟩

/-- Restoring the order of turns keeps what the parsed blocks store. -/
theorem Restored.showing (h : Restored start stop) (showing : Showing segments start)
    : Showing segments stop := by
  refine ⟨(h.keeping showing.arranged).1, ?_, ?_⟩
  · cases h with
    | same => exact showing.unnoticed
    | reordered ordered perm parsed rows rest =>
      intro block member
      rw [Table.mem_def, rows] at member
      obtain ⟨old, held, rfl⟩ := List.mem_map.mp member
      exact showing.unnoticed old held
  · have shows := showing.shows
    cases h with
    | same => exact shows
    | reordered ordered perm parsed rows rest =>
      unfold Shows parsedBlocks at shows ⊢
      rw [readConversationBlocks_reordered perm rows, List.filter_map,
        List.forall₂_map_right_iff]
      have same : (isParsed ∘ ConversationBlock.at_ (fun id =>
          (ordered.map ConversationBlock.id).idxOf id)) = isParsed := rfl
      rw [same, parsed]
      exact shows

/-- A write beside the blocks. -/
theorem Showing.of_blocks (showing : Showing segments start) (blocks : stop.blocks = start.blocks)
    (issued : stop.lastBlockId = start.lastBlockId)
    : Showing segments stop := by
  refine ⟨(keeping_of_blocks blocks issued showing.arranged).1, ?_, ?_⟩
  · rw [blocks]
    exact showing.unnoticed
  · have shows := showing.shows
    unfold Shows parsedBlocks readConversationBlocks at shows ⊢
    rw [blocks]
    exact shows

theorem EmptyConversation.showing (empty : EmptyConversation state)
    : Showing [] state := by
  have unread : readConversationBlocks state = [] :=
    List.eq_nil_iff_forall_not_mem.mpr (fun block member => by
      rw [mem_readConversationBlocks, Table.mem_def, empty] at member
      cases member)
  refine ⟨empty.arranged, fun block member => ?_, ?_⟩
  · rw [Table.mem_def, empty] at member
    cases member
  · unfold Shows parsedBlocks
    rw [unread]
    exact .nil

----------------------------------------
-- Growing transcripts
----------------------------------------

/-- A conversation and the segments of the document projected last. -/
structure Transcript where
  state : Conversation
  shown : List JsonValue := []

/-- The next segments extend the shown ones; the last one may have grown in place while its
block still follows it.
-/
inductive Growing (transcript : Transcript) : List JsonValue → Prop
  | extended (more) : Growing transcript (transcript.shown ++ more)
  | inPlace {init old} (new more) (shown : transcript.shown = init ++ [old])
    (follows
      : ∀ block, (parsedBlocks transcript.state).getLast? = some block → Follows block new)
    : Growing transcript (init ++ new :: more)

def Ready (blocks : List ConversationBlock) (segments : List JsonValue) : Prop :=
  ∀ pair ∈ blocks.zip segments, Stores pair.2 pair.1 ∨ Follows pair.1 pair.2

variable {blocks : List ConversationBlock}

theorem ready_of_extended {shown : List JsonValue}
    (h : List.Forall₂ Stores shown blocks) (more : List JsonValue)
    : Ready blocks (shown ++ more) := by
  induction h with
  | nil =>
    intro pair member
    cases member
  | cons stores _ ih =>
    intro pair member
    rcases List.mem_cons.mp member with rfl | later
    · exact .inl stores
    · exact ih pair later

theorem ready_of_inPlace {init : List JsonValue}
    {old new : JsonValue} (h : List.Forall₂ Stores (init ++ [old]) blocks)
    (follows : ∀ block, blocks.getLast? = some block → Follows block new) (more : List JsonValue)
    : Ready blocks (init ++ new :: more) := by
  induction init generalizing blocks with
  | nil =>
    cases h with
    | cons _ rest =>
      cases rest
      intro pair member
      obtain rfl := List.mem_singleton.mp member
      exact .inr (follows _ rfl)
  | cons seg init ih =>
    cases h with
    | @cons _ block _ blocks stores rest =>
      intro pair member
      rcases List.mem_cons.mp member with rfl | later
      · exact .inl stores
      · refine ih rest (fun last found => follows last ?_) pair later
        rw [List.getLast?_cons, found]
        rfl

variable {transcript : Transcript} {next : List JsonValue}

theorem Growing.ready
    (h : Growing transcript next) (shows : Shows transcript.state transcript.shown)
    : Ready (parsedBlocks transcript.state) next := by
  cases h with
  | extended more => exact ready_of_extended shows more
  | inPlace new more shown follows =>
    unfold Shows at shows
    rw [shown] at shows
    exact ready_of_inPlace shows follows more

theorem Growing.length_le (h : Growing transcript next)
    : transcript.shown.length ≤ next.length := by
  cases h with
  | extended more => simp
  | inPlace new more shown follows =>
    rw [shown]
    simp

theorem Growing.of_blocks {other : Conversation} {shown : List JsonValue}
    (h : Growing ⟨state, shown⟩ next) (blocks : other.blocks = state.blocks)
    : Growing ⟨other, shown⟩ next := by
  cases h with
  | extended more => exact .extended more
  | inPlace new more same follows =>
    refine .inPlace new more same ?_
    unfold parsedBlocks readConversationBlocks at follows ⊢
    rw [blocks]
    exact follows

/-- Stored segments beside their changed blocks; by induction over the blocks. -/
theorem forall₂_of_zip
    {change : ConversationBlock → ConversationBlock} (fits : blocks.length ≤ segments.length)
    (stored : ∀ pair ∈ blocks.zip segments, Stores pair.2 (change pair.1))
    : List.Forall₂ Stores (segments.take blocks.length) (blocks.map change) := by
  induction blocks generalizing segments with
  | nil => exact .nil
  | cons block rest ih =>
    cases segments with
    | nil => simp at fits
    | cons seg segments =>
      refine .cons (stored _ List.mem_cons_self) (ih ?_ (fun pair held => ?_))
      · simpa using fits
      · exact stored pair (List.mem_cons_of_mem _ held)

theorem parsedBlocks_of_unnoticed (unnoticed : ∀ block ∈ state.blocks, block.kind ≠ .notice)
    : (readConversationBlocks state).filter (fun block => block.kind != .user)
      = parsedBlocks state := by
  refine List.filter_congr (fun block member => ?_)
  have other := unnoticed block (mem_readConversationBlocks.mp member)
  simp [isParsed, other]

theorem mergeNonUserSegments_returns
    (showing : Showing transcript.shown transcript.state) (grows : Growing transcript next)
    (parsed : ∀ seg ∈ next, ParsedSegment seg) (receivedAt : Option String) (now : String)
    : ∃ changes stop, Returns (mergeNonUserSegmentsWithChanges next receivedAt now)
          transcript.state changes stop
        ∧ Showing next stop := by
  obtain ⟨state, shown⟩ := transcript
  have length : (parsedBlocks state).length = shown.length := showing.shows.length_eq.symm
  have fits := grows.length_le
  change shown.length ≤ next.length at fits
  change Showing shown state at showing
  by_cases none_ : next = []
  · refine ⟨[], state, ?_, ?_⟩
    · unfold mergeNonUserSegmentsWithChanges
      dsimp only
      rw [if_pos none_]
      exact returns_pure.mpr ⟨rfl, rfl⟩
    · rw [none_] at fits
      rw [none_, ← List.eq_nil_of_length_eq_zero (Nat.le_zero.mp fits)]
      exact showing
  have merges := @mergeStoredBlocks_returns (stamp receivedAt now)
    ((parsedBlocks state).zip next) state showing.arranged
    (fun pair held => mem_readConversationBlocks.mp
      (List.mem_of_mem_filter (List.of_mem_zip held).1))
    (zip_distinct ((readConversationBlocks_ids state).filter _) (by omega))
    (fun pair held => ⟨(List.mem_filter.mp (List.of_mem_zip held).1).2,
      parsed pair.2 (List.of_mem_zip held).2⟩)
    (grows.ready showing.shows)
  obtain ⟨merged, middle, change, returned, rewritten, arranged⟩ := merges
  have showing' : Showing (next.take (parsedBlocks state).length) middle := by
    refine ⟨arranged, fun block member => ?_, ?_⟩
    · rw [Table.mem_def, rewritten.rows] at member
      obtain ⟨old, held, rfl⟩ := List.mem_map.mp member
      exact rewritten.notices old held (showing.unnoticed old held)
    · unfold Shows
      rw [rewritten.parsedBlocks]
      exact forall₂_of_zip (by omega) rewritten.stored
  obtain ⟨appended, stop, returned', showing''⟩ :=
    @appendSegments_returns (stamp receivedAt now)
      ((parsedBlocks state).getLast?.filter (fun block => !block.sealed_))
      (next.drop (parsedBlocks state).length) _ middle showing'
      (fun seg held => parsed seg (List.mem_of_mem_drop held))
  rw [List.take_append_drop] at showing''
  refine ⟨merged ++ appended, stop, ?_, showing''⟩
  unfold mergeNonUserSegmentsWithChanges
  dsimp only
  rw [if_neg none_]
  refine returns_bind.mpr ⟨state, state, returns_get.mpr ⟨rfl, rfl⟩, ?_⟩
  rw [parsedBlocks_of_unnoticed showing.unnoticed, if_neg (by omega)]
  exact returns_bind.mpr ⟨merged, middle, returned,
    returns_bind.mpr ⟨appended, stop, returned', returns_pure.mpr ⟨rfl, rfl⟩⟩⟩

----------------------------------------
-- Calls
----------------------------------------

def nonUserSegments (segments : List JsonValue) : List JsonValue :=
  segments.filter (fun seg => !isUserSegment seg)

/-- A user's turn seals the live block and changes nothing a parsed block stores. -/
theorem appendUserBlock_showing {payload : JsonValue}
    (user : segmentToBlockKind payload = .ok (some .user)) (receivedAt : String)
    : Relates (Preserves (Showing segments)) (appendBlock payload receivedAt) := by
  apply Relates.intro
  · intro start block stop h showing
    have appended := appendBlock_returns h
    have kind : block.kind = .user := by
      have twice := appended.kind
      rw [user] at twice
      exact (Option.some.inj (Except.ok.inj twice)).symm
    have more := appended.showing showing (by simp [kind])
    simpa [isParsed, kind] using more
  · intro start raised stop h showing
    rcases appendBlock_raises h with rfl | rfl
    · exact showing
    · refine ⟨(sealLiveBlock_keeping start showing.arranged).1, ?_, showing.shows.sealLiveBlock⟩
      intro stored member
      simp only [sealLiveBlock, Conversation.updateBlocks, Table.mem_update] at member
      obtain ⟨block, held, rfl⟩ := member
      have kept := showing.unnoticed block held
      split <;> exact kept

theorem appendUserMessage_showing (agentId text : String)
    (clientMessageId receivedAt : Option String) (now : String)
    : Relates (Preserves (Showing segments))
        (appendUserMessage agentId text clientMessageId receivedAt now) := by
  unfold appendUserMessage
  dsimp only
  split
  · exact .pure _
  refine .bind (.modify (fun state showing => showing.of_blocks rfl rfl)) (fun _ => ?_)
  refine .bind (appendUserBlock_showing rfl _) (fun block => ?_)
  refine .bind (.modify (fun state showing => showing.of_blocks rfl rfl)) (fun _ => ?_)
  exact .bind (.modify (fun state showing => showing.of_blocks rfl rfl)) (fun _ => .pure _)

section Calls

variable [RealText]

/-- A document as a parser emits it: objects of a stored kind other than a notice, with a
harness and a state a text column takes.
-/
structure ParsedDoc (doc : JsonObject) (segments : List JsonValue) : Prop where
  items : iterItems ((doc.get? "segments").getD (.arr .nil)) = .ok segments
  objects : ∀ seg ∈ segments, ∃ fields, seg = .obj fields
  kinds
    : ∀ seg ∈ segments, ∃ kind, segmentToBlockKind seg = .ok (some kind) ∧ kind ≠ .notice
  harness : ∃ text, bindText (doc.get? "harness") = .ok text
  state : ∃ text, bindText (doc.get? "state") = .ok text

theorem ParsedDoc.parsed {doc : JsonObject} {segments : List JsonValue}
    (h : ParsedDoc doc segments) {seg : JsonValue} (member : seg ∈ nonUserSegments segments)
    : ParsedSegment seg := by
  obtain ⟨held, other⟩ := List.mem_filter.mp member
  obtain ⟨kind, known, notNotice⟩ := h.kinds seg held
  refine ⟨kind, known, fun user => ?_, notNotice⟩
  rw [user] at known
  rw [isUserSegment_of_kind known] at other
  cases other

variable [PyRepr]

/-- Projecting the next document of a growing transcript returns, with its segments stored. -/
theorem projectParsedDoc_returns {doc : JsonObject}
    (showing : Showing transcript.shown transcript.state) (parsedDoc : ParsedDoc doc segments)
    (grows : Growing transcript (nonUserSegments segments)) (agentId : String)
    (receivedAt : Option String) (now : String)
    : ∃ merged changes stop,
        Returns (projectParsedDocWithChanges agentId doc receivedAt now) transcript.state
          (merged, changes) stop
        ∧ Showing (nonUserSegments segments) stop := by
  obtain ⟨state, shown⟩ := transcript
  obtain ⟨harness, bound⟩ := parsedDoc.harness
  obtain ⟨liveState, bound'⟩ := parsedDoc.state
  have showing' : Showing shown (upsertConversation agentId harness liveState state) :=
    showing.of_blocks rfl rfl
  have grows' : Growing ⟨upsertConversation agentId harness liveState state, shown⟩
      (nonUserSegments segments) := grows.of_blocks rfl
  obtain ⟨changes, middle, returned, showing''⟩ := mergeNonUserSegments_returns showing' grows'
    (fun seg member => parsedDoc.parsed member) receivedAt now
  rcases restoreParsedTurnOrder_outcome showing''.arranged segments with
    ⟨reordered, last, restored, order⟩ | ⟨-, segment, held, noObject⟩
  · have reread := order.showing showing''
    have reads : ∀ {rewritten stop : Conversation},
        Returns (if changes.map (repositioned reordered) ≠ []
            ∨ metadataChanged state.row doc = true ∨ reordered ≠ [] then do
              modify invalidateConversations
              pure (readConversationDoc last, changes.map (repositioned reordered))
          else
            pure (readConversationDoc last, changes.map (repositioned reordered))
          : ConversationSql (TranscriptDoc × List ConversationBlockChange)) rewritten
          (readConversationDoc last, changes.map (repositioned reordered)) stop
        → replaceAgentMessages (docToFlatTurns (readConversationDoc last))
            (stamp receivedAt now) last = rewritten
        → Returns (projectParsedDocWithChanges agentId doc receivedAt now) state
            (readConversationDoc last, changes.map (repositioned reordered)) stop := by
      intro rewritten stop ends flat
      refine returns_bind.mpr ⟨segments, state,
        returns_fromExcept.mpr ⟨parsedDoc.items, rfl⟩, ?_⟩
      refine returns_bind.mpr ⟨state, state, returns_get.mpr ⟨rfl, rfl⟩, ?_⟩
      refine returns_bind.mpr ⟨harness, state, returns_fromExcept.mpr ⟨bound, rfl⟩, ?_⟩
      refine returns_bind.mpr ⟨liveState, state, returns_fromExcept.mpr ⟨bound', rfl⟩, ?_⟩
      refine returns_bind.mpr ⟨⟨⟩, _, returns_modify.mpr rfl, ?_⟩
      refine returns_bind.mpr ⟨changes, middle, returned, ?_⟩
      refine returns_bind.mpr ⟨reordered, last, restored, ?_⟩
      refine returns_bind.mpr ⟨last, last, returns_get.mpr ⟨rfl, rfl⟩, ?_⟩
      exact returns_bind.mpr ⟨⟨⟩, rewritten, returns_modify.mpr flat, ends⟩
    have flat : Showing (nonUserSegments segments) (replaceAgentMessages
        (docToFlatTurns (readConversationDoc last)) (stamp receivedAt now) last) :=
      reread.of_blocks rfl rfl
    have invalidated : Showing (nonUserSegments segments) (invalidateConversations
        (replaceAgentMessages (docToFlatTurns (readConversationDoc last))
          (stamp receivedAt now) last)) :=
      flat.of_blocks rfl rfl
    by_cases changed : changes.map (repositioned reordered) ≠ []
        ∨ metadataChanged state.row doc = true ∨ reordered ≠ []
    · refine ⟨_, _, _, reads ?_ rfl, invalidated⟩
      rw [if_pos changed]
      exact returns_bind.mpr ⟨⟨⟩, _, returns_modify.mpr rfl, returns_pure.mpr ⟨rfl, rfl⟩⟩
    · refine ⟨_, _, _, reads ?_ rfl, flat⟩
      rw [if_neg changed]
      exact returns_pure.mpr ⟨rfl, rfl⟩
  · obtain ⟨fields, same⟩ := parsedDoc.objects segment held
    exact absurd same (noObject fields)

/-- The calls that record one growing transcript. -/
inductive TranscriptStep : Transcript → ConversationOp → Transcript → Prop
  | message (state shown agentId text clientMessageId receivedAt now)
    : TranscriptStep ⟨state, shown⟩
        (.appendUserMessage agentId text clientMessageId receivedAt now)
        ⟨final ((ConversationOp.appendUserMessage agentId text clientMessageId receivedAt
          now).exec state), shown⟩
  | parsed {doc segments} (transcript agentId receivedAt now)
    (parsedDoc : ParsedDoc doc segments)
    (grows : Growing transcript (nonUserSegments segments))
    : TranscriptStep transcript (.projectParsedDoc agentId doc receivedAt now)
        ⟨final ((ConversationOp.projectParsedDoc agentId doc receivedAt now).exec
          transcript.state), nonUserSegments segments⟩

theorem TranscriptStep.showing {start stop : Transcript} {op : ConversationOp}
    (step : TranscriptStep start op stop) (showing : Showing start.shown start.state)
    : Showing stop.shown stop.state := by
  cases step with
  | message state shown agentId text clientMessageId receivedAt now =>
    have kept : Relates (Preserves (Showing shown))
        (appendUserMessage agentId text clientMessageId receivedAt now) :=
      appendUserMessage_showing agentId text clientMessageId receivedAt now
    exact Relates.bind kept (fun _ => .pure _) state showing
  | parsed transcript agentId receivedAt now parsedDoc grows =>
    obtain ⟨merged, changes, stop, returned, showing'⟩ :=
      projectParsedDoc_returns showing parsedDoc grows agentId receivedAt now
    have returned' : Returns (ConversationOp.projectParsedDoc agentId _ receivedAt now).exec
        start.state () stop :=
      returns_bind.mpr ⟨_, stop, returned, returns_pure.mpr ⟨rfl, rfl⟩⟩
    dsimp only
    rw [final_of_returns returned']
    exact showing'

/-- What the store holds of a growing transcript: the segments of the document projected last,
and whatever document comes next is projected and stored as well.
-/
structure TranscriptSound (transcript : Transcript) : Prop where
  stored : List.Forall₂ Stores transcript.shown (parsedBlocks transcript.state)
  projects
    : ∀ agentId doc receivedAt now segments,
        ParsedDoc doc segments
        → Growing transcript (nonUserSegments segments)
        → ∃ merged changes stop,
            Returns (projectParsedDocWithChanges agentId doc receivedAt now) transcript.state
              (merged, changes) stop
            ∧ List.Forall₂ Stores (nonUserSegments segments) (parsedBlocks stop)

/-- Whatever the user sends between the parses, a growing transcript is stored whole. -/
theorem transcriptSound_of_empty {start : Conversation} (empty : EmptyConversation start)
    {calls : List ConversationOp} {transcript : Transcript}
    (run : Steps TranscriptStep ⟨start, []⟩ calls transcript)
    : TranscriptSound transcript := by
  have showing : Showing transcript.shown transcript.state :=
    run.invariant (fun _ _ _ showing step => step.showing showing) empty.showing
  refine ⟨showing.shows, fun agentId doc receivedAt now segments parsedDoc grows => ?_⟩
  obtain ⟨merged, changes, stop, returned, showing'⟩ :=
    projectParsedDoc_returns showing parsedDoc grows agentId receivedAt now
  exact ⟨merged, changes, stop, returned, showing'.shows⟩

end Calls

----------------------------------------
-- A turn between two parses
----------------------------------------

namespace Answers

def thinking (text : String) : JsonValue :=
  .obj (.ofList [("type", .str "assistant"), ("phase", .str "intermediate"),
    ("text", .str text), ("elapsed", .null)])

def question : ConversationOp := .appendUserMessage "agent" "question" none none "t0"

def parse (segments : List JsonValue) : ConversationOp :=
  .projectParsedDoc "agent" (docOf segments) none "t1"

theorem parsedDoc_thinking (text : String) : ParsedDoc (docOf [thinking text]) [thinking text] where
  items := rfl
  objects seg member := ⟨_, List.mem_singleton.mp member⟩
  kinds seg member := by
    rw [List.mem_singleton.mp member]
    exact ⟨.assistantIntermediate, rfl, by decide⟩
  harness := ⟨none, rfl⟩
  state := ⟨none, rfl⟩

theorem transcriptSound_thinking
    : EmptyConversation {}
      ∧ TranscriptSound ⟨after [question, parse [thinking "a"], parse [thinking "ab"]],
          [thinking "ab"]⟩ := by
  have empty : EmptyConversation {} := rfl
  have first : Growing ⟨after [question], []⟩ (nonUserSegments [thinking "a"]) :=
    .extended [thinking "a"]
  have live : ∀ block ∈ parsedBlocks (after [question, parse [thinking "a"]]),
      block.sealed_ = false := by decide +kernel
  have grows : Growing ⟨after [question, parse [thinking "a"]], [thinking "a"]⟩
      (nonUserSegments [thinking "ab"]) :=
    @Growing.inPlace _ [] (thinking "a") (thinking "ab") [] rfl
      (fun block last => .inl (live block (List.mem_of_getLast? last)))
  have run : Steps TranscriptStep ⟨{}, []⟩
      [question, parse [thinking "a"], parse [thinking "ab"]]
      ⟨after [question, parse [thinking "a"], parse [thinking "ab"]], [thinking "ab"]⟩ :=
    .cons (.message _ _ _ _ _ _ _) (.cons (.parsed _ _ _ _ (parsedDoc_thinking "a") first)
      (.cons (.parsed _ _ _ _ (parsedDoc_thinking "ab") grows) (.nil _)))
  exact ⟨empty, transcriptSound_of_empty empty run⟩

/-- A user's turn seals the live block, and the text the next parse adds to it is lost. -/
theorem thinking_sealed
    : Steps ConversationStep {} [parse [thinking "a"], question, parse [thinking "ab"]]
        (after [parse [thinking "a"], question, parse [thinking "ab"]])
      ∧ (parsedBlocks (after [parse [thinking "a"], question, parse [thinking "ab"]])).map
          ConversationBlock.payload = [thinking "a"]
      ∧ (thinking "ab").pyEq (thinking "a") = false := by
  refine ⟨steps_after _ _, ?_, by decide +kernel⟩
  decide +kernel

end Answers

end Murder.Conversations

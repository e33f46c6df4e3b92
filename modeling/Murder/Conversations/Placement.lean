import Murder.Conversations.TurnOrder

/-! How parsed segments place the blocks, and that the restored order is restored by the same
segments again.
-/

namespace Murder.Conversations

open Murder.Contracts Library.Transactions

section Placement

variable [PyRepr]

def anchors (text : String) (block : ConversationBlock) : Bool :=
  anchorText block == strip text

/-- The segments place the blocks: a user segment the first user block of its text, every
other one the next block of the parsed stream.
-/
inductive Places : List JsonValue → List ConversationBlock → List ConversationBlock
    → List ConversationBlock → Bool → Prop
  | nil (users nonUsers) : Places [] users nonUsers [] false
  | matched {fields text block rest users nonUsers placed before}
    (user : fields.get? "type" = some (.str "user"))
    (texted : fields.get? "text" = some (.str text))
    (found : users.find? (anchors text) = some block)
    (later : Places rest (users.erase block) nonUsers placed before)
    : Places (.obj fields :: rest) users nonUsers (block :: placed) true
  | unmatched {fields rest users nonUsers placed matched}
    (user : fields.get? "type" = some (.str "user"))
    (unfound
      : ∀ text, fields.get? "text" = some (.str text) → users.find? (anchors text) = none)
    (later : Places rest users nonUsers placed matched)
    : Places (.obj fields :: rest) users nonUsers placed matched
  | drawn {fields block rest users nonUsers placed matched}
    (other : fields.get? "type" ≠ some (.str "user"))
    (later : Places rest users nonUsers placed matched)
    : Places (.obj fields :: rest) users (block :: nonUsers) (block :: placed) matched
  | exhausted {fields rest users placed matched}
    (other : fields.get? "type" ≠ some (.str "user"))
    (later : Places rest users [] placed matched)
    : Places (.obj fields :: rest) users [] placed matched

theorem places_of_ok {segments : List JsonValue} {users nonUsers placed : List ConversationBlock}
    {matched : Bool} (h : placeBlocks segments users nonUsers = .ok (placed, matched))
    : Places segments users nonUsers placed matched := by
  induction segments generalizing users nonUsers placed matched with
  | nil =>
    cases h
    exact .nil users nonUsers
  | cons segment rest ih =>
    cases segment with
    | obj fields =>
      unfold placeBlocks at h
      by_cases user : fields.get? "type" = some (.str "user")
      · rw [if_pos user] at h
        split at h
        · next text texted =>
            split at h
            · next block found =>
                obtain ⟨⟨placed', before⟩, first, h⟩ := except_bind_ok.mp h
                cases h
                exact .matched user texted found (ih first)
            · next none_ =>
                refine .unmatched user (fun other texted' => ?_) (ih h)
                rw [texted] at texted'
                cases texted'
                exact none_
        · next textless =>
            exact .unmatched user (fun text texted => absurd texted (textless text)) (ih h)
      · rw [if_neg user] at h
        split at h
        · next block others =>
            obtain ⟨⟨placed', before⟩, first, h⟩ := except_bind_ok.mp h
            cases h
            exact .drawn user (ih first)
        · exact .exhausted user (ih h)
    | _ => cases h

theorem Places.ok {segments : List JsonValue} {users nonUsers placed : List ConversationBlock}
    {matched : Bool} (h : Places segments users nonUsers placed matched)
    : placeBlocks segments users nonUsers = .ok (placed, matched) := by
  induction h with
  | nil users nonUsers => rfl
  | @matched fields text block rest users nonUsers placed before user texted found later ih =>
    change users.find? (fun block => anchorText block == strip text) = some block at found
    unfold placeBlocks
    rw [if_pos user, texted]
    dsimp only
    rw [found]
    exact except_bind_ok.mpr ⟨_, ih, rfl⟩
  | @unmatched fields rest users nonUsers placed matched user unfound later ih =>
    unfold placeBlocks
    rw [if_pos user]
    split
    · next text texted =>
        have none_ : users.find? (fun block => anchorText block == strip text) = none :=
          unfound text texted
        rw [none_]
        exact ih
    · exact ih
  | drawn other later ih =>
    unfold placeBlocks
    rw [if_neg other]
    exact except_bind_ok.mpr ⟨_, ih, rfl⟩
  | exhausted other later ih =>
    unfold placeBlocks
    rw [if_neg other]
    exact ih

omit [PyRepr] in
theorem textOf_obj {fields : JsonFields} {text : String}
    : textOf (.obj fields) = some text ↔ fields.get? "text" = some (.str text) := by
  have same : (JsonValue.obj fields).get? "text" = fields.get? "text" := rfl
  unfold textOf
  rw [same]
  split
  · next found same =>
      rw [same]
      simp
  · next none_ =>
      refine iff_of_false (fun same => (nomatch same)) (fun same => none_ text same)

omit [PyRepr] in
theorem isUserSegment_obj {fields : JsonFields}
    : isUserSegment (.obj fields) = true ↔ fields.get? "type" = some (.str "user") := by
  simp [isUserSegment, JsonValue.get?]

omit [PyRepr] in
/-- The first match stands in front of the matches. -/
theorem filter_of_find? {blocks : List ConversationBlock} {where_ : ConversationBlock → Bool}
    {block : ConversationBlock} (found : blocks.find? where_ = some block)
    : ∃ others, blocks.filter where_ = block :: others :=
  List.head?_eq_some_iff.mp (List.head?_filter.trans found)

omit [PyRepr] in
/-- A block at another position is still the only one of its identifier. -/
theorem erase_at_ {blocks : List ConversationBlock} {block : ConversationBlock}
    {position : Nat → Nat}
    (distinct : blocks.Pairwise (fun left right => left.id ≠ right.id)) (member : block ∈ blocks)
    : (blocks.map (ConversationBlock.at_ position)).erase (block.at_ position)
      = (blocks.erase block).map (ConversationBlock.at_ position) := by
  have ids : (blocks.map ConversationBlock.id).Nodup := List.pairwise_map.mpr distinct
  have ids' : ((blocks.map (ConversationBlock.at_ position)).map ConversationBlock.id).Nodup := by
    rw [List.map_map]
    exact ids
  rw [List.Nodup.erase_eq_filter (List.Nodup.of_map _ ids'),
    List.Nodup.erase_eq_filter (List.Nodup.of_map _ ids), List.filter_map]
  refine congrArg _ (List.filter_congr (fun other held => ?_))
  by_cases same : other = block
  · simp [same]
  · have apart : other.id ≠ block.id :=
      fun id => same (List.inj_on_of_nodup_map ids held member id)
    have moved : other.at_ position ≠ block.at_ position := by
      intro equal
      exact apart (ConversationBlock.mk.inj equal).1
    rw [Function.comp_apply, bne_iff_ne.mpr moved, bne_iff_ne.mpr same]

section Placed

variable {segments : List JsonValue} {users nonUsers placed : List ConversationBlock}
  {matched : Bool}

/-- Placing draws from the user blocks of one text in their order. -/
theorem Places.anchors_prefix (h : Places segments users nonUsers placed matched) (text : String)
    {keep : ConversationBlock → Bool} (drops : ∀ block ∈ nonUsers, keep block = false)
    (keeps : ∀ block ∈ users, keep block = anchors text block)
    : placed.filter keep <+: users.filter keep := by
  induction h with
  | nil users nonUsers => exact List.nil_prefix
  | @matched fields matching block rest users nonUsers placed before user texted found later ih =>
    have rest_ := ih drops (fun other held => keeps other (List.mem_of_mem_erase held))
    rw [← List.erase_filter] at rest_
    by_cases kept : keep block = true
    · have first := List.find?_some found
      have second := (keeps block (List.mem_of_find?_eq_some found)).symm.trans kept
      have same : anchors text = anchors matching := by
        unfold anchors
        rw [← eq_of_beq first, ← eq_of_beq second]
      obtain ⟨others, front⟩ := filter_of_find? found
      rw [← same, ← List.filter_congr keeps] at front
      rw [front, List.erase_cons_head] at rest_
      rw [List.filter_cons_of_pos kept, front]
      exact List.cons_prefix_cons.mpr ⟨rfl, rest_⟩
    · rw [List.erase_of_not_mem (fun held => kept (List.mem_filter.mp held).2)] at rest_
      rw [List.filter_cons_of_neg kept]
      exact rest_
  | unmatched user unfound later ih => exact ih drops keeps
  | drawn other later ih =>
    rw [List.filter_cons_of_neg (by simp [drops _ List.mem_cons_self])]
    exact ih (fun block held => drops block (List.mem_cons_of_mem _ held)) keeps
  | exhausted other later ih => exact ih drops keeps

theorem Places.matched_iff (h : Places segments users nonUsers placed matched)
    : matched = true
      ↔ ∃ segment ∈ segments, isUserSegment segment = true
          ∧ ∃ text, textOf segment = some text ∧ ∃ block ∈ users, anchors text block = true := by
  have skip : ∀ {fields : JsonFields} {rest : List JsonValue} {users : List ConversationBlock},
      (isUserSegment (.obj fields) = true →
        ∀ text, textOf (.obj fields) = some text → ∀ block ∈ users, ¬ anchors text block = true)
      → ((∃ segment ∈ JsonValue.obj fields :: rest, isUserSegment segment = true
          ∧ ∃ text, textOf segment = some text ∧ ∃ block ∈ users, anchors text block = true)
        ↔ ∃ segment ∈ rest, isUserSegment segment = true
          ∧ ∃ text, textOf segment = some text
              ∧ ∃ block ∈ users, anchors text block = true) := by
    intro fields rest users none_
    rw [List.exists_mem_cons_iff]
    refine or_iff_right (fun first => ?_)
    obtain ⟨user, text, texted, block, held, anchored⟩ := first
    exact none_ user text texted block held anchored
  induction h with
  | nil users nonUsers => simp
  | @matched fields text block rest users nonUsers placed before user texted found later ih =>
    exact iff_of_true rfl ⟨_, List.mem_cons_self, isUserSegment_obj.mpr user, text,
      textOf_obj.mpr texted, block, List.mem_of_find?_eq_some found, List.find?_some found⟩
  | unmatched user unfound later ih =>
    refine ih.trans (skip (fun _ text texted block held => ?_)).symm
    exact List.find?_eq_none.mp (unfound text (textOf_obj.mp texted)) block held
  | drawn other later ih =>
    exact ih.trans (skip (fun user => absurd (isUserSegment_obj.mp user) other)).symm
  | exhausted other later ih =>
    exact ih.trans (skip (fun user => absurd (isUserSegment_obj.mp user) other)).symm

theorem Places.draws_all (h : Places segments users nonUsers placed matched)
    {keep : ConversationBlock → Bool} (drops : ∀ block ∈ users, keep block = false)
    (keeps : ∀ block ∈ nonUsers, keep block = true)
    (enough : nonUsers.length ≤ (segments.filter (fun segment => !isUserSegment segment)).length)
    : placed.filter keep = nonUsers := by
  induction h with
  | nil users nonUsers => exact (List.eq_nil_of_length_eq_zero (Nat.le_zero.mp enough)).symm
  | matched user texted found later ih =>
    rw [List.filter_cons_of_neg (by simp [isUserSegment_obj.mpr user])] at enough
    rw [List.filter_cons_of_neg (by simp [drops _ (List.mem_of_find?_eq_some found)])]
    exact ih (fun block held => drops block (List.mem_of_mem_erase held)) keeps enough
  | unmatched user unfound later ih =>
    rw [List.filter_cons_of_neg (by simp [isUserSegment_obj.mpr user])] at enough
    exact ih drops keeps enough
  | drawn other later ih =>
    rw [List.filter_cons_of_pos (by simpa using fun user => other (isUserSegment_obj.mp user)),
      List.length_cons, List.length_cons] at enough
    rw [List.filter_cons_of_pos (keeps _ List.mem_cons_self)]
    refine congrArg _ (ih drops (fun block held => ?_) (Nat.le_of_succ_le_succ enough))
    exact keeps block (List.mem_cons_of_mem _ held)
  | exhausted other later ih => exact ih drops keeps (Nat.zero_le _)

theorem Places.of_anchors (h : Places segments users nonUsers placed matched)
    {others : List ConversationBlock}
    (same : ∀ text, users.filter (anchors text) = others.filter (anchors text))
    : Places segments others nonUsers placed matched := by
  have finds : ∀ {users others : List ConversationBlock},
      (∀ text, users.filter (anchors text) = others.filter (anchors text))
      → ∀ text, users.find? (anchors text) = others.find? (anchors text) := by
    intro users others same text
    rw [← List.head?_filter, ← List.head?_filter, same text]
  induction h generalizing others with
  | nil users nonUsers => exact .nil others nonUsers
  | matched user texted found later ih =>
    refine .matched user texted ((finds same _).symm.trans found) (ih (fun text => ?_))
    rw [← List.erase_filter, ← List.erase_filter, same text]
  | unmatched user unfound later ih =>
    refine .unmatched user (fun text texted => ?_) (ih same)
    rw [← finds same text]
    exact unfound text texted
  | drawn other later ih => exact .drawn other (ih same)
  | exhausted other later ih => exact .exhausted other (ih same)

/-- Placing does not depend on positions. -/
theorem Places.at_ (h : Places segments users nonUsers placed matched) (position : Nat → Nat)
    (distinct : users.Pairwise (fun left right => left.id ≠ right.id))
    : Places segments (users.map (ConversationBlock.at_ position))
        (nonUsers.map (ConversationBlock.at_ position))
        (placed.map (ConversationBlock.at_ position)) matched := by
  have finds : ∀ (users : List ConversationBlock) (text : String),
      (users.map (ConversationBlock.at_ position)).find? (anchors text)
        = (users.find? (anchors text)).map (ConversationBlock.at_ position) := by
    intro users text
    rw [List.find?_map]
    rfl
  induction h with
  | nil users nonUsers => exact .nil _ _
  | @matched fields text block rest users nonUsers placed before user texted found later ih =>
    have first : (users.map (ConversationBlock.at_ position)).find? (anchors text)
        = some (block.at_ position) := by
      rw [finds, found]
      rfl
    have rest_ := ih (distinct.sublist List.erase_sublist)
    rw [← erase_at_ distinct (List.mem_of_find?_eq_some found)] at rest_
    exact .matched user texted first rest_
  | unmatched user unfound later ih =>
    refine .unmatched user (fun text texted => ?_) (ih distinct)
    rw [finds, unfound text texted]
    rfl
  | drawn other later ih => exact .drawn other (ih distinct)
  | exhausted other later ih => exact .exhausted other (ih distinct)

end Placed

def userBlocks (state : Conversation) : List ConversationBlock :=
  (readConversationBlocks state).filter (fun block => block.kind == .user)

/-- What restoring the order of turns read and did. -/
inductive Reordering (segments : List JsonValue) (start : Conversation)
    : List (Nat × Nat) → Conversation → Prop
  | idle (none_ : userBlocks start = [] ∨ (readConversationBlocks start).filter isParsed = [])
    : Reordering segments start [] start
  | unmatched {placed}
    (places
      : Places segments (userBlocks start) ((readConversationBlocks start).filter isParsed)
          placed false)
    : Reordering segments start [] start
  | settled {placed}
    (places
      : Places segments (userBlocks start) ((readConversationBlocks start).filter isParsed)
          placed true)
    (order
      : orderedBlocks (readConversationBlocks start) placed = readConversationBlocks start)
    : Reordering segments start [] start
  | moved {placed stop}
    (places
      : Places segments (userBlocks start) ((readConversationBlocks start).filter isParsed)
          placed true)
    (read
      : readConversationBlocks stop
        = (orderedBlocks (readConversationBlocks start) placed).map (ConversationBlock.at_
            (fun id => ((orderedBlocks (readConversationBlocks start) placed).map
              ConversationBlock.id).idxOf id)))
    (rest : Keeps outsideBlocks start stop)
    : Reordering segments start ((orderedBlocks (readConversationBlocks start) placed).map
        ConversationBlock.id).zipIdx stop

omit [PyRepr] in
/-- Blocks of one store in two orders are told apart by their identifiers. -/
theorem eq_of_ids {first second : List ConversationBlock} (perm : first.Perm second)
    (distinct : second.Pairwise (fun left right => left.id ≠ right.id))
    (same : first.map ConversationBlock.id = second.map ConversationBlock.id)
    : first = second := by
  have ids : (second.map ConversationBlock.id).Nodup := List.pairwise_map.mpr distinct
  refine List.ext_getElem perm.length_eq (fun index hl hr => ?_)
  refine List.inj_on_of_nodup_map ids (perm.subset (List.getElem_mem hl)) (List.getElem_mem hr) ?_
  have entries : (first.map ConversationBlock.id)[index]?
      = (second.map ConversationBlock.id)[index]? := by
    rw [same]
  simpa [hl, hr] using entries

theorem reordering_of_returns {segments : List JsonValue} {start stop : Conversation}
    {reordered : List (Nat × Nat)} (arranged : Arranged start)
    (h : Returns (restoreParsedTurnOrder segments) start reordered stop)
    : Reordering segments start reordered stop := by
  by_cases idle : userBlocks start = [] ∨ (readConversationBlocks start).filter isParsed = []
  · cases (restoreParsedTurnOrder_idle segments idle).symm.trans h
    exact .idle idle
  · unfold Returns at h
    rw [restoreParsedTurnOrder_placing segments idle] at h
    obtain ⟨⟨placed, matched⟩, _, first, h⟩ := returns_bind.mp h
    obtain ⟨placing, rfl⟩ := returns_fromExcept.mp first
    have places := places_of_ok placing
    have subperm := (placeBlocks_stored placing).1
    have perm := orderedBlocks_perm (readConversationBlocks_ids start) subperm
    cases matched with
    | false =>
      obtain ⟨rfl, rfl⟩ := returns_pure.mp h
      exact .unmatched places
    | true =>
      dsimp only at h
      by_cases same : (orderedBlocks (readConversationBlocks start) placed).map
          ConversationBlock.id = (readConversationBlocks start).map ConversationBlock.id
      · rw [if_pos (.inr same)] at h
        obtain ⟨rfl, rfl⟩ := returns_pure.mp h
        exact .settled places (eq_of_ids perm (readConversationBlocks_ids start) same)
      · rw [if_neg (by simpa using same)] at h
        have rows := perm.trans (readConversationBlocks_perm start)
        obtain ⟨middle, stop', first', second', moved, rest⟩ := reorder_returns arranged rows
          (show start.blocks.rows.length ≤ (readConversationBlocks start).length + 1 by
            rw [(readConversationBlocks_perm start).length_eq]
            omega)
        obtain ⟨_, _, offset, h⟩ := returns_bind.mp h
        cases first'.symm.trans offset
        obtain ⟨_, _, numbered, h⟩ := returns_bind.mp h
        cases second'.symm.trans numbered
        obtain ⟨rfl, rfl⟩ := returns_pure.mp h
        exact .moved places (readConversationBlocks_reordered rows moved) rest

omit [PyRepr] in
theorem orderedBlocks_again (blocks placed : List ConversationBlock)
    : orderedBlocks (orderedBlocks blocks placed) placed = orderedBlocks blocks placed := by
  have front : placed.filter (fun block => !placed.any (fun other => other.id == block.id))
      = [] := by
    refine List.filter_eq_nil_iff.mpr (fun block member => ?_)
    simpa using ⟨block, member, rfl⟩
  unfold orderedBlocks
  rw [List.filter_append, front, List.nil_append, List.filter_filter]
  simp only [Bool.and_self]

omit [PyRepr] in
/-- The order depends on the identifiers only. -/
theorem orderedBlocks_at_ (blocks placed : List ConversationBlock) (position : Nat → Nat)
    : orderedBlocks (blocks.map (ConversationBlock.at_ position))
        (placed.map (ConversationBlock.at_ position))
      = (orderedBlocks blocks placed).map (ConversationBlock.at_ position) := by
  unfold orderedBlocks
  rw [List.filter_map, List.map_append]
  refine congrArg _ (congrArg _ (List.filter_congr (fun block _ => ?_)))
  simp only [Function.comp_apply, List.any_map]
  rfl

/-- Placed blocks are stored, and parsed ones and users of one text keep their order. -/
theorem Places.ordered {segments : List JsonValue} {state : Conversation}
    {placed : List ConversationBlock} {matched : Bool}
    (h : Places segments (userBlocks state) ((readConversationBlocks state).filter isParsed)
      placed matched)
    : (orderedBlocks (readConversationBlocks state) placed).filter isParsed
        = (readConversationBlocks state).filter isParsed
      ∧ ∀ text, (userBlocks state).filter (anchors text)
          = ((orderedBlocks (readConversationBlocks state) placed).filter
              (fun block => block.kind == .user)).filter (anchors text) := by
  obtain ⟨subperm, order⟩ := placeBlocks_stored h.ok
  have ids := readConversationBlocks_ids state
  refine ⟨orderedBlocks_filter ids subperm.subset order, fun text => ?_⟩
  have front := @Places.anchors_prefix _ _ _ _ _ _ h text
    (fun block => anchors text block && block.kind == .user)
    (fun block member => by
      have parsed := (List.mem_filter.mp member).2
      rw [isParsed, Bool.and_eq_true, bne_iff_ne] at parsed
      simp [parsed.1])
    (fun block member => by simp [eq_of_beq (List.mem_filter.mp member).2])
  unfold userBlocks at front ⊢
  simp only [List.filter_filter, Bool.and_assoc, Bool.and_self] at front ⊢
  exact (orderedBlocks_filter ids subperm.subset front).symm

/-- Where every parsed block is placed, the notices come to stand behind them. -/
theorem Places.nonUser {segments : List JsonValue} {state : Conversation}
    {placed : List ConversationBlock} {matched : Bool}
    (h : Places segments (userBlocks state) ((readConversationBlocks state).filter isParsed)
      placed matched)
    (enough
      : ((readConversationBlocks state).filter isParsed).length
        ≤ (segments.filter (fun segment => !isUserSegment segment)).length)
    : (orderedBlocks (readConversationBlocks state) placed).filter
          (fun block => block.kind != .user)
      = (readConversationBlocks state).filter isParsed
        ++ (readConversationBlocks state).filter (fun block => block.kind == .notice) := by
  have front : placed.filter (fun block => block.kind != .user)
      = (readConversationBlocks state).filter isParsed := by
    refine h.draws_all (fun block member => ?_) (fun block member => ?_) enough
    · simp [eq_of_beq (List.mem_filter.mp member).2]
    · exact (Bool.and_eq_true_iff.mp (List.mem_filter.mp member).2).1
  have unplaced := @mem_unplaced (readConversationBlocks state) placed
    (readConversationBlocks_ids state) (placeBlocks_stored h.ok).1.subset
  unfold orderedBlocks
  rw [List.filter_append, front, List.filter_filter]
  refine congrArg _ (List.filter_congr (fun block member => ?_))
  have places : block ∈ placed ∧ block.kind ≠ .user ↔ isParsed block = true := by
    have both := congrArg (block ∈ ·) front
    simp only [List.mem_filter, bne_iff_ne, eq_iff_iff] at both
    rw [both]
    exact and_iff_right member
  have absent : (!placed.any (fun other => other.id == block.id)) = true ↔ block ∉ placed := by
    have other := @unplaced block
    rw [List.mem_filter] at other
    exact ⟨fun free => (other.mp ⟨member, free⟩).2, fun free => (other.mpr ⟨member, free⟩).2⟩
  rw [Bool.eq_iff_iff, Bool.and_eq_true, bne_iff_ne, absent, beq_iff_eq]
  unfold isParsed at places
  rw [Bool.and_eq_true, bne_iff_ne, bne_iff_ne] at places
  constructor
  · intro free
    by_contra other
    exact free.2 (places.mpr ⟨free.1, other⟩).1
  · intro notice
    have notUser : block.kind ≠ .user := by
      rw [notice]
      decide
    exact ⟨notUser, fun held => (places.mp ⟨held, notUser⟩).2 notice⟩

theorem Reordering.again {segments : List JsonValue} {start stop : Conversation}
    {reordered : List (Nat × Nat)} (h : Reordering segments start reordered stop)
    {later : Conversation} (read : readConversationBlocks later = readConversationBlocks stop)
    : Returns (restoreParsedTurnOrder segments) later [] later := by
  by_cases idle : userBlocks later = [] ∨ (readConversationBlocks later).filter isParsed = []
  · exact restoreParsedTurnOrder_idle segments idle
  have placing : ∀ {placed matched}, Places segments (userBlocks later)
      ((readConversationBlocks later).filter isParsed) placed matched
      → (matched = true → orderedBlocks (readConversationBlocks later) placed
        = readConversationBlocks later)
      → Returns (restoreParsedTurnOrder segments) later [] later := by
    intro placed matched places same
    unfold Returns
    rw [restoreParsedTurnOrder_placing segments idle]
    refine returns_bind.mpr ⟨_, later, returns_fromExcept.mpr ⟨places.ok, rfl⟩, ?_⟩
    have stays : (!matched) = true
        ∨ (orderedBlocks (readConversationBlocks later) placed).map ConversationBlock.id
          = (readConversationBlocks later).map ConversationBlock.id := by
      cases matched with
      | false => exact .inl rfl
      | true => exact .inr (congrArg _ (same rfl))
    exact congrFun (if_pos stays) later
  cases h with
  | idle none_ =>
    unfold userBlocks at idle none_
    rw [read] at idle
    exact absurd none_ idle
  | unmatched places =>
    unfold userBlocks at places
    rw [← read] at places
    exact placing places (fun other => (nomatch other))
  | settled places order =>
    unfold userBlocks at places
    rw [← read] at places order
    exact placing places (fun _ => order)
  | @moved placed _ places moved rest =>
    obtain ⟨position, moved⟩ : ∃ position, readConversationBlocks stop
        = (orderedBlocks (readConversationBlocks start) placed).map
            (ConversationBlock.at_ position) := ⟨_, moved⟩
    obtain ⟨parsed, users⟩ := places.ordered
    have perm := orderedBlocks_perm (readConversationBlocks_ids start)
      (placeBlocks_stored places.ok).1
    have distinct := (perm.pairwise_iff (fun ne => ne.symm)).mpr
      (readConversationBlocks_ids start)
    have again := (places.of_anchors users).at_ position (distinct.filter _)
    rw [← parsed] at again
    have places_ : Places segments (userBlocks later)
        ((readConversationBlocks later).filter isParsed)
        (placed.map (ConversationBlock.at_ position)) true := by
      unfold userBlocks
      rw [read, moved, List.filter_map, List.filter_map]
      exact again
    refine placing places_ (fun _ => ?_)
    rw [read, moved, orderedBlocks_at_, orderedBlocks_again]

end Placement

end Murder.Conversations

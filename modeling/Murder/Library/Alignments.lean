import Mathlib.Data.List.Perm.Subperm

/-! Two lists aligned by a key along a longest common subsequence of their keys, and the list
an alignment merges them into.
-/

namespace Library.Alignments

variable {α κ : Type} (key : α → κ)

/-- One move along two lists: equal heads matched, or one head taken alone. -/
inductive Move (α : Type)
  | matched (kept fresh : α)
  | kept (item : α)
  | fresh (item : α)
deriving DecidableEq

def Move.item : Move α → α
  | .matched _ item => item
  | .kept item => item
  | .fresh item => item

@[simp] theorem Move.item_matched (a b : α) : (Move.matched a b).item = b := rfl

@[simp] theorem Move.item_kept (a : α) : (Move.kept a).item = a := rfl

@[simp] theorem Move.item_fresh (a : α) : (Move.fresh a).item = a := rfl

def Move.pair? : Move α → Option (α × α)
  | .matched a b => some (a, b)
  | _ => none

def Move.kept? : Move α → Option α
  | .kept item => some item
  | _ => none

def Move.fresh? : Move α → Option α
  | .fresh item => some item
  | _ => none

variable [DecidableEq κ]

def commonLength : List α → List α → Nat
  | [], _ => 0
  | a :: left, right => along a (commonLength left) right
where
  along (a : α) (below : List α → Nat) : List α → Nat
    | [] => 0
    | b :: right =>
      if key a = key b then below right + 1
      else max (below (b :: right)) (along a below right)

@[simp] theorem commonLength_nil_left (right : List α) : commonLength key [] right = 0 := rfl

@[simp] theorem commonLength_nil_right (left : List α) : commonLength key left [] = 0 := by
  cases left <;> rfl

theorem commonLength_cons (a b : α) (left right : List α)
    : commonLength key (a :: left) (b :: right)
      = if key a = key b then commonLength key left right + 1
        else max (commonLength key left (b :: right)) (commonLength key (a :: left) right) :=
  rfl

/-- The moves of an alignment. Where the heads differ the left list moves, unless only the
right one keeps the common subsequence as long.
-/
def align : List α → List α → List (Move α)
  | [], right => right.map .fresh
  | a :: left, right => along a left (align left) right
where
  along (a : α) (left : List α) (below : List α → List (Move α)) : List α → List (Move α)
    | [] => .kept a :: left.map .kept
    | b :: right =>
      if key a = key b then .matched a b :: below right
      else if commonLength key (a :: left) right ≤ commonLength key left (b :: right) then
        .kept a :: below (b :: right)
      else
        .fresh b :: along a left below right

theorem align_cons (a b : α) (left right : List α)
    : align key (a :: left) (b :: right)
      = if key a = key b then .matched a b :: align key left right
        else if commonLength key (a :: left) right ≤ commonLength key left (b :: right) then
          .kept a :: align key left (b :: right)
        else
          .fresh b :: align key (a :: left) right :=
  rfl

theorem matched_of_pair {moves : List (Move α)} {pair : α × α}
    (listed : pair ∈ moves.filterMap Move.pair?)
    : .matched pair.1 pair.2 ∈ moves := by
  obtain ⟨move, member, found⟩ := List.mem_filterMap.mp listed
  cases move with
  | matched _ _ =>
    cases found
    exact member
  | kept _ | fresh _ => cases found

def merge (left right : List α) : List α := (align key left right).map Move.item

/-- The alignment of two lists, read off its moves. -/
inductive Aligned : List α → List α → List (Move α) → Prop
  | freshOnly (right) : Aligned [] right (right.map .fresh)
  | keptOnly (left) : Aligned left [] (left.map .kept)
  | matched {a b left right moves} (same : key a = key b) (rest : Aligned left right moves)
    : Aligned (a :: left) (b :: right) (.matched a b :: moves)
  | kept {a b left right moves} (apart : key a ≠ key b)
    (longer : commonLength key (a :: left) right ≤ commonLength key left (b :: right))
    (rest : Aligned left (b :: right) moves)
    : Aligned (a :: left) (b :: right) (.kept a :: moves)
  | fresh {a b left right moves} (apart : key a ≠ key b)
    (longer : commonLength key left (b :: right) ≤ commonLength key (a :: left) right)
    (rest : Aligned (a :: left) right moves)
    : Aligned (a :: left) (b :: right) (.fresh b :: moves)

/-- By induction on the left and then on the right list. -/
theorem aligned_align (left right : List α) : Aligned key left right (align key left right) := by
  induction left generalizing right with
  | nil => exact .freshOnly right
  | cons a left ih =>
    induction right with
    | nil => exact .keptOnly (a :: left)
    | cons b right ihr =>
      rw [align_cons]
      split_ifs with same longer
      · exact .matched same (ih right)
      · exact .kept same longer (ih (b :: right))
      · exact .fresh same (Nat.le_of_lt (Nat.lt_of_not_le longer)) ihr

variable {key}

section Aligned

variable {left right : List α} {moves : List (Move α)}

/-- The right list is part of the merged one. -/
theorem Aligned.right_sublist (aligned : Aligned key left right moves)
    : right.Sublist (moves.map Move.item) := by
  induction aligned with
  | freshOnly right => simp [Function.comp_def]
  | keptOnly left => exact List.nil_sublist _
  | matched _ _ ih => exact ih.cons_cons _
  | kept _ _ _ ih => exact ih.cons _
  | fresh _ _ _ ih => exact ih.cons_cons _

/-- Every left item is part of the merged list, or is matched with a right item. -/
theorem Aligned.left_mem (aligned : Aligned key left right moves) {a : α} (member : a ∈ left)
    : a ∈ moves.map Move.item ∨ ∃ b ∈ right, key b = key a := by
  induction aligned with
  | freshOnly right => exact absurd member List.not_mem_nil
  | keptOnly left => exact .inl (by simpa [Function.comp_def] using member)
  | @matched head b left right moves same rest ih =>
    rcases List.mem_cons.mp member with rfl | later
    · exact .inr ⟨b, List.mem_cons_self, same.symm⟩
    · rcases ih later with kept | ⟨match', listed, agrees⟩
      · exact .inl (List.mem_cons_of_mem _ kept)
      · exact .inr ⟨match', List.mem_cons_of_mem _ listed, agrees⟩
  | @kept head b left right moves apart longer rest ih =>
    rcases List.mem_cons.mp member with rfl | later
    · exact .inl List.mem_cons_self
    · exact (ih later).imp_left (List.mem_cons_of_mem _)
  | @fresh head b left right moves apart longer rest ih =>
    rcases ih member with kept | ⟨match', listed, agrees⟩
    · exact .inl (List.mem_cons_of_mem _ kept)
    · exact .inr ⟨match', List.mem_cons_of_mem _ listed, agrees⟩

theorem Aligned.same_key (aligned : Aligned key left right moves) {a b : α}
    (member : .matched a b ∈ moves)
    : key a = key b := by
  induction aligned with
  | freshOnly right => simp at member
  | keptOnly left => simp at member
  | matched same _ ih =>
    rcases List.mem_cons.mp member with here | later
    · cases here
      exact same
    · exact ih later
  | kept _ _ _ ih | fresh _ _ _ ih =>
    rcases List.mem_cons.mp member with here | later
    · cases here
    · exact ih later

/-- Left items that are only matched with items read the same are part of the merged list, in
their order.
-/
theorem Aligned.left_sublist {β : Type} {read : α → β} {spared : β → Prop}
    (aligned : Aligned key left right moves)
    (agrees : ∀ a b, .matched a b ∈ moves → spared (read a) → read b = read a)
    {items : List β} (spares : ∀ item ∈ items, spared item)
    (listed : items.Sublist (left.map read))
    : items.Sublist (moves.map (fun move => read move.item)) := by
  induction aligned generalizing items with
  | freshOnly right =>
    rw [List.sublist_nil.mp listed]
    exact List.nil_sublist _
  | keptOnly left => simpa [Function.comp_def] using listed
  | @matched a b left right moves same rest ih =>
    have later : ∀ a b, .matched a b ∈ moves → spared (read a) → read b = read a :=
      fun _ _ member => agrees _ _ (List.mem_cons_of_mem _ member)
    rcases List.sublist_cons_iff.mp listed with skipped | ⟨others, rfl, taken⟩
    · exact (ih later spares skipped).cons _
    · have equal := agrees a b List.mem_cons_self (spares _ List.mem_cons_self)
      rw [List.map_cons, Move.item_matched, equal]
      exact (ih later (fun _ member => spares _ (List.mem_cons_of_mem _ member))
        taken).cons_cons _
  | @kept a b left right moves apart longer rest ih =>
    have later : ∀ a b, .matched a b ∈ moves → spared (read a) → read b = read a :=
      fun _ _ member => agrees _ _ (List.mem_cons_of_mem _ member)
    rcases List.sublist_cons_iff.mp listed with skipped | ⟨others, rfl, taken⟩
    · exact (ih later spares skipped).cons _
    · exact (ih later (fun _ member => spares _ (List.mem_cons_of_mem _ member))
        taken).cons_cons _
  | fresh _ _ _ ih =>
    exact (ih (fun _ _ member => agrees _ _ (List.mem_cons_of_mem _ member)) spares
      listed).cons _

/-- The keys of the matches are common to both lists. -/
theorem Aligned.keys_sublist (aligned : Aligned key left right moves)
    : ((moves.filterMap Move.pair?).map (fun pair => key pair.2)).Sublist (left.map key)
      ∧ ((moves.filterMap Move.pair?).map (fun pair => key pair.2)).Sublist (right.map key) := by
  induction aligned with
  | freshOnly right => simp [Function.comp_def, Move.pair?]
  | keptOnly left => simp [Function.comp_def, Move.pair?]
  | matched same _ ih =>
    simp only [List.filterMap_cons, Move.pair?, List.map_cons, same]
    exact ⟨ih.1.cons_cons _, ih.2.cons_cons _⟩
  | kept _ _ _ ih => exact ⟨ih.1.cons _, ih.2⟩
  | fresh _ _ _ ih => exact ⟨ih.1, ih.2.cons _⟩

/-- Every left item is matched or kept alone. -/
theorem Aligned.countP_left (aligned : Aligned key left right moves) (p : α → Bool)
    : left.countP p
      = (moves.filterMap Move.pair?).countP (fun pair => p pair.1)
        + (moves.filterMap Move.kept?).countP p := by
  induction aligned with
  | freshOnly right => simp [Function.comp_def, Move.pair?, Move.kept?]
  | keptOnly left => simp [Function.comp_def, Move.pair?, Move.kept?]
  | matched _ _ ih | kept _ _ _ ih | fresh _ _ _ ih =>
    simp only [List.filterMap_cons, Move.pair?, Move.kept?, List.countP_cons] at ih ⊢
    omega

/-- Every right item is matched or taken alone. -/
theorem Aligned.countP_right (aligned : Aligned key left right moves) (p : α → Bool)
    : right.countP p
      = (moves.filterMap Move.pair?).countP (fun pair => p pair.2)
        + (moves.filterMap Move.fresh?).countP p := by
  induction aligned with
  | freshOnly right => simp [Function.comp_def, Move.pair?, Move.fresh?]
  | keptOnly left => simp [Function.comp_def, Move.pair?, Move.fresh?]
  | matched _ _ ih | kept _ _ _ ih | fresh _ _ _ ih =>
    simp only [List.filterMap_cons, Move.pair?, Move.fresh?, List.countP_cons] at ih ⊢
    omega

/-- The merged list has the right item of every match and the items taken alone. -/
theorem countP_items (moves : List (Move α)) (p : α → Bool)
    : (moves.map Move.item).countP p
      = (moves.filterMap Move.pair?).countP (fun pair => p pair.2)
        + (moves.filterMap Move.kept?).countP p + (moves.filterMap Move.fresh?).countP p := by
  induction moves with
  | nil => rfl
  | cons move moves ih =>
    cases move <;>
      simp only [List.map_cons, List.filterMap_cons, Move.item, Move.pair?, Move.kept?,
        Move.fresh?, List.countP_cons] at ih ⊢ <;>
      omega

end Aligned

/-- No common subsequence of the keys is longer, by induction over both lists. -/
theorem length_le_commonLength (left right : List α) {common : List κ}
    (inLeft : common.Sublist (left.map key)) (inRight : common.Sublist (right.map key))
    : common.length ≤ commonLength key left right := by
  induction left generalizing right common with
  | nil => simp [List.sublist_nil.mp inLeft]
  | cons a left ih =>
    induction right with
    | nil => simp [List.sublist_nil.mp inRight]
    | cons b right ihr =>
      rw [commonLength_cons]
      split_ifs with same
      · have below := ih right inLeft.tail inRight.tail
        rw [List.length_tail] at below
        omega
      · rcases List.sublist_cons_iff.mp inLeft with skipped | ⟨others, rfl, taken⟩
        · exact Nat.le_trans (ih _ skipped inRight) (Nat.le_max_left _ _)
        · have skipped : (key a :: others).Sublist (right.map key) := by
            rcases List.sublist_cons_iff.mp inRight with skipped | ⟨_, heads, _⟩
            · exact skipped
            · exact absurd (List.cons.inj heads).1 same
          exact Nat.le_trans (ihr skipped) (Nat.le_max_right _ _)

section Aligned

variable {left right : List α} {moves : List (Move α)}

/-- An alignment matches as many items as a longest common subsequence has. -/
theorem Aligned.length_pairs (aligned : Aligned key left right moves)
    : (moves.filterMap Move.pair?).length = commonLength key left right := by
  induction aligned with
  | freshOnly right => simp [Function.comp_def, Move.pair?]
  | keptOnly left => simp [Function.comp_def, Move.pair?]
  | matched same _ ih => simp [Move.pair?, commonLength_cons, same, ih]
  | kept apart longer _ ih =>
    simpa [List.filterMap_cons, Move.pair?, commonLength_cons, apart, Nat.max_eq_left longer]
      using ih
  | fresh apart longer _ ih =>
    simpa [List.filterMap_cons, Move.pair?, commonLength_cons, apart, Nat.max_eq_right longer]
      using ih

/-- Two lists of keys in one order: some common subsequence has every key as often as both do.
-/
def SameOrder (left right : List κ) : Prop :=
  ∃ common : List κ, common.Sublist left ∧ common.Sublist right
    ∧ ∀ k, common.count k = min (left.count k) (right.count k)

theorem SameOrder.of_sublist {left right : List κ} (h : left.Sublist right)
    : SameOrder left right :=
  ⟨left, List.Sublist.refl _, h, fun k => (Nat.min_eq_left (h.count_le k)).symm⟩

/-- Where the keys stand in one order, an alignment matches every key as often as both lists
have it.
-/
theorem Aligned.count_matched (aligned : Aligned key left right moves)
    (ordered : SameOrder (left.map key) (right.map key)) (k : κ)
    : ((moves.filterMap Move.pair?).map (fun pair => key pair.2)).count k
      = min ((left.map key).count k) ((right.map key).count k) := by
  obtain ⟨common, inLeft, inRight, counts⟩ := ordered
  have shared := aligned.keys_sublist
  have fewer : ((moves.filterMap Move.pair?).map (fun pair => key pair.2)).Subperm common := by
    refine List.subperm_ext_iff.mpr ?_
    intro k _
    rw [counts]
    exact Nat.le_min.mpr ⟨shared.1.count_le k, shared.2.count_le k⟩
  have longer
      : common.length ≤ ((moves.filterMap Move.pair?).map (fun pair => key pair.2)).length := by
    rw [List.length_map, aligned.length_pairs]
    exact length_le_commonLength left right inLeft inRight
  rw [(fewer.perm_of_length_le longer).count_eq k, counts]

/-- Where the keys stand in one order, items of one key are not left over on both sides. -/
theorem Aligned.kept_or_fresh_none (aligned : Aligned key left right moves)
    (ordered : SameOrder (left.map key) (right.map key)) (k : κ)
    : (moves.filterMap Move.kept?).countP (fun item => key item == k) = 0
      ∨ (moves.filterMap Move.fresh?).countP (fun item => key item == k) = 0 := by
  have matched := aligned.count_matched ordered k
  have lefts := aligned.countP_left (fun item => key item == k)
  have rights := aligned.countP_right (fun item => key item == k)
  have same : (moves.filterMap Move.pair?).countP (fun pair => key pair.1 == k)
      = (moves.filterMap Move.pair?).countP (fun pair => key pair.2 == k) :=
    List.countP_congr (fun pair listed => by
      rw [aligned.same_key (matched_of_pair listed)])
  simp only [List.count, List.countP_map, Function.comp_def] at matched
  omega

/-- Where the keys stand in one order, items of one key that are only matched with each other
stand in the merged list no more often than in one of the two lists.
-/
theorem Aligned.countP_le_max (aligned : Aligned key left right moves)
    (ordered : SameOrder (left.map key) (right.map key)) {p : α → Bool} {k : κ}
    (keyed : ∀ item, p item = true → key item = k)
    (agrees : ∀ a b, .matched a b ∈ moves → p a = p b)
    : (moves.map Move.item).countP p ≤ max (left.countP p) (right.countP p) := by
  have lefts := aligned.countP_left p
  have rights := aligned.countP_right p
  have merged := countP_items moves p
  have same : (moves.filterMap Move.pair?).countP (fun pair => p pair.1)
      = (moves.filterMap Move.pair?).countP (fun pair => p pair.2) :=
    List.countP_congr (fun pair listed => by rw [agrees _ _ (matched_of_pair listed)])
  have fewer : ∀ items : List α, items.countP p ≤ items.countP (fun item => key item == k) :=
    fun items => List.countP_mono_left (fun item _ holds => by simpa using keyed item holds)
  rcases aligned.kept_or_fresh_none ordered k with none' | none'
  · have noKept := fewer (moves.filterMap Move.kept?)
    omega
  · have noFresh := fewer (moves.filterMap Move.fresh?)
    omega

end Aligned

/-- Merging a list with itself changes nothing. -/
@[simp] theorem merge_self (items : List α) : merge key items items = items := by
  induction items with
  | nil => rfl
  | cons item items ih =>
    have step : merge key (item :: items) (item :: items) = item :: merge key items items := by
      simp [merge, align_cons]
    rw [step, ih]

end Library.Alignments

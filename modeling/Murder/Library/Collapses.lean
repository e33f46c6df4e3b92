import Mathlib.Data.List.Chain

/-! Lists whose adjacent items collapse: each item is merged into the last kept one where the two
collapse, so a list becomes one kept item for each block of items merged into it.
-/

namespace Library.Collapses

variable {α β : Type}

def keptBehind (collapse : α → α → Option α) (prev : α) : List α → List α
  | [] => [prev]
  | item :: rest =>
    match collapse prev item with
    | some merged => keptBehind collapse merged rest
    | none => prev :: keptBehind collapse item rest

def kept (collapse : α → α → Option α) : List α → List α
  | [] => []
  | item :: rest => keptBehind collapse item rest

/-- Items merged into one, of which there is at least one. -/
structure Block (α : Type) where
  first : α
  others : List α := []

namespace Block

def members (block : Block α) : List α := block.first :: block.others

def add (block : Block α) (item : α) : Block α := { block with others := block.others ++ [item] }

def merged (collapse : α → α → Option α) (block : Block α) : α :=
  block.others.foldl (fun prev item => (collapse prev item).getD prev) block.first

@[simp] theorem members_add (block : Block α) (item : α)
    : (block.add item).members = block.members ++ [item] := rfl

theorem merged_add {collapse : α → α → Option α} {block : Block α} {item next : α}
    (collapses : collapse (block.merged collapse) item = some next)
    : (block.add item).merged collapse = next := by
  unfold merged at collapses ⊢
  rw [add, List.foldl_append, List.foldl_cons, collapses]
  rfl

end Block

def blocksBehind (same : α → α → Bool) (block : Block α) : List α → List (Block α)
  | [] => [block]
  | item :: rest =>
    if block.members.all (same · item) then blocksBehind same (block.add item) rest
    else block :: blocksBehind same ⟨item, []⟩ rest

def blocks (same : α → α → Bool) : List α → List (Block α)
  | [] => []
  | item :: rest => blocksBehind same ⟨item, []⟩ rest

/-- What a merged item sums up of the items of its block decides which item joins it. -/
structure SumsUp (collapse : α → α → Option α) (same : α → α → Bool)
    (sums : List α → α → Prop) : Prop where
  single : ∀ item, sums [item] item
  joins
    : ∀ members prev item, sums members prev
      → ((collapse prev item).isSome = true ↔ members.all (same · item) = true)
  merges
    : ∀ members prev item merged, sums members prev → collapse prev item = some merged
      → sums (members ++ [item]) merged

section SumsUp

variable {collapse : α → α → Option α} {same : α → α → Bool} {sums : List α → α → Prop}

theorem SumsUp.behind (law : SumsUp collapse same sums) {block : Block α} {items : List α}
    (summed : sums block.members (block.merged collapse))
    : keptBehind collapse (block.merged collapse) items
        = (blocksBehind same block items).map (Block.merged collapse)
      ∧ ∀ other ∈ blocksBehind same block items,
          sums other.members (other.merged collapse) := by
  induction items generalizing block with
  | nil => simpa [keptBehind, blocksBehind] using summed
  | cons item rest ih =>
    have joins := law.joins block.members _ item summed
    rw [keptBehind, blocksBehind]
    cases collapses : collapse (block.merged collapse) item with
    | some next =>
      rw [collapses] at joins
      rw [if_pos (joins.mp rfl)]
      have grown := Block.merged_add collapses
      have more := law.merges _ _ _ _ summed collapses
      rw [← Block.members_add, ← grown] at more
      rw [← grown]
      exact ih more
    | none =>
      rw [collapses] at joins
      rw [if_neg (fun joined => nomatch joins.mpr joined)]
      obtain ⟨kept_, summed_⟩ := @ih ⟨item, []⟩ (law.single item)
      constructor
      · rw [List.map_cons, ← kept_]
        rfl
      · intro other member
        rcases List.mem_cons.mp member with rfl | later
        · exact summed
        · exact summed_ other later

theorem SumsUp.kept_eq (law : SumsUp collapse same sums) (items : List α)
    : kept collapse items = (blocks same items).map (Block.merged collapse) := by
  cases items with
  | nil => rfl
  | cons item rest => exact (@SumsUp.behind _ _ _ _ law ⟨item, []⟩ rest (law.single item)).1

theorem SumsUp.summed (law : SumsUp collapse same sums) {items : List α} {block : Block α}
    (member : block ∈ blocks same items)
    : sums block.members (block.merged collapse) := by
  cases items with
  | nil => cases member
  | cons item rest =>
    exact (@SumsUp.behind _ _ _ _ law ⟨item, []⟩ rest (law.single item)).2 block member

end SumsUp

theorem keptBehind_of_chain {collapse : α → α → Option α} {prev : α} {items : List α}
    (apart : List.IsChain (fun a b => collapse a b = none) (prev :: items))
    : keptBehind collapse prev items = prev :: items := by
  induction items generalizing prev with
  | nil => rfl
  | cons item rest ih =>
    rw [List.isChain_cons_cons] at apart
    rw [keptBehind, apart.1, ih apart.2]

/-- What a neighbour does not collapse with stays apart from it while it grows. -/
theorem chain_keptBehind {collapse : α → α → Option α}
    (apart
      : ∀ before prev item merged, collapse before prev = none
        → collapse prev item = some merged → collapse before merged = none)
    (prev : α) (items : List α)
    : List.IsChain (fun a b => collapse a b = none) (keptBehind collapse prev items)
      ∧ ∀ before, collapse before prev = none
        → ∀ first ∈ (keptBehind collapse prev items).head?, collapse before first = none := by
  induction items generalizing prev with
  | nil => simp [keptBehind]
  | cons item rest ih =>
    rw [keptBehind]
    cases collapses : collapse prev item with
    | some merged =>
      obtain ⟨chain, heads⟩ := ih merged
      exact ⟨chain, fun before far => heads before (apart _ _ _ _ far collapses)⟩
    | none =>
      obtain ⟨chain, heads⟩ := ih item
      refine ⟨chain.cons (heads prev collapses), ?_⟩
      intro before far first at_
      cases at_
      exact far

/-- Collapsing a list twice is collapsing it once. -/
theorem kept_kept {collapse : α → α → Option α}
    (apart
      : ∀ before prev item merged, collapse before prev = none
        → collapse prev item = some merged → collapse before merged = none)
    (items : List α)
    : kept collapse (kept collapse items) = kept collapse items := by
  cases items with
  | nil => rfl
  | cons item rest =>
    have chain := (chain_keptBehind apart item rest).1
    change kept collapse (keptBehind collapse item rest) = keptBehind collapse item rest
    generalize keptBehind collapse item rest = list at chain ⊢
    cases list with
    | nil => rfl
    | cons first others => exact keptBehind_of_chain chain

/-- Two collapses that agree behind a projection keep the same lists behind it. -/
theorem map_keptBehind {collapse : α → α → Option α} {project : α → β}
    {other : β → β → Option β}
    (agree : ∀ a b, other (project a) (project b) = (collapse a b).map project)
    (prev : α) (items : List α)
    : (keptBehind collapse prev items).map project
      = keptBehind other (project prev) (items.map project) := by
  induction items generalizing prev with
  | nil => rfl
  | cons item rest ih =>
    rw [List.map_cons, keptBehind, keptBehind, agree]
    cases collapse prev item with
    | some merged => exact ih merged
    | none => simp [ih]

theorem map_kept {collapse : α → α → Option α} {project : α → β} {other : β → β → Option β}
    (agree : ∀ a b, other (project a) (project b) = (collapse a b).map project)
    (items : List α)
    : (kept collapse items).map project = kept other (items.map project) := by
  cases items with
  | nil => rfl
  | cons item rest => exact map_keptBehind agree item rest

end Library.Collapses

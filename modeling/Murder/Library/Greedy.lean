import Mathlib.Data.List.Induction
import Mathlib.Data.List.Sort

/-! Greedy selection: items in their order, each taken if it is allowed after those taken before.
What is allowed is closed under sublists, as budgets of nonnegative costs are.
-/

namespace Library.Greedy

variable {α : Type} (allowed : List α → Bool)

def step (taken : List α) (item : α) : List α :=
  if allowed (taken ++ [item]) then taken ++ [item] else taken

def select (items : List α) : List α := items.foldl (step allowed) []

/-- A part of what is allowed among the items is allowed. -/
def Closed (items : List α) : Prop :=
  ∀ part whole : List α, part.Sublist whole → whole.Sublist items → allowed whole → allowed part

section Selections

theorem filter_concat_pos {chosen : α → Bool} {items : List α} {item : α} (picked : chosen item)
    : (items ++ [item]).filter chosen = items.filter chosen ++ [item] := by
  rw [List.filter_append, List.filter_cons_of_pos picked, List.filter_nil]

theorem filter_concat_neg {chosen : α → Bool} {items : List α} {item : α}
    (passed : ¬ chosen item)
    : (items ++ [item]).filter chosen = items.filter chosen := by
  rw [List.filter_append, List.filter_cons_of_neg passed, List.filter_nil, List.append_nil]

variable {allowed : List α → Bool} {items before after taken : List α} {item : α}

theorem step_of_allowed (room : allowed (taken ++ [item]))
    : step allowed taken item = taken ++ [item] :=
  if_pos room

theorem step_of_not_allowed (full : ¬ allowed (taken ++ [item]))
    : step allowed taken item = taken :=
  if_neg full

theorem select_append
    : select allowed (before ++ after) = after.foldl (step allowed) (select allowed before) :=
  List.foldl_append

theorem select_concat
    : select allowed (items ++ [item]) = step allowed (select allowed items) item := by
  rw [select_append]
  rfl

theorem mem_foldl_step (member : item ∈ items.foldl (step allowed) taken)
    : item ∈ taken ∨ item ∈ items := by
  induction items generalizing taken with
  | nil => exact .inl member
  | cons first rest ih =>
    rcases ih member with early | later
    · by_cases room : allowed (taken ++ [first])
      · rw [step_of_allowed room] at early
        rcases List.mem_append.mp early with early | own
        · exact .inl early
        · exact .inr (List.mem_cons.mpr (.inl (List.mem_singleton.mp own)))
      · rw [step_of_not_allowed room] at early
        exact .inl early
    · exact .inr (List.mem_cons_of_mem first later)

theorem sublist_foldl_step : taken.Sublist (items.foldl (step allowed) taken) := by
  induction items generalizing taken with
  | nil => exact .refl taken
  | cons first rest ih =>
    by_cases room : allowed (taken ++ [first])
    · rw [List.foldl_cons, step_of_allowed room]
      exact (List.sublist_append_left taken [first]).trans ih
    · rw [List.foldl_cons, step_of_not_allowed room]
      exact ih

theorem mem_select_iff (distinct : (before ++ item :: after).Nodup)
    : item ∈ select allowed (before ++ item :: after)
      ↔ allowed (select allowed before ++ [item]) := by
  have unlisted : item ∉ before ∧ item ∉ after := by
    rw [List.nodup_middle, List.nodup_cons] at distinct
    exact not_or.mp (fun member => distinct.1 (List.mem_append.mpr member))
  have fresh : item ∉ select allowed before := fun member =>
    (mem_foldl_step member).elim List.not_mem_nil unlisted.1
  rw [select_append, List.foldl_cons]
  constructor
  · intro member
    by_contra full
    rw [step_of_not_allowed full] at member
    exact (mem_foldl_step member).elim fresh unlisted.2
  · intro room
    rw [step_of_allowed room]
    exact sublist_foldl_step.subset (List.mem_append_right _ (List.mem_singleton.mpr rfl))

theorem map_select {f : α → α} (same : ∀ items, allowed (items.map f) = allowed items)
    : (select allowed items).map f = select allowed (items.map f) := by
  induction items using List.reverseRecOn with
  | nil => rfl
  | append_singleton before item ih =>
    have room : allowed ((select allowed before).map f ++ [f item])
        = allowed (select allowed before ++ [item]) := by
      rw [← same (select allowed before ++ [item]), List.map_append]
      rfl
    have whole : (before ++ [item]).map f = before.map f ++ [f item] := List.map_append
    rw [whole, select_concat, select_concat, ← ih, step, step, room]
    by_cases fits : allowed (select allowed before ++ [item])
    · rw [if_pos fits, if_pos fits, List.map_append]
      rfl
    · rw [if_neg fits, if_neg fits]

theorem select_sublist : (select allowed items).Sublist items := by
  induction items using List.reverseRecOn with
  | nil => exact .slnil
  | append_singleton before item ih =>
    rw [select_concat]
    by_cases room : allowed (select allowed before ++ [item])
    · rw [step_of_allowed room]
      exact ih.append_right [item]
    · rw [step_of_not_allowed room]
      exact ih.trans (List.sublist_append_left before [item])

theorem select_allowed (nothing : allowed []) : allowed (select allowed items) := by
  induction items using List.reverseRecOn with
  | nil => exact nothing
  | append_singleton before item ih =>
    rw [select_concat]
    by_cases room : allowed (select allowed before ++ [item])
    · rw [step_of_allowed room]
      exact room
    · rw [step_of_not_allowed room]
      exact ih

/-- No class of items is selected past a bound if and only if no item is selected where its class
has reached the bound.
-/
theorem countP_select_le_iff {κ : Type} [DecidableEq κ] {key : α → κ} {bound : Int}
    (nonneg : 0 ≤ bound)
    : (∀ value, ((select allowed items).countP (key · = value) : Int) ≤ bound)
      ↔ ∀ before item after, items = before ++ item :: after
        → allowed (select allowed before ++ [item])
        → ((select allowed before).countP (key · = key item) : Int) < bound := by
  constructor
  · intro bounded before item after same room
    have front_ : (select allowed before ++ [item]).Sublist (select allowed items) := by
      rw [same, select_append, List.foldl_cons, step_of_allowed room]
      exact sublist_foldl_step
    have fewer : (select allowed before ++ [item]).countP (key · = key item)
        ≤ (select allowed items).countP (key · = key item) := front_.countP_le
    rw [List.countP_append, List.countP_singleton, if_pos (decide_eq_true rfl)] at fewer
    have whole := bounded (key item)
    omega
  · intro below value
    induction items using List.reverseRecOn with
    | nil => exact nonneg
    | append_singleton before item ih =>
      have earlier := ih (fun front middle back same =>
        below front middle (back ++ [item]) (by rw [same, List.append_assoc, List.cons_append]))
      rw [select_concat]
      by_cases room : allowed (select allowed before ++ [item])
      · rw [step_of_allowed room, List.countP_append, List.countP_singleton]
        by_cases own : key item = value
        · have strict := below before item [] rfl room
          rw [own] at strict
          rw [if_pos (decide_eq_true own)]
          omega
        · rw [if_neg (by simpa using own)]
          exact earlier
      · rw [step_of_not_allowed room]
        exact earlier

end Selections

section Priority

variable (first : α → Bool)

/-- Whatever else was taken before an item that comes first, along with those that come first
themselves, leaves room for it wherever those alone do.
-/
def Roomy (items : List α) : Prop :=
  ∀ before item after, items = before ++ item :: after → first item
    → allowed (select allowed (before.filter first) ++ [item])
    → ∀ taken : List α, taken.Sublist before
      → taken.filter first = select allowed (before.filter first)
      → allowed taken → allowed (taken ++ [item])

variable {allowed first} {items before : List α} {item : α}

theorem Roomy.of_append {behind : List α} (roomy : Roomy allowed first (before ++ behind))
    : Roomy allowed first before := by
  intro early item late same
  refine roomy early item (late ++ behind) ?_
  rw [same, List.append_assoc, List.cons_append]

theorem Closed.of_sublist {part : List α} (closed : Closed allowed items)
    (within : part.Sublist items)
    : Closed allowed part :=
  fun _ _ smaller inside => closed _ _ smaller (inside.trans within)

/-- In a roomy list those that come first are selected alike under every choice of the others. -/
theorem Roomy.filter_select (closed : Closed allowed items) (roomy : Roomy allowed first items)
    {chosen : α → Bool} (all : ∀ item, first item → chosen item)
    : (select allowed (items.filter chosen)).filter first
      = select allowed (items.filter first) := by
  induction items using List.reverseRecOn with
  | nil => rfl
  | append_singleton before item ih =>
    have same := ih (closed.of_sublist (List.sublist_append_left before [item])) roomy.of_append
    by_cases early : first item
    · rw [filter_concat_pos early, filter_concat_pos (all item early), select_concat,
        select_concat, ← same]
      have part : ((select allowed (before.filter chosen)).filter first ++ [item]).Sublist
          (select allowed (before.filter chosen) ++ [item]) :=
        List.filter_sublist.append_right [item]
      have whole : (select allowed (before.filter chosen) ++ [item]).Sublist (before ++ [item]) :=
        (select_sublist.trans List.filter_sublist).append_right [item]
      by_cases room : allowed (select allowed (before.filter chosen) ++ [item])
      · rw [step_of_allowed room, step_of_allowed (closed _ _ part whole room),
          filter_concat_pos early]
      · have full
            : ¬ allowed ((select allowed (before.filter chosen)).filter first ++ [item]) := by
          intro alone
          have nothing : allowed [] := closed _ _ (List.nil_sublist _) (part.trans whole) alone
          rw [same] at alone
          exact room (roomy before item [] rfl early alone _
            (select_sublist.trans List.filter_sublist) same (select_allowed nothing))
        rw [step_of_not_allowed room, step_of_not_allowed full]
    · rw [filter_concat_neg early, ← same]
      by_cases picked : chosen item
      · rw [filter_concat_pos picked, select_concat]
        by_cases room : allowed (select allowed (before.filter chosen) ++ [item])
        · rw [step_of_allowed room, filter_concat_neg early]
        · rw [step_of_not_allowed room]
      · rw [filter_concat_neg picked]

/-- Whatever is allowed along with those that come first is selected by choosing it. -/
theorem select_chosen (closed : Closed allowed items) {chosen : α → Bool} {taken : List α}
    (distinct : items.Nodup) (part : taken.Sublist items)
    (chosen_iff : ∀ item ∈ items, chosen item ↔ first item ∨ item ∈ taken)
    (same : taken.filter first = select allowed (items.filter first)) (room : allowed taken)
    : select allowed (items.filter chosen) = taken := by
  induction items using List.reverseRecOn generalizing taken with
  | nil => exact (List.sublist_nil.mp part).symm
  | append_singleton before item ih =>
    obtain ⟨earlier, -, apart⟩ := List.nodup_append.mp distinct
    have fresh : item ∉ before := fun member =>
      apart item member item (List.mem_singleton.mpr rfl) rfl
    have picked := chosen_iff item (List.mem_append_right _ (List.mem_singleton.mpr rfl))
    have picks := fun other (member : other ∈ before) =>
      chosen_iff other (List.mem_append_left _ member)
    have closes := closed.of_sublist (List.sublist_append_left before [item])
    obtain ⟨rest, last, rfl, within, final⟩ := List.sublist_append_iff.mp part
    by_cases ends : last = []
    · -- the item is not taken
      subst ends
      rw [List.append_nil] at same room picked picks ⊢
      have unlisted : item ∉ rest := fun member => fresh (within.subset member)
      by_cases early : first item
      · rw [filter_concat_pos early, select_concat] at same
        rw [filter_concat_pos (picked.mpr (.inl early)), select_concat]
        have full : ¬ allowed (select allowed (before.filter first) ++ [item]) := by
          intro alone
          rw [step_of_allowed alone] at same
          have member : item ∈ rest.filter first := by
            rw [same]
            exact List.mem_append_right _ (List.mem_singleton.mpr rfl)
          exact unlisted (List.mem_of_mem_filter member)
        rw [step_of_not_allowed full] at same
        have kept := ih closes earlier within picks same room
        rw [kept]
        apply step_of_not_allowed
        intro more
        apply full
        rw [← same]
        exact closed _ _ (List.filter_sublist.append_right [item])
          (within.append_right [item]) more
      · rw [filter_concat_neg early] at same
        rw [filter_concat_neg (fun yes => (picked.mp yes).elim early unlisted)]
        exact ih closes earlier within picks same room
    · -- the item is taken last
      have whole : last = [item] := by
        rcases List.sublist_singleton.mp final with none_ | one
        · exact absurd none_ ends
        · exact one
      subst whole
      have unlisted : item ∉ rest := fun member => fresh (within.subset member)
      have picks' : ∀ other ∈ before, chosen other ↔ first other ∨ other ∈ rest := by
        intro other member
        have other_ne : other ≠ item := fun equal => fresh (equal ▸ member)
        rw [picks other member, List.mem_append, List.mem_singleton]
        simp only [other_ne, or_false]
      have kept' : rest.filter first = select allowed (before.filter first) := by
        by_cases early : first item
        · rw [filter_concat_pos early, filter_concat_pos early, select_concat] at same
          by_cases alone : allowed (select allowed (before.filter first) ++ [item])
          · rw [step_of_allowed alone] at same
            exact List.append_cancel_right same
          · rw [step_of_not_allowed alone] at same
            have member : item ∈ select allowed (before.filter first) := by
              rw [← same]
              exact List.mem_append_right _ (List.mem_singleton.mpr rfl)
            exact absurd (List.mem_of_mem_filter (select_sublist.subset member)) fresh
        · rw [filter_concat_neg early, filter_concat_neg early] at same
          exact same
      have smaller : allowed rest := closed _ _ (List.sublist_append_left rest [item]) part room
      have taken_ : chosen item :=
        picked.mpr (.inr (List.mem_append_right _ (List.mem_singleton.mpr rfl)))
      rw [filter_concat_pos taken_, select_concat,
        ih closes earlier within picks' kept' smaller]
      exact step_of_allowed room

/-- Those that come first are selected alike under any two choices of the others exactly in a
roomy list.
-/
theorem mem_select_iff_roomy (closed : Closed allowed items) (distinct : items.Nodup)
    : (∀ one other : α → Bool, (∀ item, first item → one item) → (∀ item, first item → other item)
        → ∀ item, first item
          → (item ∈ select allowed (items.filter one) ↔ item ∈ select allowed (items.filter other)))
      ↔ Roomy allowed first items := by
  classical
  constructor
  · intro alike before item after same early alone taken part kept room
    subst same
    let chosen : α → Bool := fun other => first other || decide (other ∈ taken)
    have chosen_iff : ∀ other, chosen other ↔ first other ∨ other ∈ taken := by
      intro other
      simp only [chosen, Bool.or_eq_true, decide_eq_true_eq]
    have agrees := alike chosen first (fun other yes => (chosen_iff other).mpr (.inl yes))
      (fun _ yes => yes) item early
    rw [List.filter_append, List.filter_append,
      List.filter_cons_of_pos ((chosen_iff item).mpr (.inl early)),
      List.filter_cons_of_pos early] at agrees
    have split : ∀ kind : α → Bool, kind item
        → (before.filter kind ++ item :: after.filter kind).Nodup := by
      intro kind yes
      have whole := distinct.filter kind
      rw [List.filter_append, List.filter_cons_of_pos yes] at whole
      exact whole
    rw [mem_select_iff (split chosen ((chosen_iff item).mpr (.inl early))),
      mem_select_iff (split first early),
      select_chosen (closed.of_sublist (List.sublist_append_left before (item :: after)))
        distinct.of_append_left part (fun other _ => chosen_iff other) kept
        room] at agrees
    exact agrees.mpr alone
  · intro roomy one other all_one all_other item early
    have same := (roomy.filter_select closed all_one).trans
      (roomy.filter_select closed all_other).symm
    have kept : ∀ taken : List α, item ∈ taken ↔ item ∈ taken.filter first := fun taken =>
      (List.mem_filter.trans (and_iff_left early)).symm
    rw [kept, same, ← kept]

end Priority

section Sorting

variable {r : α → α → Prop} [DecidableRel r] {chosen : α → Bool}

theorem orderedInsert_of_forall {item : α} {items : List α} (front : ∀ other ∈ items, r item other)
    : items.orderedInsert r item = item :: items := by
  cases items with
  | nil => rfl
  | cons head rest => exact List.orderedInsert_cons_of_le r rest (front head List.mem_cons_self)

theorem filter_orderedInsert [IsTrans α r] {item : α} {items : List α} (sorted : items.Pairwise r)
    : (items.orderedInsert r item).filter chosen
      = if chosen item then (items.filter chosen).orderedInsert r item
        else items.filter chosen := by
  induction items with
  | nil =>
    by_cases picked : chosen item
    · rw [List.orderedInsert_nil, List.filter_cons_of_pos picked, if_pos picked]
      rfl
    · rw [List.orderedInsert_nil, List.filter_cons_of_neg picked, if_neg picked]
  | cons head rest ih =>
    obtain ⟨least, sorted⟩ := List.pairwise_cons.mp sorted
    rw [List.orderedInsert_cons]
    by_cases below : r item head
    · rw [if_pos below]
      by_cases picked : chosen item
      · have front : ∀ other ∈ (head :: rest).filter chosen, r item other := by
          intro other member
          rcases List.mem_cons.mp (List.mem_of_mem_filter member) with own | later
          · rw [own]
            exact below
          · exact IsTrans.trans _ _ _ below (least other later)
        rw [List.filter_cons_of_pos picked, if_pos picked, orderedInsert_of_forall front]
      · rw [List.filter_cons_of_neg picked, if_neg picked]
    · rw [if_neg below]
      by_cases taken : chosen head
      · rw [List.filter_cons_of_pos taken, ih sorted, List.filter_cons_of_pos taken,
          List.orderedInsert_cons, if_neg below]
        by_cases picked : chosen item
        · rw [if_pos picked, if_pos picked]
        · rw [if_neg picked, if_neg picked]
      · rw [List.filter_cons_of_neg taken, ih sorted, List.filter_cons_of_neg taken]

theorem filter_insertionSort [IsTrans α r] [Std.Total r] (items : List α)
    : (items.insertionSort r).filter chosen = (items.filter chosen).insertionSort r := by
  induction items with
  | nil => rfl
  | cons head rest ih =>
    rw [List.insertionSort_cons, filter_orderedInsert (List.pairwise_insertionSort r rest), ih]
    by_cases picked : chosen head
    · rw [if_pos picked, List.filter_cons_of_pos picked, List.insertionSort_cons]
    · rw [if_neg picked, List.filter_cons_of_neg picked]

end Sorting

end Library.Greedy

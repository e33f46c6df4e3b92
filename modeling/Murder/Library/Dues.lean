import Mathlib.Order.Lattice

/-! Due items of an order, delivered one after another behind a cursor. A delivery cut off
before the cursor moved over its item is met again, and made once all the same.
-/

namespace Library.Dues

variable {α : Type} [LinearOrder α] {due : α → Prop} {first after item : α}
  {items delivered : List α}

/-- The first item that is due behind a cursor. -/
structure Next (due : α → Prop) (after item : α) : Prop where
  wanted : due item
  behind : after < item
  least : ∀ other, due other → after < other → item ≤ other

theorem Next.unique {other : α} (next : Next due after item) (next' : Next due after other)
    : item = other :=
  le_antisymm (next.least _ next'.wanted next'.behind) (next'.least _ next.wanted next.behind)

/-- Items that are due behind a cursor, in order and without a hole. -/
structure Page (due : α → Prop) (after : α) (items : List α) : Prop where
  increasing : items.Pairwise (· < ·)
  sound : ∀ item ∈ items, due item ∧ after < item
  whole : ∀ item ∈ items, ∀ other, due other → after < other → other ≤ item → other ∈ items

theorem Page.nil : Page due after [] :=
  ⟨.nil, fun _ member => absurd member List.not_mem_nil,
    fun _ member => absurd member List.not_mem_nil⟩

theorem Page.next (page : Page due after (item :: items)) : Next due after item := by
  obtain ⟨here, behind⟩ := page.sound item List.mem_cons_self
  refine ⟨here, behind, fun other other_due later => ?_⟩
  refine not_lt.mp (fun early => ?_)
  have listed := page.whole item List.mem_cons_self other other_due later early.le
  rcases List.mem_cons.mp listed with rfl | rest
  · exact lt_irrefl _ early
  · exact lt_asymm early (List.rel_of_pairwise_cons page.increasing rest)

/-- The rest of a page is one behind its first item. -/
theorem Page.tail (page : Page due after (item :: items)) : Page due item items := by
  have above : ∀ other ∈ items, item < other := fun other member =>
    List.rel_of_pairwise_cons page.increasing member
  refine ⟨page.increasing.of_cons, fun other member => ?_, ?_⟩
  · exact ⟨(page.sound other (List.mem_cons_of_mem _ member)).1, above other member⟩
  · intro last member other other_due later within
    have listed := page.whole last (List.mem_cons_of_mem _ member) other other_due
      (page.next.behind.trans later) within
    rcases List.mem_cons.mp listed with rfl | rest
    · exact absurd later (lt_irrefl _)
    · exact rest

/-- What was delivered from the first cursor on: all that is due up to the present cursor, and
at most the next item behind it.
-/
structure Delivered (due : α → Prop) (first after : α) (delivered : List α) : Prop where
  forward : first ≤ after
  increasing : delivered.Pairwise (· < ·)
  sound : ∀ item ∈ delivered, due item ∧ first < item
  complete : ∀ item, due item → first < item → item ≤ after → item ∈ delivered
  ahead : ∀ item ∈ delivered, item ≤ after ∨ Next due after item

theorem Delivered.none_ : Delivered due first first [] :=
  ⟨le_rfl, .nil, fun _ member => absurd member List.not_mem_nil,
    fun _ _ later within => absurd later within.not_gt,
    fun _ member => absurd member List.not_mem_nil⟩

theorem Delivered.deliver (progress : Delivered due first after delivered)
    (next : Next due after item) (fresh : item ∉ delivered)
    : Delivered due first after (delivered ++ [item]) := by
  have within : ∀ other ∈ delivered, other ≤ after := by
    intro other member
    rcases progress.ahead other member with within | other_next
    · exact within
    · exact absurd (next.unique other_next ▸ member) fresh
  refine ⟨progress.forward, ?_, ?_, ?_, ?_⟩
  · refine List.pairwise_append.mpr ⟨progress.increasing, List.pairwise_singleton _ _, ?_⟩
    intro other member last same
    rw [List.mem_singleton.mp same]
    exact (within other member).trans_lt next.behind
  · intro other member
    rcases List.mem_append.mp member with old | new
    · exact progress.sound other old
    · rw [List.mem_singleton.mp new]
      exact ⟨next.wanted, progress.forward.trans_lt next.behind⟩
  · intro other other_due later early
    exact List.mem_append_left _ (progress.complete other other_due later early)
  · intro other member
    rcases List.mem_append.mp member with old | new
    · exact .inl (within other old)
    · rw [List.mem_singleton.mp new]
      exact .inr next

theorem Delivered.move (progress : Delivered due first after delivered)
    (next : Next due after item) (member : item ∈ delivered)
    : Delivered due first item delivered := by
  refine ⟨progress.forward.trans next.behind.le, progress.increasing, progress.sound, ?_, ?_⟩
  · intro other other_due later within
    by_cases old : other ≤ after
    · exact progress.complete other other_due later old
    · rwa [le_antisymm within (next.least other other_due (lt_of_not_ge old))]
  · intro other listed
    rcases progress.ahead other listed with old | other_next
    · exact .inl (old.trans next.behind.le)
    · exact .inl (next.unique other_next).ge

theorem Delivered.inOrder (progress : Delivered due first after delivered)
    (member : item ∈ delivered) {other : α} (other_due : due other) (later : first < other)
    (early : other ≤ item)
    : other ∈ delivered := by
  by_cases old : other ≤ after
  · exact progress.complete other other_due later old
  rcases progress.ahead item member with within | next
  · exact absurd (early.trans within) old
  · rwa [le_antisymm early (next.least other other_due (lt_of_not_ge old))]

end Library.Dues

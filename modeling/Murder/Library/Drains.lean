import Mathlib.Data.List.Basic
import Mathlib.Logic.Relation

/-! Loops that fetch a page of due items, visit each of them, and fetch again until a page is
empty. A visit reads and replaces a state, and may fail.
-/

namespace Library.Drains

variable {ε σ ι : Type}

def visitAll (visit : σ → ι → Except ε σ) : List ι → σ → Except ε σ
  | [], state => .ok state
  | item :: items, state =>
    match visit state item with
    | .error raised => .error raised
    | .ok next => visitAll visit items next

/-- Fetch and visit pages until one is empty; `none` when the fuel runs out before. -/
def drain (page : σ → List ι) (visit : σ → ι → Except ε σ) : Nat → σ → Option (Except ε σ)
  | 0, _ => none
  | fuel + 1, state =>
    if page state = [] then some (.ok state)
    else
      match visitAll visit (page state) state with
      | .error raised => some (.error raised)
      | .ok next => drain page visit fuel next

/-- What makes such a loop end: the items of a page are due and apart from each other, a
visit of a due item lowers the measure, and it leaves the items apart from it due.
-/
structure Lowers (page : σ → List ι) (visit : σ → ι → Except ε σ) (due : σ → ι → Prop)
    (apart : ι → ι → Prop) (measure : σ → Nat) : Prop where
  pageDue : ∀ state, ∀ item ∈ page state, due state item
  pageApart : ∀ state, (page state).Pairwise apart
  lowers : ∀ state item next, due state item → visit state item = .ok next →
    measure next < measure state
  waits : ∀ state item next other, due state item → visit state item = .ok next →
    apart item other → due state other → due next other

def Visited (visit : σ → ι → Except ε σ) (due : σ → ι → Prop) (state next : σ) : Prop :=
  ∃ item, due state item ∧ visit state item = .ok next

abbrev Reached (visit : σ → ι → Except ε σ) (due : σ → ι → Prop) : σ → σ → Prop :=
  Relation.ReflTransGen (Visited visit due)

def Failed (visit : σ → ι → Except ε σ) (due : σ → ι → Prop) (start : σ) (raised : ε) : Prop :=
  ∃ state item, Reached visit due start state ∧ due state item
    ∧ visit state item = .error raised

variable {page : σ → List ι} {visit : σ → ι → Except ε σ} {due : σ → ι → Prop}
  {apart : ι → ι → Prop} {measure : σ → Nat}

/-- A failure further on is a failure on the way. -/
theorem Failed.after {start middle : σ} {raised : ε} (reached : Reached visit due start middle)
    (failed : Failed visit due middle raised)
    : Failed visit due start raised := by
  obtain ⟨state, item, later, dueThere, error⟩ := failed
  exact ⟨state, item, reached.trans later, dueThere, error⟩

theorem Reached.invariant {property : σ → Prop}
    (kept : ∀ state item next, property state → due state item → visit state item = .ok next →
      property next)
    {start stop : σ} (reached : Reached visit due start stop) (holds : property start)
    : property stop := by
  induction reached with
  | refl => exact holds
  | tail _ last ih =>
    obtain ⟨item, dueThere, visited⟩ := last
    exact kept _ item _ ih dueThere visited

/-- A page of due items is visited to its end, or a visit fails, by induction over the page.
Only a page with an item has to lower the measure.
-/
theorem Lowers.visitAll (lowers : Lowers page visit due apart measure) {items : List ι}
    {start : σ} (dueItems : ∀ item ∈ items, due start item) (apartItems : items.Pairwise apart)
    : (∃ stop, visitAll visit items start = .ok stop ∧ Reached visit due start stop
        ∧ (items ≠ [] → measure stop < measure start))
      ∨ ∃ raised, visitAll visit items start = .error raised
        ∧ Failed visit due start raised := by
  induction items generalizing start with
  | nil => exact .inl ⟨start, rfl, .refl, by simp⟩
  | cons item items ih =>
    have dueFirst := dueItems item List.mem_cons_self
    obtain ⟨apartFirst, apartRest⟩ := List.pairwise_cons.mp apartItems
    cases visited : visit start item with
    | error raised =>
      refine .inr ⟨raised, by simp [Drains.visitAll, visited], start, item, .refl, dueFirst,
        visited⟩
    | ok middle =>
      have less := lowers.lowers start item middle dueFirst visited
      have first : Reached visit due start middle := .single ⟨item, dueFirst, visited⟩
      have dueRest : ∀ other ∈ items, due middle other := by
        intro other member
        exact lowers.waits start item middle other dueFirst visited
          (apartFirst other member) (dueItems other (List.mem_cons_of_mem _ member))
      rcases ih dueRest apartRest with finished | failed
      · obtain ⟨stop, rest, reached, lower⟩ := finished
        refine .inl ⟨stop, by simp [Drains.visitAll, visited, rest], first.trans reached, ?_⟩
        intro _
        by_cases empty : items = []
        · subst empty
          cases rest
          exact less
        · exact Nat.lt_trans (lower empty) less
      · obtain ⟨raised, rest, failed⟩ := failed
        exact .inr ⟨raised, by simp [Drains.visitAll, visited, rest], failed.after first⟩

/-- More fuel than the measure ends the loop: at an empty page, or by a failed visit. -/
theorem Lowers.drain (lowers : Lowers page visit due apart measure) {fuel : Nat} {start : σ}
    (enough : measure start < fuel)
    : (∃ stop, drain page visit fuel start = some (.ok stop) ∧ Reached visit due start stop
        ∧ page stop = [])
      ∨ ∃ raised, drain page visit fuel start = some (.error raised)
        ∧ Failed visit due start raised := by
  induction fuel generalizing start with
  | zero => omega
  | succ fuel ih =>
    by_cases empty : page start = []
    · exact .inl ⟨start, by simp [Drains.drain, empty], .refl, empty⟩
    · rcases lowers.visitAll (lowers.pageDue start) (lowers.pageApart start) with
        finished | failed
      · obtain ⟨middle, visited, reached, lower⟩ := finished
        have less := lower empty
        have enough' : measure middle < fuel := by omega
        rcases ih enough' with ended | failed
        · obtain ⟨stop, rest, later, last⟩ := ended
          exact .inl ⟨stop, by simp [Drains.drain, empty, visited, rest],
            reached.trans later, last⟩
        · obtain ⟨raised, rest, failed⟩ := failed
          exact .inr ⟨raised, by simp [Drains.drain, empty, visited, rest],
            failed.after reached⟩
      · obtain ⟨raised, visited, failed⟩ := failed
        exact .inr ⟨raised, by simp [Drains.drain, empty, visited], failed⟩

/-- More fuel changes nothing of a loop that ended. -/
theorem drain_mono {fuel more : Nat} {start : σ} {result : Except ε σ}
    (ended : drain page visit fuel start = some result) (le : fuel ≤ more)
    : drain page visit more start = some result := by
  induction fuel generalizing start more with
  | zero => cases ended
  | succ fuel ih =>
    obtain ⟨more, rfl⟩ : ∃ rest, more = rest + 1 := ⟨more - 1, by omega⟩
    rw [drain] at ended ⊢
    split at ended
    next empty => rw [if_pos empty, ended]
    next busy =>
      rw [if_neg busy]
      cases visited : visitAll visit (page start) start with
      | error raised =>
        rw [visited] at ended
        exact ended
      | ok next =>
        rw [visited] at ended
        exact ih ended (by omega)

end Library.Drains

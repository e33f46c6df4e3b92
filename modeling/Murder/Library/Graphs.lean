import Mathlib.Order.WellFoundedSet

/-! Cycles of a directed graph, as searches and sorts of it meet them. -/

namespace Library.Graphs

open Relation

variable {ν : Type} {edge : ν → ν → Prop}

/-- Some node reaches itself. -/
def Cyclic (edge : ν → ν → Prop) : Prop := ∃ node, TransGen edge node node

/-- Fewer edges close no more cycles. -/
theorem Cyclic.mono {fewer : ν → ν → Prop} (less : ∀ a b, fewer a b → edge a b)
    (cyclic : Cyclic fewer)
    : Cyclic edge := by
  obtain ⟨node, loop⟩ := cyclic
  exact ⟨node, TransGen.mono less node node loop⟩

/-- An edge whose target does not reach its source closes no cycle, by induction on the path. -/
theorem cycle_of_insert {more : ν → ν → Prop} {source target : ν}
    (open_ : ¬ReflTransGen edge target source)
    (added : ∀ a b, more a b → edge a b ∨ (a = source ∧ b = target)) {node : ν}
    (loop : TransGen more node node)
    : TransGen edge node node := by
  have onward : ∀ last, TransGen more node last → TransGen edge node last
      ∨ (ReflTransGen edge node source ∧ ReflTransGen edge target last) := by
    intro last path
    induction path with
    | single step =>
      rcases added _ _ step with old | ⟨rfl, rfl⟩
      · exact .inl (.single old)
      · exact .inr ⟨.refl, .refl⟩
    | tail _ step ih =>
      rcases added _ _ step with old | ⟨rfl, rfl⟩
      · exact ih.imp (fun before => before.tail old) (And.imp_right (fun rest => rest.tail old))
      · rcases ih with before | ⟨-, rest⟩
        · exact .inr ⟨before.to_reflTransGen, .refl⟩
        · exact absurd rest open_
  rcases onward node loop with old | ⟨toSource, fromTarget⟩
  · exact old
  · exact absurd (fromTarget.trans toSource) open_

/-- Nodes that a search is done with: their edges lead to such nodes and close no cycle. -/
structure Exhausted (edge : ν → ν → Prop) (done : ν → Prop) : Prop where
  closed : ∀ a b, done a → edge a b → done b
  acyclic : ∀ a, done a → ¬TransGen edge a a

theorem Exhausted.empty : Exhausted edge (fun _ => False) :=
  ⟨fun _ _ none_ => none_.elim, fun _ none_ => none_.elim⟩

/-- Nothing outside is reached from a exhausted node, by induction on the path. -/
theorem Exhausted.reaches {done : ν → Prop} (exhausted : Exhausted edge done) {a b : ν}
    (path : TransGen edge a b) (start : done a)
    : done b := by
  induction path with
  | single step => exact exhausted.closed _ _ start step
  | tail _ step ih => exact exhausted.closed _ _ ih step

theorem Exhausted.insert {done : ν → Prop} (exhausted : Exhausted edge done) {node : ν}
    (fresh : ¬done node) (leads : ∀ b, edge node b → done b)
    : Exhausted edge (fun a => a = node ∨ done a) where
  closed a b known step := by
    rcases known with rfl | known
    · exact .inr (leads b step)
    · exact .inr (exhausted.closed a b known step)
  acyclic a known loop := by
    rcases known with rfl | known
    · obtain ⟨b, first, rest⟩ := TransGen.head'_iff.mp loop
      have exhaustedNext := leads b first
      rcases reflTransGen_iff_eq_or_transGen.mp rest with same | path
      · exact fresh (same ▸ exhaustedNext)
      · exact fresh (exhausted.reaches path exhaustedNext)
    · exact exhausted.acyclic a known loop

/-- A finite set of nodes of an acyclic graph has one without an edge into the set. -/
theorem exists_free_of_acyclic {nodes : Set ν} (acyclic : ¬Cyclic edge) (finite : nodes.Finite)
    (some_ : nodes.Nonempty)
    : ∃ node ∈ nodes, ∀ other ∈ nodes, ¬edge node other := by
  have strict : IsStrictOrder ν (fun a b => TransGen edge b a) := {
    irrefl := fun a loop => acyclic ⟨a, loop⟩
    trans := fun _ _ _ first second => second.trans first
  }
  have founded : nodes.WellFoundedOn (fun a b => TransGen edge b a) := finite.wellFoundedOn
  have inhabited : Nonempty nodes := some_.to_subtype
  obtain ⟨node, -, least⟩ := founded.has_min Set.univ Set.univ_nonempty
  exact ⟨node.1, node.2, fun other among step => least ⟨other, among⟩ trivial (.single step)⟩

end Library.Graphs

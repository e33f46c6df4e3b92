import Mathlib.Data.List.Count
import Mathlib.Logic.Relation

/-! Depth-first search of a graph of finitely many edges, with a stack of nodes to visit. -/

namespace Library.Searches

open Relation

variable {ν : Type} [DecidableEq ν] {edges : List (ν × ν)} {goal node : ν} {seen stack : List ν}

def leadsTo (edges : List (ν × ν)) (node : ν) : List ν :=
  (edges.filter (fun edge => edge.1 = node)).map Prod.snd

/-- Visit the stack, top first, until it is empty or the goal is on top; `none` when the fuel
runs out.
-/
def search (edges : List (ν × ν)) (goal : ν) : Nat → List ν → List ν → Option Bool
  | 0, _, _ => none
  | _ + 1, _, [] => some false
  | fuel + 1, seen, node :: stack =>
    if node = goal then some true
    else if node ∈ seen then search edges goal fuel seen stack
    else search edges goal fuel (node :: seen) ((leadsTo edges node).reverse ++ stack)

def Reaches (edges : List (ν × ν)) : ν → ν → Prop :=
  ReflTransGen (fun source target => (source, target) ∈ edges)

/-- The edges whose targets are not on the stack yet. -/
def unexplored (edges : List (ν × ν)) (seen : List ν) : Nat :=
  edges.countP (fun edge => edge.1 ∉ seen)

theorem mem_leadsTo {target : ν} : target ∈ leadsTo edges node ↔ (node, target) ∈ edges := by
  simp [leadsTo]

theorem unexplored_cons (fresh : node ∉ seen)
    : unexplored edges (node :: seen) + (leadsTo edges node).length = unexplored edges seen := by
  unfold unexplored leadsTo
  rw [List.length_map, ← List.countP_eq_length_filter]
  induction edges with
  | nil => rfl
  | cons edge rest ih =>
    rw [List.countP_cons, List.countP_cons, List.countP_cons, ← ih]
    by_cases here : edge.1 = node
    · simp [here, fresh]
      omega
    · by_cases known : edge.1 ∈ seen
      · simp [here, known]
      · simp [here, known]
        omega

/-- A path to the goal leaves the nodes that were seen over the stack. -/
theorem exists_on_stack {start : ν}
    (closed : ∀ a ∈ seen, ∀ b, (a, b) ∈ edges → b ∈ seen ∨ b ∈ stack) (missed : goal ∉ seen)
    (path : Reaches edges start goal) (known : start ∈ seen)
    : ∃ other ∈ stack, other ∉ seen ∧ Reaches edges other goal := by
  induction path using ReflTransGen.head_induction_on with
  | refl => exact absurd known missed
  | @head a b step rest ih =>
    by_cases inside : b ∈ seen
    · exact ih inside
    · rcases closed a known b step with seen_ | waiting
      · exact absurd seen_ inside
      · exact ⟨b, waiting, inside, rest⟩

/-- With fuel for every edge the search ends, and finds the goal exactly if the stack reaches
it, by induction on the fuel.
-/
theorem search_eq {fuel : Nat} (enough : stack.length + unexplored edges seen < fuel)
    (closed : ∀ a ∈ seen, ∀ b, (a, b) ∈ edges → b ∈ seen ∨ b ∈ stack) (missed : goal ∉ seen)
    : ∃ found, search edges goal fuel seen stack = some found
        ∧ (found = true ↔ ∃ start ∈ stack, Reaches edges start goal) := by
  induction fuel generalizing seen stack with
  | zero => omega
  | succ fuel ih =>
    cases stack with
    | nil => exact ⟨false, rfl, by simp⟩
    | cons node stack =>
      rw [search]
      by_cases here : node = goal
      · rw [if_pos here]
        exact ⟨true, rfl, iff_of_true rfl ⟨node, List.mem_cons_self, here ▸ .refl⟩⟩
      rw [if_neg here]
      by_cases known : node ∈ seen
      · have rest : ∀ a ∈ seen, ∀ b, (a, b) ∈ edges → b ∈ seen ∨ b ∈ stack := by
          intro a member b step
          rcases closed a member b step with old | waiting
          · exact .inl old
          · rcases List.mem_cons.mp waiting with rfl | later
            · exact .inl known
            · exact .inr later
        obtain ⟨found, ends, finds⟩ := ih (by simp at enough; omega) rest missed
        refine ⟨found, by rw [if_pos known, ends], finds.trans ⟨?_, ?_⟩⟩
        · intro ⟨start, member, path⟩
          exact ⟨start, List.mem_cons_of_mem _ member, path⟩
        · intro ⟨start, member, path⟩
          rcases List.mem_cons.mp member with rfl | later
          · obtain ⟨other, waiting, -, onward⟩ := exists_on_stack rest missed path known
            exact ⟨other, waiting, onward⟩
          · exact ⟨start, later, path⟩
      · have cost := @unexplored_cons ν _ edges node seen known
        obtain ⟨found, ends, finds⟩ := @ih (node :: seen) ((leadsTo edges node).reverse ++ stack)
          (by simp at enough ⊢; omega)
          (by
            intro a member b step
            rcases List.mem_cons.mp member with rfl | old
            · exact .inr (List.mem_append_left _ (List.mem_reverse.mpr (mem_leadsTo.mpr step)))
            · rcases closed a old b step with still | waiting
              · exact .inl (List.mem_cons_of_mem _ still)
              · rcases List.mem_cons.mp waiting with rfl | later
                · exact .inl List.mem_cons_self
                · exact .inr (List.mem_append_right _ later))
          (by simp [missed, Ne.symm here])
        refine ⟨found, by rw [if_neg known, ends], finds.trans ⟨?_, ?_⟩⟩
        · intro ⟨start, member, path⟩
          rcases List.mem_append.mp member with next | later
          · have step := mem_leadsTo.mp (List.mem_reverse.mp next)
            exact ⟨node, List.mem_cons_self, .head step path⟩
          · exact ⟨start, List.mem_cons_of_mem _ later, path⟩
        · intro ⟨start, member, path⟩
          rcases List.mem_cons.mp member with rfl | later
          · rcases ReflTransGen.cases_head path with same | ⟨next, step, rest⟩
            · exact absurd same here
            · refine ⟨next, List.mem_append_left _ ?_, rest⟩
              exact List.mem_reverse.mpr (mem_leadsTo.mpr step)
          · exact ⟨start, List.mem_append_right _ later, path⟩

/-- Whether a search that begins at a node, with fuel for every edge, finds the goal. -/
def reaches (edges : List (ν × ν)) (start goal : ν) : Bool :=
  search edges goal (edges.length + 2) [] [start] = some true

theorem reaches_iff {start : ν} : reaches edges start goal = true ↔ Reaches edges start goal := by
  have least : unexplored edges [] ≤ edges.length := List.countP_le_length
  obtain ⟨found, ends, finds⟩ := @search_eq ν _ edges goal [] [start] (edges.length + 2)
    (by simp only [List.length_singleton]; omega) (by simp) (by simp)
  rw [reaches, ends]
  simpa using finds

end Library.Searches

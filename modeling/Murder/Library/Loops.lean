import Mathlib.Data.Nat.Init

/-! Sweeps over a list of elements, repeated while one of them changes something.
A visit reads and replaces a state, reports whether it changed it, and may fail.
-/

namespace Library.Loops

variable {ε σ α : Type}

/-- Visit the elements in order, and report whether a visit changed the state. -/
def sweep (visit : σ → α → Except ε (σ × Bool)) (state : σ) : List α → Except ε (σ × Bool)
  | [] => .ok (state, false)
  | element :: rest => do
      let (next, here) ← visit state element
      let (final, later) ← sweep visit next rest
      .ok (final, here || later)

/-- `while changed`, bounded by a number of rounds. -/
def whileChanged (round : σ → Except ε (σ × Bool)) : Nat → σ → Except ε σ
  | 0, state => .ok state
  | bound + 1, state => do
      let (next, changed) ← round state
      if changed then whileChanged round bound next else .ok next

/-- `while changed` without a bound: where the loop ends, when it does. -/
inductive Ends (round : σ → Except ε (σ × Bool)) : σ → σ → Prop
  | still {state stop} (last : round state = .ok (stop, false)) : Ends round state stop
  | again {state next stop} (first : round state = .ok (next, true))
    (rest : Ends round next stop) : Ends round state stop

variable {visit : σ → α → Except ε (σ × Bool)} {round : σ → Except ε (σ × Bool)}

/-- A test that holds less often over a list counts fewer elements, by induction. -/
theorem countP_lt_countP {weak strong : α → Bool} {elements : List α}
    (weaken : ∀ element ∈ elements, strong element = true → weak element = true)
    {element : α} (member : element ∈ elements) (holds : weak element = true)
    (fails : strong element = false)
    : elements.countP strong < elements.countP weak := by
  induction elements with
  | nil => simp at member
  | cons head rest ih =>
    have fewer : rest.countP strong ≤ rest.countP weak :=
      List.countP_mono_left (fun other listed => weaken other (by simp [listed]))
    rcases List.mem_cons.mp member with rfl | member
    · simp only [List.countP_cons, holds, fails]
      simp
      omega
    · have less := ih (fun other listed => weaken other (by simp [listed])) member
      have first := weaken head (by simp)
      simp only [List.countP_cons]
      by_cases here : strong head = true
      · simp only [here, first here]
        omega
      · simp only [here]
        by_cases there : weak head = true <;> simp [there] <;> omega

/-- Every visit of a listed element in a good state succeeds and leaves a good state;
a visit that reports a change lowers the measure, and one that does not changes nothing.
-/
structure Progresses (visit : σ → α → Except ε (σ × Bool)) (elements : List α)
    (good : σ → Prop) (measure : σ → Nat) : Prop where
  total
    : ∀ state element, good state → element ∈ elements
        → ∃ next changed, visit state element = .ok (next, changed)
  kept
    : ∀ state element next changed, good state → element ∈ elements
        → visit state element = .ok (next, changed) → good next
  unchanged
    : ∀ state element next, good state → element ∈ elements
        → visit state element = .ok (next, false) → next = state
  lowers
    : ∀ state element next, good state → element ∈ elements
        → visit state element = .ok (next, true) → measure next < measure state

theorem Progresses.tail {element : α} {rest : List α} {good : σ → Prop} {measure : σ → Nat}
    (progresses : Progresses visit (element :: rest) good measure)
    : Progresses visit rest good measure where
  total := fun state other holds member =>
    progresses.total state other holds (List.mem_cons_of_mem _ member)
  kept := fun state other next changed holds member =>
    progresses.kept state other next changed holds (List.mem_cons_of_mem _ member)
  unchanged := fun state other next holds member =>
    progresses.unchanged state other next holds (List.mem_cons_of_mem _ member)
  lowers := fun state other next holds member =>
    progresses.lowers state other next holds (List.mem_cons_of_mem _ member)

/-- What a sweep leaves: without a change every element was visited in the same state. -/
structure Swept (visit : σ → α → Except ε (σ × Bool)) (elements : List α)
    (measure : σ → Nat) (state next : σ) (changed : Bool) : Prop where
  unchanged
    : changed = false
        → next = state ∧ ∀ element ∈ elements, visit state element = .ok (state, false)
  lowers : changed = true → measure next < measure state

/-- A sweep from a good state succeeds, by induction over the elements. -/
theorem sweep_swept {elements : List α} {good : σ → Prop} {measure : σ → Nat}
    (progresses : Progresses visit elements good measure) {state : σ} (holds : good state)
    : ∃ next changed,
        sweep visit state elements = .ok (next, changed)
          ∧ good next ∧ Swept visit elements measure state next changed := by
  induction elements generalizing state with
  | nil => exact ⟨state, false, rfl, holds, by simp, by simp⟩
  | cons element rest ih =>
    obtain ⟨middle, here, visited⟩ := progresses.total state element holds (by simp)
    have goodMiddle := progresses.kept state element middle here holds (by simp) visited
    obtain ⟨final, later, swept, goodFinal, effect⟩ := ih progresses.tail goodMiddle
    refine ⟨final, here || later, ?_, goodFinal, ?_, ?_⟩
    · simp only [sweep, visited, swept, bind, Except.bind]
    · intro still
      obtain ⟨hereStill, laterStill⟩ := Bool.or_eq_false_iff.mp still
      subst hereStill
      have same := progresses.unchanged state element middle holds (by simp) visited
      subst same
      obtain ⟨finalSame, restStill⟩ := effect.unchanged laterStill
      refine ⟨finalSame, ?_⟩
      intro other member
      rcases List.mem_cons.mp member with rfl | member
      · exact visited
      · exact restStill other member
    · intro changed
      have first : measure middle ≤ measure state := by
        cases here with
        | false =>
          have same := progresses.unchanged state element middle holds (by simp) visited
          exact Nat.le_of_eq (congrArg measure same)
        | true =>
          have lower := progresses.lowers state element middle holds (by simp) visited
          omega
      cases later with
      | true =>
        have lower := effect.lowers rfl
        omega
      | false =>
        have finalSame := (effect.unchanged rfl).1
        have here : here = true := by simpa using changed
        subst here
        have lower := progresses.lowers state element middle holds (by simp) visited
        rw [finalSame]
        exact lower

/-- More rounds than the measure of a good state end the loop, in a good state that no
visit changes.
-/
theorem whileChanged_ends {elements : List α} {good : σ → Prop} {measure : σ → Nat}
    (progresses : Progresses visit elements good measure) {bound : Nat} {state : σ}
    (holds : good state) (enough : measure state < bound)
    : ∃ stop,
        whileChanged (sweep visit · elements) bound state = .ok stop
          ∧ Ends (sweep visit · elements) state stop
          ∧ good stop
          ∧ ∀ element ∈ elements, visit stop element = .ok (stop, false) := by
  induction bound generalizing state with
  | zero => omega
  | succ bound ih =>
    obtain ⟨next, changed, swept, goodNext, effect⟩ := sweep_swept progresses holds
    cases changed with
    | false =>
      obtain ⟨same, still⟩ := effect.unchanged rfl
      subst same
      refine ⟨next, ?_, .still swept, holds, still⟩
      simp [whileChanged, swept, bind, Except.bind]
    | true =>
      have lower := effect.lowers rfl
      obtain ⟨stop, rest, ends, goodStop, still⟩ := ih goodNext (by omega)
      refine ⟨stop, ?_, .again swept ends, goodStop, still⟩
      simpa [whileChanged, swept, bind, Except.bind] using rest

theorem sweep_keeps {elements : List α} {property : σ → Prop}
    (kept : ∀ state element next changed, element ∈ elements → property state
      → visit state element = .ok (next, changed) → property next)
    {state next : σ} {changed : Bool} (holds : property state)
    (h : sweep visit state elements = .ok (next, changed))
    : property next := by
  induction elements generalizing state changed with
  | nil =>
    cases h
    exact holds
  | cons element rest ih =>
    cases visited : visit state element with
    | error failure => simp [sweep, visited, bind, Except.bind] at h
    | ok result =>
      have middle := kept _ _ result.1 result.2 (by simp) holds visited
      cases remaining : sweep visit result.1 rest with
      | error failure => simp [sweep, visited, remaining, bind, Except.bind] at h
      | ok final =>
        simp only [sweep, visited, remaining, bind, Except.bind, Except.ok.injEq,
          Prod.mk.injEq] at h
        obtain ⟨same, -⟩ := h
        subst same
        have keptRest := fun state element next changed (member : element ∈ rest) =>
          kept state element next changed (List.mem_cons_of_mem _ member)
        exact ih keptRest middle remaining

/-- What every visit keeps, the loop keeps, by induction over its rounds. -/
theorem Ends.keeps {elements : List α} {property : σ → Prop}
    (kept : ∀ state element next changed, element ∈ elements → property state
      → visit state element = .ok (next, changed) → property next)
    {state stop : σ} (holds : property state)
    (h : Ends (sweep visit · elements) state stop)
    : property stop := by
  induction h with
  | still last => exact sweep_keeps kept holds last
  | again first _ ih => exact ih (sweep_keeps kept holds first)

end Library.Loops

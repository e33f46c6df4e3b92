import Murder.Library.Runs

/-! Histories of a reducer: runs that keep the state, the event and the decision of each step. -/

namespace Library.Histories

variable {σ ι δ : Type}

/-- What a reducer decides at an event, unless it raises, where the decision leads, and the
decisions behind which it is not asked again.
-/
structure Reducer (σ ι δ : Type) where
  decide : σ → ι → Option δ
  advance : σ → ι → δ → σ
  settles : δ → Bool

/-- One step: what it was taken from, at which event, and what was decided. -/
structure Entry (σ ι δ : Type) where
  before : σ
  event : ι
  decision : δ

/-- A state with the steps behind it. -/
structure History (σ ι δ : Type) where
  state : σ
  entries : List (Entry σ ι δ) := []

/-- No decision settled the state yet. -/
def History.open_ (reducer : Reducer σ ι δ) (history : History σ ι δ) : Bool :=
  history.entries.getLast?.all (fun entry => !reducer.settles entry.decision)

def Started (initial : σ → Prop) (history : History σ ι δ) : Prop :=
  initial history.state ∧ history.entries = []

/-- An open state takes an admitted event. -/
inductive Extended (reducer : Reducer σ ι δ) (admits : σ → ι → Prop)
    : History σ ι δ → ι → History σ ι δ → Prop
  | step {history event decision} (going : history.open_ reducer = true)
    (admitted : admits history.state event)
    (decided : reducer.decide history.state event = some decision)
    : Extended reducer admits history event {
        state := reducer.advance history.state event decision
        entries := history.entries ++ [⟨history.state, event, decision⟩] }

theorem concat_eq_append_cons {α : Type} {items before after : List α} {last item : α}
    : items ++ [last] = before ++ item :: after
      ↔ (after = [] ∧ items = before ∧ last = item)
        ∨ ∃ rest, after = rest ++ [last] ∧ items = before ++ item :: rest := by
  constructor
  · intro same
    rcases List.eq_nil_or_concat after with rfl | ⟨rest, end_, rfl⟩
    · exact .inl ⟨rfl, List.append_inj' same rfl |>.imp id List.head_eq_of_cons_eq⟩
    · have parts : items ++ [last] = (before ++ item :: rest) ++ [end_] := by
        simpa using same
      obtain ⟨front, ends⟩ := List.append_inj' parts rfl
      cases ends
      exact .inr ⟨rest, List.concat_eq_append, front⟩
  · intro parts
    rcases parts with ⟨rfl, rfl, rfl⟩ | ⟨rest, rfl, rfl⟩
    · rfl
    · simp

section Extended

variable {reducer : Reducer σ ι δ} {admits : σ → ι → Prop} {history next : History σ ι δ}
  {event : ι}

/-- The step an event adds to a history. -/
theorem Extended.entry (step : Extended reducer admits history event next)
    : ∃ decision, reducer.decide history.state event = some decision
      ∧ admits history.state event
      ∧ next.state = reducer.advance history.state event decision
      ∧ next.entries = history.entries ++ [⟨history.state, event, decision⟩]
      ∧ history.open_ reducer = true := by
  cases step with
  | step going admitted decided => exact ⟨_, decided, admitted, rfl, rfl, going⟩

/-- What holds of every step in a history that grows by one more. -/
theorem forall_concat {property : Entry σ ι δ → Prop} {entries : List (Entry σ ι δ)}
    {last : Entry σ ι δ} (holds : ∀ entry ∈ entries, property entry)
    : (∀ entry ∈ entries ++ [last], property entry) ↔ property last := by
  simp only [List.mem_append, List.mem_singleton]
  constructor
  · intro all
    exact all last (.inr rfl)
  · intro latest entry member
    rcases member with earlier | rfl
    · exact holds entry earlier
    · exact latest

theorem open_concat {state : σ} {entries : List (Entry σ ι δ)} {last : Entry σ ι δ}
    : History.open_ reducer ⟨state, entries ++ [last]⟩ = true
      ↔ reducer.settles last.decision = false := by
  simp [History.open_]

end Extended

end Library.Histories

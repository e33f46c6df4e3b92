import Murder.Library.Runs
import Murder.Library.Transactions

/-! Calls of operations as the events of runs.
A call carries the clock reading and the fresh identifiers drawn for it, and an event is a
call with its outcome. Steps may check a guard or require that the clock never runs backwards.
-/

namespace Library.Calls

open Library.Runs Library.Transactions

/-- An operation with the clock reading and the identifiers drawn for it. -/
structure Call (ω τ υ : Type) where
  op : ω
  now : τ
  supply : υ

/-- A call and how it ended. -/
structure Event (ω τ υ ε ρ : Type) extends Call ω τ υ where
  outcome : Except ε ρ

/-- A store with the latest time anybody read. -/
structure Timed (σ τ : Type) where
  clock : τ
  db : σ

variable {σ ε ω ρ τ υ : Type} {exec : ω → υ → τ → Program σ ε ρ}

/-- An event takes the store where its call leaves it, with the outcome it had. -/
def Step (exec : ω → υ → τ → Program σ ε ρ) (start : σ) (event : Event ω τ υ ε ρ) (stop : σ)
    : Prop :=
  Transactions.outcome (exec event.op event.supply event.now start) = event.outcome
    ∧ final (exec event.op event.supply event.now start) = stop

def Call.event (exec : ω → υ → τ → Program σ ε ρ) (call : Call ω τ υ) (start : σ)
    : Event ω τ υ ε ρ :=
  { call with outcome := Transactions.outcome (exec call.op call.supply call.now start) }

theorem steps_of_call (exec : ω → υ → τ → Program σ ε ρ) (call : Call ω τ υ) (start : σ)
    : ∃ events,
        Steps (Step exec) start events (final (exec call.op call.supply call.now start)) :=
  ⟨[call.event exec start], .cons ⟨rfl, rfl⟩ (.nil _)⟩

theorem Step.related {relation : ω → τ → σ → σ → Prop}
    (related : ∀ op supply now, Relates (relation op now) (exec op supply now))
    {start stop : σ} {event : Event ω τ υ ε ρ} (h : Step exec start event stop)
    : relation event.op event.now start stop := by
  have ends := related event.op event.supply event.now start
  rwa [h.2] at ends

/-- An event whose call passes a check of the store it starts from. -/
structure GuardedStep (exec : ω → υ → τ → Program σ ε ρ) (guard : σ → Call ω τ υ → Bool)
    (start : σ) (event : Event ω τ υ ε ρ) (stop : σ) : Prop where
  step : Step exec start event stop
  passes : guard start event.toCall = true

section Clock

variable [LE τ]

/-- An event under a clock that never runs backwards. -/
structure TimedStep (Step : σ → Event ω τ υ ε ρ → σ → Prop) (start : Timed σ τ)
    (event : Event ω τ υ ε ρ) (stop : Timed σ τ) : Prop where
  forward : start.clock ≤ event.now
  clock : stop.clock = event.now
  step : Step start.db event stop.db

theorem unguarded {guard : σ → Call ω τ υ → Bool} {start stop : Timed σ τ}
    {events : List (Event ω τ υ ε ρ)}
    (h : Steps (TimedStep (GuardedStep exec guard)) start events stop)
    : Steps (TimedStep (Step exec)) start events stop :=
  h.imp (fun _ _ _ timed => ⟨timed.forward, timed.clock, timed.step.step⟩)

variable [DecidableLE τ]

def Call.after (exec : ω → υ → τ → Program σ ε ρ) (call : Call ω τ υ) (start : Timed σ τ)
    : Timed σ τ where
  clock := call.now
  db := final (exec call.op call.supply call.now start.db)

/-- Where a list of calls ends, if each comes no earlier than the one before and passes the
guard.
-/
def replay (exec : ω → υ → τ → Program σ ε ρ) (guard : σ → Call ω τ υ → Bool)
    : List (Call ω τ υ) → Timed σ τ → Option (Timed σ τ)
  | [], start => some start
  | call :: rest, start =>
    if start.clock ≤ call.now ∧ guard start.db call = true then
      replay exec guard rest (call.after exec start)
    else
      none

/-- A replay is a run of guarded steps, by induction over the calls. -/
theorem steps_of_replay {guard : σ → Call ω τ υ → Bool} {calls : List (Call ω τ υ)}
    {start stop : Timed σ τ} (h : replay exec guard calls start = some stop)
    : ∃ events, Steps (TimedStep (GuardedStep exec guard)) start events stop := by
  induction calls generalizing start with
  | nil =>
    cases h
    exact ⟨[], .nil stop⟩
  | cons call rest ih =>
    unfold replay at h
    split at h
    · next allowed =>
        obtain ⟨events, steps⟩ := ih h
        exact ⟨call.event exec start.db :: events,
          .cons ⟨allowed.1, rfl, ⟨rfl, rfl⟩, allowed.2⟩ steps⟩
    · cases h

/-- The calls pass the guard and end in a state that passes the check. -/
def reaches (exec : ω → υ → τ → Program σ ε ρ) (guard : σ → Call ω τ υ → Bool)
    (start : Timed σ τ) (calls : List (Call ω τ υ)) (check : Timed σ τ → Bool) : Bool :=
  (replay exec guard calls start).any check

theorem steps_of_reaches {guard : σ → Call ω τ υ → Bool} {start : Timed σ τ}
    {calls : List (Call ω τ υ)} {check : Timed σ τ → Bool}
    (h : reaches exec guard start calls check = true)
    : ∃ events state, Steps (TimedStep (GuardedStep exec guard)) start events state
        ∧ check state = true := by
  obtain ⟨state, ends, checked⟩ := (Option.any_eq_true _ _).mp h
  obtain ⟨events, steps⟩ := steps_of_replay ends
  exact ⟨events, state, steps, checked⟩

/-- Calls of which the first pass a guard and the second are free pass as a whole, by induction
over the first.
-/
theorem reaches_append {guard : σ → Call ω τ υ → Bool} {start : Timed σ τ}
    {first second : List (Call ω τ υ)} {between check : Timed σ τ → Bool}
    (h : reaches exec guard start first
      (fun state => between state && reaches exec (fun _ _ => true) state second check) = true)
    : reaches exec guard start first between = true
        ∧ reaches exec (fun _ _ => true) start (first ++ second) check = true := by
  induction first generalizing start with
  | nil => simpa [reaches, replay] using h
  | cons call rest ih =>
    rw [reaches, replay] at h
    split at h
    · next allowed =>
        unfold reaches
        rw [List.cons_append, replay, replay, if_pos allowed, if_pos ⟨allowed.1, rfl⟩]
        exact ih h
    · cases h

end Clock

end Library.Calls

import Mathlib.Order.Defs.Unbundled

/-! Finite runs of a labelled transition relation, and the rules that carry one-step facts
to whole runs.
-/

namespace Library.Runs

variable {σ ι : Type} {Init : σ → Prop} {Step : σ → ι → σ → Prop}

/-- `Steps Step start events stop` takes the listed events one after another. -/
inductive Steps (Step : σ → ι → σ → Prop) : σ → List ι → σ → Prop
  | nil (start) : Steps Step start [] start
  | cons {start middle stop event events} (first : Step start event middle)
    (rest : Steps Step middle events stop)
    : Steps Step start (event :: events) stop

def Run (Init : σ → Prop) (Step : σ → ι → σ → Prop) (events : List ι) (stop : σ) : Prop :=
  ∃ start, Init start ∧ Steps Step start events stop

/-- Two runs meeting in a state compose, by induction over the first. -/
theorem Steps.append {start middle stop : σ} {before after : List ι}
    (hb : Steps Step start before middle) (ha : Steps Step middle after stop)
    : Steps Step start (before ++ after) stop := by
  induction hb with
  | nil => exact ha
  | cons first _ ih => exact .cons first (ih ha)

theorem Steps.snoc {start middle stop : σ} {events : List ι} {event : ι}
    (h : Steps Step start events middle) (last : Step middle event stop)
    : Steps Step start (events ++ [event]) stop :=
  h.append (.cons last (.nil stop))

theorem Steps.invariant {property : σ → Prop}
    (kept : ∀ s event t, property s → Step s event t → property t)
    {start stop : σ} {events : List ι} (h : Steps Step start events stop)
    (holds : property start)
    : property stop := by
  induction h with
  | nil => exact holds
  | cons first _ ih => exact ih (kept _ _ _ holds first)

theorem Steps.related {relation : σ → σ → Prop} [IsPreorder σ relation]
    (obeyed : ∀ s event t, Step s event t → relation s t)
    {start stop : σ} {events : List ι} (h : Steps Step start events stop)
    : relation start stop := by
  induction h with
  | nil => exact refl_of relation _
  | cons first _ ih => exact trans_of relation (obeyed _ _ _ first) ih

/-- A run seen through a projection that takes steps to steps. -/
theorem Steps.map {τ : Type} {Step' : τ → ι → τ → Prop} (project : σ → τ)
    (steps : ∀ s event t, Step s event t → Step' (project s) event (project t))
    {start stop : σ} {events : List ι} (h : Steps Step start events stop)
    : Steps Step' (project start) events (project stop) := by
  induction h with
  | nil => exact .nil _
  | cons first _ ih => exact .cons (steps _ _ _ first) ih

/-- A stronger step relation takes every run of a weaker one. -/
theorem Steps.imp {Weaker : σ → ι → σ → Prop}
    (weaken : ∀ s event t, Step s event t → Weaker s event t)
    {start stop : σ} {events : List ι} (h : Steps Step start events stop)
    : Steps Weaker start events stop :=
  h.map id weaken

/-- The run a step function computes over a list of events. -/
def play (next : σ → ι → Option σ) : σ → List ι → Option σ
  | s, [] => some s
  | s, event :: events => (next s event).bind (fun t => play next t events)

/-- A computed run is a run, where the step function takes steps only. -/
theorem steps_of_play {next : σ → ι → Option σ}
    (steps : ∀ s event t, next s event = some t → Step s event t) {start stop : σ}
    {events : List ι} (played : play next start events = some stop)
    : Steps Step start events stop := by
  induction events generalizing start with
  | nil =>
    cases played
    exact .nil _
  | cons event events ih =>
    obtain ⟨middle, first, rest⟩ := Option.bind_eq_some_iff.mp played
    exact .cons (steps _ _ _ first) (ih rest)

/-- The invariant rule: what holds initially and is kept by every step holds after every
run.
-/
theorem Run.invariant {property : σ → Prop} (initial : ∀ s, Init s → property s)
    (kept : ∀ s event t, property s → Step s event t → property t)
    {events : List ι} {stop : σ} (h : Run Init Step events stop)
    : property stop := by
  obtain ⟨start, hi, hs⟩ := h
  exact hs.invariant kept (initial start hi)

/-- The history rule: what holds of a fresh state without a past, and is kept when a step
extends the past, holds after every run of its events.
-/
theorem Run.history {property : List ι → σ → Prop} (initial : ∀ s, Init s → property [] s)
    (kept : ∀ past s event t, property past s → Step s event t → property (past ++ [event]) t)
    {events : List ι} {stop : σ} (h : Run Init Step events stop)
    : property events stop := by
  obtain ⟨start, hi, hs⟩ := h
  have extended : ∀ past, property past start → property (past ++ events) stop := by
    clear hi
    induction hs with
    | nil => simp
    | @cons _ _ _ event rest first _ ih =>
      intro past holds
      have more := ih (past ++ [event]) (kept past _ event _ holds first)
      simpa using more
  exact extended [] (initial start hi)

/-- Two step relations that agree under an invariant of the first have the same runs. -/
theorem Run.iff_of_invariant {property : σ → Prop} {Other : σ → ι → σ → Prop}
    (initial : ∀ s, Init s → property s)
    (kept : ∀ s event t, property s → Step s event t → property t)
    (agree : ∀ s event t, property s → (Step s event t ↔ Other s event t))
    {events : List ι} {stop : σ}
    : Run Init Step events stop ↔ Run Init Other events stop := by
  have along : ∀ {start}, property start
      → (Steps Step start events stop ↔ Steps Other start events stop) := by
    intro start holds
    constructor
    · intro h
      induction h with
      | nil => exact .nil _
      | cons first _ ih =>
        exact .cons ((agree _ _ _ holds).mp first) (ih (kept _ _ _ holds first))
    · intro h
      induction h with
      | nil => exact .nil _
      | cons first _ ih =>
        have taken := (agree _ _ _ holds).mpr first
        exact .cons taken (ih (kept _ _ _ holds taken))
  constructor
  · intro ⟨start, fresh, h⟩
    exact ⟨start, fresh, (along (initial _ fresh)).mp h⟩
  · intro ⟨start, fresh, h⟩
    exact ⟨start, fresh, (along (initial _ fresh)).mpr h⟩

/-- A property that no step regains holds at the end of a run exactly when it holds behind
every step.
-/
theorem Run.lasting_iff {holds : σ → Prop} (initial : ∀ s, Init s → holds s)
    (lasting : ∀ s event t, Step s event t → holds t → holds s) {events : List ι} {stop : σ}
    (h : Run Init Step events stop)
    : holds stop ↔ Run Init (fun s event t => Step s event t ∧ holds t) events stop := by
  obtain ⟨start, fresh, steps⟩ := h
  constructor
  · intro ends
    have along : holds start
        ∧ Steps (fun s event t => Step s event t ∧ holds t) start events stop := by
      clear fresh
      induction steps with
      | nil => exact ⟨ends, .nil _⟩
      | cons first _ ih =>
        obtain ⟨middle, rest⟩ := ih ends
        exact ⟨lasting _ _ _ first middle, .cons ⟨first, middle⟩ rest⟩
    exact ⟨start, fresh, along.2⟩
  · intro ⟨_, fresh, steps⟩
    exact steps.invariant (fun _ _ _ _ step => step.2) (initial _ fresh)

/-- Where only unbroken states take a step, a run ends unbroken exactly when all its steps end
unbroken.
-/
theorem Run.unbroken_iff {holds : σ → Prop} (initial : ∀ s, Init s → holds s)
    (final : ∀ s event t, Step s event t → holds s) {events : List ι} {stop : σ}
    (h : Run Init Step events stop)
    : holds stop ↔ Run Init (fun s event t => Step s event t ∧ holds t) events stop :=
  h.lasting_iff initial (fun _ _ _ step _ => final _ _ _ step)

/-- A property that no step regains holds at the end of a run exactly when its steps are
careful, where an invariant says which steps keep it.
-/
theorem Run.careful_iff {holds inv : σ → Prop} {careful : σ → ι → Prop}
    (initial : ∀ s, Init s → holds s ∧ inv s)
    (lasting : ∀ s event t, Step s event t → holds t → holds s)
    (kept : ∀ s event t, inv s → Step s event t → inv t)
    (keeps : ∀ s event t, inv s → holds s → Step s event t → (holds t ↔ careful s event))
    {events : List ι} {stop : σ} (h : Run Init Step events stop)
    : holds stop
      ↔ Run Init (fun s event t => Step s event t ∧ careful s event) events stop := by
  rw [h.lasting_iff (fun s fresh => (initial s fresh).1) lasting]
  refine @Run.iff_of_invariant _ _ _ _ (fun s => holds s ∧ inv s) _ initial ?_ ?_ _ _
  · intro s event t sound step
    exact ⟨step.2, kept _ _ _ sound.2 step.1⟩
  · intro s event t sound
    exact and_congr_right (fun step => keeps _ _ _ sound.2 sound.1 step)

theorem Run.map {τ : Type} {Init' : τ → Prop} {Step' : τ → ι → τ → Prop} (project : σ → τ)
    (initial : ∀ s, Init s → Init' (project s))
    (steps : ∀ s event t, Step s event t → Step' (project s) event (project t))
    {events : List ι} {stop : σ} (h : Run Init Step events stop)
    : Run Init' Step' events (project stop) := by
  obtain ⟨start, hi, hs⟩ := h
  exact ⟨project start, initial start hi, hs.map project steps⟩

theorem Run.snoc {events : List ι} {event : ι} {middle stop : σ}
    (h : Run Init Step events middle) (last : Step middle event stop)
    : Run Init Step (events ++ [event]) stop := by
  obtain ⟨start, hi, hs⟩ := h
  exact ⟨start, hi, hs.snoc last⟩

end Library.Runs

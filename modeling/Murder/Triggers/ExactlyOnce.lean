import Murder.Triggers.FactOrder

/-! Exactly-once firing over every run of the dispatcher: each occurrence leaves one firing
with one action, and a fact trigger skips nothing.
-/

namespace Murder.Triggers

open Murder.Contracts Murder.Facts Murder.Storage Murder.Workflows Library Library.Runs
open Library.Tables

variable {store : TriggerDatabase} {trigger : TriggerRecord} {keys : List String}
  {next : Dispatcher}

section FactTrigger

variable [FactPayloadDump] {triggerId : Uuid} {factKind : String} {predicate : JsonObject}
  {first : Nat}

/-- The progress of a fact trigger, with what the tick holds of it. -/
def Delivers (triggerId : Uuid) (factKind : String) (predicate : JsonObject) (first : Nat)
    (state : Dispatcher) : Prop :=
  ∃ after, Progress triggerId factKind predicate first after state.store
    ∧ Pending triggerId factKind predicate after state.store state.phase

/-- Reading the occurrences of the trigger holds the facts right behind its cursor. -/
theorem held_occurrences {observed : Except Failure (List String)} {after : Nat}
    (spec : trigger.spec = .fact factKind predicate)
    (cursor : cursorSequence (getCursor store.tables trigger.triggerId) = some after)
    (occurs : occurrences store trigger observed = .ok keys)
    : Held factKind predicate after store keys := by
  unfold occurrences at occurs
  rw [spec] at occurs
  simp only [cursor, Except.ok.injEq] at occurs
  exact ⟨_, List.take_prefix _ _, occurs.symm⟩

/-- A cursor move steps over the next fact, which does not match. -/
theorem Delivers.skip {tick : Tick} {key : String} {rest : List TriggerRecord}
    (delivers : Delivers triggerId factKind predicate first
      { store := store, phase := .working tick trigger (key :: keys) rest })
    (ordered : FactsOrdered store.base) (move : isCursorKey key = true)
    : Delivers triggerId factKind predicate first
        {
          store := setCursor trigger.triggerId (cursorText key) tick.now store
          phase := .working tick trigger keys rest
        } := by
  obtain ⟨after, progress, pending⟩ := delivers
  have unfired := setCursor_unfired trigger.triggerId (cursorText key) tick.now store
  by_cases owner : trigger.triggerId = triggerId
  · obtain ⟨facts, held, same⟩ := pending owner
    cases facts with
    | nil => cases same
    | cons fact facts =>
      obtain ⟨rfl, rfl⟩ := List.cons.inj same
      obtain ⟨misses, text⟩ := factKey_move move
      obtain ⟨others, next, behind⟩ := laterOfKind_next ordered held
      refine ⟨fact.sequence, progress.move ordered next ?_ (setCursor_base _ _ _ _) ?_ ?_, ?_⟩
      · intro matching
        rw [misses] at matching
        cases matching
      · rw [owner, getCursor_setCursor, text]
      · exact unfired.firedKeys
      · intro _
        refine ⟨facts, ?_, rfl⟩
        rw [setCursor_base]
        exact behind
  · refine ⟨after, progress.unfired unfired (getCursor_setCursor_other owner _ _ _), ?_⟩
    exact fun same => absurd same owner

theorem Delivers.fire {stop : TriggerDatabase} {tick : Tick}
    {key : String} {rest : List TriggerRecord} {firing : TriggerFiringRecord}
    (delivers : Delivers triggerId factKind predicate first
      { store := store, phase := .working tick trigger (key :: keys) rest })
    (ordered : FactsOrdered store.base) (occurrence : isCursorKey key = false)
    (fired : Fired trigger.triggerId key firing store stop)
    : Delivers triggerId factKind predicate first
        { store := stop, phase := .waking tick trigger key keys rest firing.workflowId } := by
  obtain ⟨after, progress, pending⟩ := delivers
  have keys_ : firedKeys stop triggerId = firedKeys store triggerId
      ++ if trigger.triggerId = triggerId then [key] else [] :=
    fired.firedKeys
  have cursor : getCursor stop.tables triggerId = getCursor store.tables triggerId := by
    unfold getCursor
    rw [fired.cursors]
  by_cases owner : trigger.triggerId = triggerId
  · obtain ⟨facts, held, same⟩ := pending owner
    cases facts with
    | nil => cases same
    | cons fact facts =>
      obtain ⟨rfl, rfl⟩ := List.cons.inj same
      obtain ⟨matching, named⟩ := factKey_occurrence occurrence
      obtain ⟨others, next, -⟩ := laterOfKind_next ordered held
      have fresh := findFiring_none fired.fresh
      rw [owner, named] at fresh
      rw [if_pos owner, named] at keys_
      refine ⟨after, progress.grow fired.grows cursor ?_ ?_, ?_⟩
      · rw [keys_]
        exact List.prefix_append _ _
      · rw [keys_]
        exact progress.fresh_due ordered next matching fresh
      · intro _
        refine ⟨fact, facts, held.trans (fired.grows.later_prefix after), named, ?_, rfl⟩
        rw [keys_, named]
        simp
  · rw [if_neg owner, List.append_nil] at keys_
    refine ⟨after, progress.grow fired.grows cursor ?_ ?_, fun same => absurd same owner⟩
    · rw [keys_]
    · rw [keys_]
      exact progress.due

/-- The cursor follows the key in hand, which is fired. -/
theorem Delivers.move {store : TriggerDatabase} {tick : Tick} {trigger : TriggerRecord}
    {key : String} {keys : List String} {rest : List TriggerRecord} {phase : Phase}
    (delivers : Delivers triggerId factKind predicate first
      { store := store, phase := .moving tick trigger key keys rest })
    (ordered : FactsOrdered store.base)
    (stops : phase = .idle ∨ ∃ tick, phase = .working tick trigger keys rest)
    : Delivers triggerId factKind predicate first
        { store := setCursor trigger.triggerId key tick.now store, phase := phase } := by
  obtain ⟨after, progress, pending⟩ := delivers
  have unfired := setCursor_unfired trigger.triggerId key tick.now store
  by_cases owner : trigger.triggerId = triggerId
  · obtain ⟨fact, facts, held, rfl, fired, rfl⟩ := pending owner
    obtain ⟨others, next, behind⟩ := laterOfKind_next ordered held
    refine ⟨fact.sequence, progress.move ordered next (fun _ => fired) (setCursor_base _ _ _ _)
      ?_ unfired.firedKeys, ?_⟩
    · rw [owner, getCursor_setCursor]
    · rcases stops with rfl | ⟨tick, rfl⟩
      · trivial
      · intro _
        refine ⟨facts, ?_, rfl⟩
        rw [setCursor_base]
        exact behind
  · refine ⟨after, progress.unfired unfired (getCursor_setCursor_other owner _ _ _), ?_⟩
    rcases stops with rfl | ⟨tick, rfl⟩
    · trivial
    · exact fun same => absurd same owner

/-- Every step of a tick keeps the progress of a fact trigger. -/
theorem Delivers.advanced {phase : Phase}
    (delivers : Delivers triggerId factKind predicate first { store := store, phase := phase })
    (ordered : FactsOrdered store.base)
    (spec
      : ∀ trigger ∈ phase.triggers,
          trigger.triggerId = triggerId → trigger.spec = .fact factKind predicate)
    (windows : ∀ trigger ∈ store.tables.triggers, trigger.dedupWindowSeconds = 0)
    (advances : Advances store phase next)
    : Delivers triggerId factKind predicate first next := by
  cases advances with
  | settled fewer still resting =>
    obtain ⟨after, progress, -⟩ := delivers
    refine ⟨after, progress, pending_of_resting ?_⟩
    rcases resting with rfl | ⟨tick, rest, rfl, -⟩
    · exact .inl rfl
    · exact .inr ⟨tick, rest, rfl⟩
  | read occurs =>
    obtain ⟨after, progress, -⟩ := delivers
    refine ⟨after, progress, fun owner => ?_⟩
    have cursor := progress.cursor
    rw [← owner] at cursor
    exact held_occurrences (spec _ (by simp [Phase.triggers]) owner) cursor occurs
  | skipped move => exact delivers.skip ordered move
  | repeated occurrence unfired =>
    obtain ⟨after, progress, pending⟩ := delivers
    refine ⟨after, progress, fun owner => ?_⟩
    obtain ⟨facts, held, same⟩ := pending owner
    rcases unfired with ⟨firing, found⟩ | ⟨other, member, windowed⟩
    case inr => exact absurd (windows other member) windowed
    cases facts with
    | nil => cases same
    | cons fact facts =>
      obtain ⟨rfl, rfl⟩ := List.cons.inj same
      have fired := findFiring_some found
      rw [owner] at fired
      exact ⟨fact, facts, held, (factKey_occurrence occurrence).2, fired, rfl⟩
  | fired occurrence fired stamped => exact delivers.fire ordered occurrence fired
  | woke outside =>
    obtain ⟨after, progress, pending⟩ := delivers
    refine ⟨after, progress.unfired ⟨rfl, rfl, outside⟩ rfl, ?_⟩
    exact pending.grow outside.facts (List.prefix_refl _)
  | moved stops =>
    refine delivers.move ordered ?_
    rcases stops with rfl | ⟨later, -, rfl⟩
    · exact .inl rfl
    · exact .inr ⟨later, rfl⟩

end FactTrigger

/-- A database before any trigger fired: no window suppresses an occurrence, and the facts are
numbered in order.
-/
structure Fresh (store : TriggerDatabase) : Prop where
  windows : ∀ trigger ∈ store.tables.triggers, trigger.dedupWindowSeconds = 0
  firings : store.tables.firings.rows = []
  started : startedByTriggers store.base = []
  ordered : FactsOrdered store.base

/-- What every step of the dispatcher and of anybody else keeps. -/
structure Sound (triggers : List TriggerRecord) (state : Dispatcher) : Prop where
  registered : registered state.store = triggers
  ledger : Ledger state.store
  ordered : FactsOrdered state.store.base
  known : ∀ trigger ∈ state.phase.triggers, trigger.unmarked ∈ triggers

theorem Fresh.sound (fresh : Fresh store)
    : Sound (registered store) { store := store } := by
  refine ⟨rfl, ⟨?_, ?_, ?_⟩, fresh.ordered, by simp [Phase.triggers]⟩
  · intro trigger member
    obtain ⟨row, stored, rfl⟩ := List.mem_map.mp member
    exact fresh.windows row stored
  · rw [fresh.started, Table.select, fresh.firings]
    rfl
  · intro firing member
    rw [Table.mem_def, fresh.firings] at member
    cases member

theorem Unfired.sound {triggers : List TriggerRecord} {start stop : Dispatcher}
    (sound : Sound triggers start) (unfired : Unfired start.store stop.store)
    (fewer : ∀ trigger ∈ stop.phase.triggers, trigger.unmarked ∈ triggers)
    : Sound triggers stop :=
  ⟨unfired.registered.trans sound.registered, unfired.ledger sound.ledger,
    unfired.outside.facts.ordered sound.ordered, fewer⟩

theorem Sound.windows {triggers : List TriggerRecord} {state : Dispatcher}
    (sound : Sound triggers state)
    : ∀ trigger ∈ state.store.tables.triggers, trigger.dedupWindowSeconds = 0 := by
  intro trigger stored
  exact sound.ledger.windows trigger.unmarked (mem_registered stored)

theorem listTriggers_registered (member : trigger ∈ listTriggers store.tables)
    : trigger.unmarked ∈ registered store := by
  unfold listTriggers at member
  rw [List.mem_insertionSort, Table.mem_select] at member
  exact mem_registered member.1

section Runs

variable [FactPayloadDump]

theorem Advances.triggers {phase : Phase} (advances : Advances store phase next)
    : next.phase.triggers ⊆ phase.triggers := by
  cases advances with
  | settled fewer still resting => exact fewer
  | moved stops =>
    rcases stops with rfl | ⟨tick, -, rfl⟩
    · exact List.nil_subset _
    · exact List.Subset.refl _
  | _ => exact List.Subset.refl _

/-- Every step of a tick fires one occurrence or none. -/
theorem Advances.fires {phase : Phase} (advances : Advances store phase next)
    : Unfired store next.store
      ∨ ∃ triggerId key firing, Fired triggerId key firing store next.store := by
  cases advances with
  | skipped move => exact .inl (setCursor_unfired _ _ _ _)
  | moved stops => exact .inl (setCursor_unfired _ _ _ _)
  | fired occurrence fired stamped => exact .inr ⟨_, _, _, fired⟩
  | woke outside => exact .inl ⟨rfl, rfl, outside⟩
  | _ => exact .inl ⟨rfl, rfl, Outside.refl _⟩

theorem Sound.advanced {triggers : List TriggerRecord} {state : Dispatcher}
    (sound : Sound triggers state) (advances : Advances state.store state.phase next)
    : Sound triggers next := by
  have fewer : ∀ trigger ∈ next.phase.triggers, trigger.unmarked ∈ triggers :=
    fun trigger member => sound.known trigger (advances.triggers member)
  rcases advances.fires with unfired | ⟨triggerId, key, firing, fired⟩
  · exact unfired.sound sound fewer
  · exact ⟨fired.registered.trans sound.registered, fired.ledger sound.ledger,
      fired.grows.ordered sound.ordered, fewer⟩

theorem Fresh.delivers (fresh : Fresh store) {triggerId : Uuid}
    {factKind : String} {predicate : JsonObject} {first : Nat}
    (cursor : cursorSequence (getCursor store.tables triggerId) = some first)
    : Delivers triggerId factKind predicate first { store := store } := by
  have nothing : firedKeys store triggerId = [] := by
    rw [firedKeys, Table.select, fresh.firings]
    rfl
  refine ⟨first, ⟨cursor, Nat.le_refl _, .inl rfl, ?_, ?_⟩, trivial⟩
  · rw [nothing]
    exact List.nil_prefix
  · have empty : passed store.base factKind predicate first first = [] := by
      refine List.filter_eq_nil_iff.mpr (fun fact _ => ?_)
      simp only [Bool.and_eq_true, decide_eq_true_eq, not_and]
      omega
    rw [empty]
    exact Nat.zero_le _

variable [FactPayloadAdapter] {resolver : WorkflowMachineResolver}

theorem Sound.step {triggers : List TriggerRecord} {state next : Dispatcher}
    {event : DispatchEvent} (sound : Sound triggers state)
    (step : DispatchStep resolver state event next)
    : Sound triggers next := by
  cases step with
  | tick now limit idle =>
    refine ⟨sound.registered, sound.ledger, sound.ordered, fun trigger member => ?_⟩
    rw [← sound.registered]
    exact listTriggers_registered member
  | advance draw => exact sound.advanced (advance_advances resolver draw state)
  | crash => exact ⟨sound.registered, sound.ledger, sound.ordered, by simp [Phase.triggers]⟩
  | outside base pending outside =>
    exact Unfired.sound sound ⟨rfl, rfl, outside⟩ sound.known

/-- Every step keeps the progress of every registered fact trigger. -/
theorem Delivers.step {triggers : List TriggerRecord} {trigger : TriggerRecord}
    {factKind : String} {predicate : JsonObject} {first : Nat} {state next : Dispatcher}
    {event : DispatchEvent} (sound : Sound triggers state)
    (known : trigger.unmarked ∈ triggers) (spec : trigger.spec = .fact factKind predicate)
    (delivers : Delivers trigger.triggerId factKind predicate first state)
    (step : DispatchStep resolver state event next)
    : Delivers trigger.triggerId factKind predicate first next := by
  cases step with
  | tick now limit idle =>
    obtain ⟨after, progress, -⟩ := delivers
    exact ⟨after, progress, trivial⟩
  | advance draw =>
    refine delivers.advanced sound.ordered (fun other member same => ?_)
      sound.windows (advance_advances resolver draw state)
    have held := sound.known other member
    rw [← sound.registered] at held known
    have equal := congrArg TriggerRecord.spec (registered_unique held known same)
    exact equal.trans spec
  | crash =>
    obtain ⟨after, progress, -⟩ := delivers
    exact ⟨after, progress, trivial⟩
  | outside base pending outside =>
    obtain ⟨after, progress, held⟩ := delivers
    refine ⟨after, progress.unfired ⟨rfl, rfl, outside⟩ rfl, ?_⟩
    exact held.grow outside.facts (List.prefix_refl _)

/-- A run keeps the progress of a fact trigger, by induction over its steps. -/
theorem Delivers.run {triggers : List TriggerRecord} {trigger : TriggerRecord}
    {factKind : String} {predicate : JsonObject} {first : Nat} {state stop : Dispatcher}
    {events : List DispatchEvent}
    (delivers : Delivers trigger.triggerId factKind predicate first state)
    (sound : Sound triggers state) (known : trigger.unmarked ∈ triggers)
    (spec : trigger.spec = .fact factKind predicate)
    (run : Steps (DispatchStep resolver) state events stop)
    : Delivers trigger.triggerId factKind predicate first stop := by
  induction run with
  | nil => exact delivers
  | cons step _ ih => exact ih (delivers.step sound known spec step) (sound.step step)

/-- Every occurrence fired once with one action: the started workflows are those of the
firings, each other firing has one signal, and a fact trigger fired the matching facts behind
its starting cursor in order, skipping none.
-/
structure FiredOnce (start stop : TriggerDatabase) : Prop where
  once
    : ∀ firing ∈ stop.tables.firings,
        ∀ other ∈ stop.tables.firings,
          firing.triggerId = other.triggerId
          → firing.occurrenceKey = other.occurrenceKey
          → firing = other
  started
    : startedByTriggers stop.base
      = (stop.tables.firings.select (startsWorkflow (registered stop))).map
          TriggerFiringRecord.workflowId
  signalledOnce
    : ∀ workflowId triggerId key,
        (stop.base.workflows.signals.select (fun signal =>
          signal.workflowId == workflowId
            && signal.deduplicationKey == occurrenceSignalKey triggerId key)).length ≤ 1
  signalled
    : ∀ firing ∈ stop.tables.firings,
        ∀ trigger ∈ start.tables.triggers,
          trigger.triggerId = firing.triggerId
          → ∀ workflowId,
              trigger.target.addressee = some workflowId
              → ∃ signal ∈ stop.base.workflows.signals,
                  signal.workflowId = workflowId
                  ∧ signal.deduplicationKey
                    = occurrenceSignalKey firing.triggerId firing.occurrenceKey
  inOrder
    : ∀ trigger ∈ start.tables.triggers,
        ∀ factKind predicate first,
          trigger.spec = .fact factKind predicate
          → cursorSequence (getCursor start.tables trigger.triggerId) = some first
          → firedKeys stop trigger.triggerId
            <+: (matchingFacts stop.base factKind predicate first).map sequenceKey

/-- Every run of the dispatcher, whatever others do and wherever it stops and restarts,
fires every occurrence at most once.
-/
theorem firedOnce_of_fresh (resolver : WorkflowMachineResolver)
    {start : TriggerDatabase} (fresh : Fresh start) {events : List DispatchEvent}
    {stop : Dispatcher}
    (run : Steps (DispatchStep resolver) { store := start } events stop)
    : FiredOnce start stop.store := by
  have sound : Sound (registered start) stop :=
    run.invariant (fun _ _ _ sound step => sound.step step) fresh.sound
  refine ⟨?_, sound.ledger.started, ?_, ?_, ?_⟩
  · intro firing member other stored owner key
    exact Table.eq_of_clash member stored (by simp [firingClash, owner, key])
      (by simp [firingClash, owner, key])
  · intro workflowId triggerId key
    refine Table.select_length_le_one _ (fun signal other hs ho => ?_)
    simp only [Bool.and_eq_true, beq_iff_eq] at hs ho
    simp [signalClash, hs, ho]
  · intro firing member trigger stored owner workflowId addressee
    refine sound.ledger.signalled firing member trigger.unmarked ?_ owner workflowId addressee
    rw [sound.registered]
    exact mem_registered stored
  · intro trigger stored factKind predicate first spec cursor
    obtain ⟨after, progress, -⟩ :=
      (fresh.delivers cursor).run fresh.sound (mem_registered stored) spec run
    exact progress.due

end Runs

section Notes

local instance : FactPayloadAdapter := ⟨fun _ _ => none, fun _ => none⟩

local instance : FactPayloadDump := ⟨fun _ => .nil⟩

def noMachine : WorkflowMachineResolver := fun _ => .error (.valueError "no machine")

def note (sequence : Nat) : RetainedFactRecord where
  sequence := sequence
  recordedAt := 0
  draft := {
    factId := ⟨BitVec.ofNat 128 sequence⟩
    occurredAt := 0
    actor := { kind := "user", id := "owner" }
    correlation := { correlationId := 1 }
    payload := .private_ "note" .nil
  }

def noteStore : TriggerDatabase where
  base := {
    repositoryId := 7
    facts := {
      retained := { rows := [note 1, note 2], unique := by decide }
      lastFactSequence := 2
    }
  }
  tables := {
    triggers := {
      rows := [{
        triggerId := 5
        name := "on-note"
        version := 1
        spec := .fact "note" .nil
        target := .startWorkflow "review" 1 .nil
        createdAt := 0
      }]
      unique := by decide
    }
  }

/-- Steps of a tick, each drawing identifiers from its number on. -/
def advancedBy (draws : List Nat) (state : Dispatcher) : Dispatcher :=
  draws.foldl (fun state first =>
    state.advance noMachine
      ⟨fun index => ⟨BitVec.ofNat 128 (first + index)⟩, .ok []⟩) state

theorem steps_advancedBy (draws : List Nat) (state : Dispatcher)
    : ∃ events, Steps (DispatchStep noMachine) state events (advancedBy draws state) := by
  induction draws generalizing state with
  | nil => exact ⟨[], .nil state⟩
  | cons first rest ih =>
    obtain ⟨events, steps⟩ := ih _
    exact ⟨_, .cons (.advance state _) steps⟩

def ticking (store : TriggerDatabase) : Dispatcher :=
  { store := store, phase := .scanning { now := 10, limit := 100 } (listTriggers store.tables) }

theorem steps_ticking (store : TriggerDatabase)
    : Steps (DispatchStep noMachine) { store := store } [.tick 10 100] (ticking store) :=
  .cons (.tick _ _ _ rfl) (.nil _)

/-- The process stops wherever it stands and ticks again. -/
theorem steps_restart (state : Dispatcher)
    : Steps (DispatchStep noMachine) state [.crash, .tick 10 100] (ticking state.store) :=
  .cons (.crash _) (.cons (.tick _ _ _ rfl) (.nil _))

theorem firedOnce_of_notes
    : ∃ events stop, Steps (DispatchStep noMachine) { store := noteStore } events stop
        ∧ firedKeys stop.store 5 = ["1", "2"] ∧ FiredOnce noteStore stop.store := by
  have fresh : Fresh noteStore := by
    refine ⟨by decide, rfl, rfl, ?_, ?_⟩
    · simp [Pages.Increasing, noteStore, note]
    · simp [noteStore, note]
  -- the process stops between the first firing and its cursor
  obtain ⟨before, first⟩ := steps_advancedBy [100, 200] (ticking noteStore)
  obtain ⟨after, second⟩ := steps_advancedBy [300, 400, 500, 600, 700, 800]
    (ticking (advancedBy [100, 200] (ticking noteStore)).store)
  have run := (((steps_ticking noteStore).append first).append (steps_restart _)).append second
  refine ⟨_, _, run, ?_, firedOnce_of_fresh noMachine fresh run⟩
  decide +kernel

end Notes

end Murder.Triggers

import Murder.Triggers.ExactlyOnce
import Murder.Triggers.Repository

/-! Debouncing over every run of the dispatcher: a repository trigger fires for a fingerprint
that stayed long enough, once in each episode, and its cursor tells the episode.
-/

namespace Murder.Triggers

open Murder.Contracts Murder.Facts Murder.Workflows Library.Runs Library.Tables

----------------------------------------
-- Episodes
----------------------------------------

/-- A maximal run of ticks that read one fingerprint: when it was first read, how often the
trigger fired since, and whether its cursor followed a fire.
-/
structure Episode where
  fingerprint : String
  first : Timestamp
  fires : Nat := 0
  consumed : Bool := false
deriving DecidableEq

def Episode.seen (fingerprint : String) (now : Timestamp) : Option Episode → Episode
  | none => { fingerprint := fingerprint, first := now }
  | some episode =>
    if episode.fingerprint = fingerprint then episode
    else { fingerprint := fingerprint, first := now }

def Episode.state (episode : Episode) : RepositoryState where
  fingerprint := episode.fingerprint
  changedAt := String.ofList (isoText episode.first)
  fired := episode.consumed

def Episode.key (episode : Episode) : String :=
  repositoryKey episode.fingerprint (String.ofList (isoText episode.first))

/-- A firing with the episode it came in, as it was before. -/
structure Fire where
  firing : TriggerFiringRecord
  episode : Option Episode

/-- The dispatcher, with what one repository trigger has read and fired. A tick counts for the
episodes with the first step behind its reading; one that stops before it is no tick.
-/
structure Watch where
  dispatcher : Dispatcher
  reading : Option String := none
  episode : Option Episode := none
  fires : List Fire := []

/-- A step of the dispatcher; a step that asks the observer finds the repository's root with
this fingerprint, or no root.
-/
structure WatchEvent where
  event : DispatchEvent
  fingerprint : Option String := none

def TriggerSpec.observe (fingerprint : Option String) (here : Uuid) (cursor : Option String)
    (now : Timestamp) : TriggerSpec → Except Failure (List String)
  | .repository watched _ _ debounceSeconds =>
    repositoryOccurrences fingerprint here watched debounceSeconds cursor now
  | _ => .ok []

def TriggerSpec.reads (fingerprint : Option String) (here : Uuid) : TriggerSpec → Option String
  | .repository watched _ _ _ => fingerprintRead fingerprint here watched
  | _ => none

def firingsOf (store : TriggerDatabase) (triggerId : Uuid) : List TriggerFiringRecord :=
  store.tables.firings.select (fun firing => firing.triggerId == triggerId)

namespace Watch

/-- The tick's reading counts. -/
def settle (now : Timestamp) (watch : Watch) : Watch :=
  match watch.reading with
  | none => watch
  | some fingerprint =>
    { watch with
      reading := none
      episode := some (Episode.seen fingerprint now watch.episode) }

def record (watch : Watch) (firing : TriggerFiringRecord) : Watch :=
  { watch with
    fires := watch.fires ++ [{ firing := firing, episode := watch.episode }]
    episode := watch.episode.map (fun episode => { episode with fires := episode.fires + 1 }) }

/-- What a step of the tick means for the episode of the trigger it works on. -/
def observe (triggerId : Uuid) (fingerprint : Option String) (watch : Watch) : Watch :=
  match watch.dispatcher.phase with
  | .scanning _ (trigger :: _) =>
    if trigger.triggerId = triggerId then
      { watch with
        reading := trigger.spec.reads fingerprint watch.dispatcher.store.base.repositoryId }
    else watch
  | .working tick trigger _ _ =>
    if trigger.triggerId = triggerId then watch.settle tick.now else watch
  | .moving _ trigger _ _ _ =>
    if trigger.triggerId = triggerId then
      { watch with
        episode := watch.episode.map (fun episode => { episode with consumed := true }) }
    else watch
  | _ => watch

def follow (triggerId : Uuid) (event : WatchEvent) (next : Dispatcher) (watch : Watch) : Watch :=
  match event.event with
  | .tick .. => { watch with dispatcher := next, reading := none }
  | .crash => { watch with dispatcher := next, reading := none }
  | .outside => { watch with dispatcher := next }
  | .advance _ =>
    let fired := (firingsOf next.store triggerId).drop
      (firingsOf watch.dispatcher.store triggerId).length
    fired.foldl record { watch.observe triggerId event.fingerprint with dispatcher := next }

end Watch

def Observes (triggerId : Uuid) (state : Dispatcher) (event : WatchEvent) : Prop :=
  ∀ draw tick trigger rest,
    event.event = .advance draw
    → state.phase = .scanning tick (trigger :: rest)
    → trigger.triggerId = triggerId
    → draw.observed
      = trigger.spec.observe event.fingerprint state.store.base.repositoryId
          (getCursor state.store.tables triggerId) tick.now

section Steps

variable [FactPayloadDump] [FactPayloadAdapter] (resolver : WorkflowMachineResolver)
  (triggerId : Uuid)

/-- A step of the dispatcher as the repository trigger lives it; a clock reads a `datetime`. -/
inductive WatchStep : Watch → WatchEvent → Watch → Prop
  | step (watch : Watch) (event : WatchEvent) (next : Dispatcher)
    (step : DispatchStep resolver watch.dispatcher event.event next)
    (observes : Observes triggerId watch.dispatcher event)
    (dated : ∀ now limit, event.event = .tick now limit → IsDatetime now)
    : WatchStep watch event (watch.follow triggerId event next)

end Steps

/-- The trigger is registered and has neither a cursor nor a firing. -/
structure Unwatched (triggerId : Uuid) (debounceSeconds : Nat) (watch : Watch) : Prop where
  registered
    : ∃ trigger ∈ watch.dispatcher.store.tables.triggers, trigger.triggerId = triggerId
        ∧ ∃ watched paths changeKinds,
            trigger.spec = .repository watched paths changeKinds debounceSeconds
  idle : watch.dispatcher.phase = .idle
  cursor : getCursor watch.dispatcher.store.tables triggerId = none
  firings : firingsOf watch.dispatcher.store triggerId = []
  episode : watch.episode = none
  fires : watch.fires = []

/-- The law of a debounced trigger: each firing is that of the episode it came in, the first in
it and not before its fingerprint stayed for the debounce, and the cursor decodes to the episode.
-/
structure Debounced (triggerId : Uuid) (debounceSeconds : Nat) (watch : Watch) : Prop where
  waited
    : ∀ fire ∈ watch.fires,
        ∃ episode, fire.episode = some episode
          ∧ fire.firing.occurrenceKey = episode.key
          ∧ episode.first + seconds debounceSeconds ≤ fire.firing.firedAt
          ∧ episode.fires = 0
  all
    : watch.fires.map Fire.firing = firingsOf watch.dispatcher.store triggerId
  decodes
    : parseRepositoryCursor (getCursor watch.dispatcher.store.tables triggerId)
      = watch.episode.map Episode.state

/-- An episode whose occurrence key and dates are read back. -/
structure Episode.Plain (episode : Episode) : Prop where
  plain : '@' ∉ episode.fingerprint.toList
  named : episode.fingerprint ≠ ""
  dated : IsDatetime episode.first

def Watch.Holds (triggerId : Uuid) (debounceSeconds : Nat) (watch : Watch) : Prop :=
  match watch.dispatcher.phase with
  | .working tick trigger keys _ =>
    trigger.triggerId = triggerId
    → watch.reading = none ∧ keys = []
      ∨ ∃ fingerprint, watch.reading = some fingerprint
          ∧ '@' ∉ fingerprint.toList ∧ fingerprint ≠ ""
          ∧ fingerprintKeys debounceSeconds fingerprint
              (getCursor watch.dispatcher.store.tables triggerId) tick.now = .ok keys
  | .waking _ trigger key keys _ _ =>
    trigger.triggerId = triggerId
    → watch.reading = none ∧ keys = []
      ∧ ∃ episode, watch.episode = some episode ∧ key = episode.key
  | .moving _ trigger key keys _ =>
    trigger.triggerId = triggerId
    → watch.reading = none ∧ keys = []
      ∧ ∃ episode, watch.episode = some episode ∧ key = episode.key
  | _ => True

/-- The invariant of a run, for a registered repository trigger. -/
structure Follows (trigger : TriggerRecord) (debounceSeconds : Nat) (watch : Watch) : Prop where
  law : Debounced trigger.triggerId debounceSeconds watch
  enrolled : trigger ∈ registered watch.dispatcher.store
  known
    : ∀ other ∈ watch.dispatcher.phase.triggers,
        other.unmarked ∈ registered watch.dispatcher.store
  clocks : ∀ now, watch.dispatcher.phase.clock = some now → IsDatetime now
  plain : ∀ episode, watch.episode = some episode → episode.Plain
  fired
    : ∀ episode,
        watch.episode = some episode
        → 0 < episode.fires
        → episode.key ∈ firedKeys watch.dispatcher.store trigger.triggerId
  holds : watch.Holds trigger.triggerId debounceSeconds

----------------------------------------
-- Readings of an episode
----------------------------------------

theorem isoText_ne_nil (instant : Int) : isoText instant ≠ [] := by
  intro empty
  have long := congrArg List.length empty
  simp [isoText, stampText] at long

/-- The cursor that followed a fire decodes to the consumed episode. -/
theorem Episode.Plain.parse_key {episode : Episode} (plain : episode.Plain)
    : parseRepositoryCursor (some episode.key)
      = some (Episode.state { episode with consumed := true }) :=
  parse_repositoryKey plain.plain plain.named (by simpa using isoText_ne_nil episode.first)

variable {cursor : Option String} {now : Timestamp} {keys : List String} {episode : Option Episode}

/-- What the observer reports, by the episode its cursor tells: a move to a new fingerprint, or
for the fingerprint of the episode nothing or its occurrence, once it stayed for the debounce.
-/
theorem fingerprintKeys_ok {debounceSeconds : Nat} {fingerprint : String}
    (decodes : parseRepositoryCursor cursor = episode.map Episode.state)
    (plain : ∀ known, episode = some known → known.Plain)
    (read : fingerprintKeys debounceSeconds fingerprint cursor now = .ok keys)
    : keys = [changedKey fingerprint now]
          ∧ Episode.seen fingerprint now episode = { fingerprint := fingerprint, first := now }
      ∨ ∃ known, episode = some known ∧ Episode.seen fingerprint now episode = known
          ∧ (keys = []
            ∨ keys = [known.key] ∧ known.first + seconds debounceSeconds ≤ now) := by
  unfold fingerprintKeys at read
  rw [decodes] at read
  cases episode with
  | none =>
    cases read
    exact .inl ⟨rfl, rfl⟩
  | some known =>
    simp only [Option.map_some, Episode.state] at read
    split at read
    · next changed =>
        cases read
        exact .inl ⟨rfl, if_neg (Ne.symm changed)⟩
    · next same =>
        have same : known.fingerprint = fingerprint := (Classical.not_not.mp same).symm
        refine .inr ⟨known, rfl, if_pos same, ?_⟩
        split at read
        · cases read
          exact .inl rfl
        · rw [String.toList_ofList, parseAware_isoText (plain known rfl).dated] at read
          dsimp only at read
          split at read
          · cases read
            exact .inl rfl
          · next waited =>
              cases read
              refine .inr ⟨by rw [Episode.key, same], ?_⟩
              simp only [Timestamp, Duration, not_lt] at waited ⊢
              omega

theorem isCursorKey_key (episode : Episode) : isCursorKey episode.key = false :=
  isCursorKey_repositoryKey _ _

variable {key : String}

/-- A move that the observer reports is to a new fingerprint, and nothing follows it. -/
theorem fingerprintKeys_move {debounceSeconds : Nat} {fingerprint : String}
    (move : isCursorKey key = true)
    (decodes : parseRepositoryCursor cursor = episode.map Episode.state)
    (plain : ∀ known, episode = some known → known.Plain)
    (read : fingerprintKeys debounceSeconds fingerprint cursor now = .ok (key :: keys))
    : key = changedKey fingerprint now ∧ keys = []
      ∧ Episode.seen fingerprint now episode = { fingerprint := fingerprint, first := now } := by
  rcases fingerprintKeys_ok decodes plain read with ⟨same, fresh⟩ | ⟨known, -, -, none_ | fire⟩
  · obtain ⟨rfl, rfl⟩ := List.cons.inj same
    exact ⟨rfl, rfl, fresh⟩
  · cases none_
  · obtain ⟨rfl, -⟩ := List.cons.inj fire.1
    rw [isCursorKey_key] at move
    cases move

/-- An occurrence that the observer reports is that of the episode, which waited. -/
theorem fingerprintKeys_fire {debounceSeconds : Nat} {fingerprint : String}
    (occurrence : isCursorKey key = false)
    (decodes : parseRepositoryCursor cursor = episode.map Episode.state)
    (plain : ∀ known, episode = some known → known.Plain)
    (read : fingerprintKeys debounceSeconds fingerprint cursor now = .ok (key :: keys))
    : ∃ known, episode = some known ∧ Episode.seen fingerprint now episode = known
        ∧ key = known.key ∧ keys = [] ∧ known.first + seconds debounceSeconds ≤ now := by
  rcases fingerprintKeys_ok decodes plain read with ⟨same, -⟩ | ⟨known, rfl, stays, none_ | fire⟩
  · obtain ⟨rfl, -⟩ := List.cons.inj same
    rw [changedKey, isCursorKey_move] at occurrence
    cases occurrence
  · cases none_
  · obtain ⟨same, waited⟩ := fire
    obtain ⟨rfl, rfl⟩ := List.cons.inj same
    exact ⟨known, rfl, stays, rfl, rfl, waited⟩

----------------------------------------
-- What a step of a tick does to the trigger
----------------------------------------

variable {firing : TriggerFiringRecord} {start stop : TriggerDatabase}

theorem Fired.firingsOf {owner triggerId : Uuid} (fired : Fired owner key firing start stop)
    : Murder.Triggers.firingsOf stop triggerId
      = Murder.Triggers.firingsOf start triggerId
        ++ if owner = triggerId then [firing] else [] := by
  have rows := (Table.insert?_eq_some fired.firings).2
  unfold Murder.Triggers.firingsOf Table.select
  rw [rows, List.filter_append]
  by_cases same : owner = triggerId
  · simp [fired.owner, same]
  · simp [fired.owner, same]

theorem Unfired.firingsOf (unfired : Unfired start stop) (triggerId : Uuid)
    : Murder.Triggers.firingsOf stop triggerId = Murder.Triggers.firingsOf start triggerId := by
  unfold Murder.Triggers.firingsOf
  rw [unfired.firings]

variable {store : TriggerDatabase}

theorem mem_firedKeys_of_firingsOf {triggerId : Uuid} (member : firing ∈ firingsOf store triggerId)
    : firing.occurrenceKey ∈ firedKeys store triggerId :=
  List.mem_map_of_mem member

theorem firedKeys_eq {triggerId : Uuid}
    (firings : firingsOf stop triggerId = firingsOf start triggerId)
    : firedKeys stop triggerId = firedKeys start triggerId :=
  congrArg (List.map TriggerFiringRecord.occurrenceKey) firings

section Advance

variable [FactPayloadDump]

theorem Advances.clock {phase : Phase} {next : Dispatcher} (advances : Advances store phase next)
    : next.phase.clock = none ∨ next.phase.clock = phase.clock := by
  cases advances with
  | settled fewer still resting =>
    rcases resting with rfl | ⟨tick, rest, rfl, same⟩
    · exact .inl rfl
    · exact .inr same.symm
  | moved stops =>
    rcases stops with rfl | ⟨later, same, rfl⟩
    · exact .inl rfl
    · exact .inr (congrArg some same)
  | _ => exact .inr rfl

theorem Advances.registered {phase : Phase} {next : Dispatcher}
    (advances : Advances store phase next)
    : Murder.Triggers.registered next.store = Murder.Triggers.registered store := by
  rcases advances.fires with unfired | ⟨triggerId, key, firing, fired⟩
  · exact unfired.registered
  · exact fired.registered

end Advance

variable {draw : Draw} {fingerprint : Option String}

theorem follow_quiet {triggerId : Uuid} {watch : Watch} {phase : Phase}
    (same : firingsOf store triggerId = firingsOf watch.dispatcher.store triggerId)
    : watch.follow triggerId ⟨.advance draw, fingerprint⟩ { store := store, phase := phase }
      = { watch.observe triggerId fingerprint with
          dispatcher := { store := store, phase := phase } } := by
  simp [Watch.follow, same]

theorem follow_fired {triggerId : Uuid} {watch : Watch} {next : Dispatcher}
    (fired : firingsOf next.store triggerId
      = firingsOf watch.dispatcher.store triggerId ++ [firing])
    : watch.follow triggerId ⟨.advance draw, fingerprint⟩ next
      = Watch.record { watch.observe triggerId fingerprint with dispatcher := next } firing := by
  simp [Watch.follow, fired]

variable {tick : Tick} {own first : TriggerRecord} {rest : List TriggerRecord}

section Follow

variable {trigger : TriggerRecord} {debounceSeconds : Nat} {watch : Watch} {next : Dispatcher}

/-- A step that touches neither the trigger's cursor nor its firings nor its episode. -/
theorem Follows.frame (follows : Follows trigger debounceSeconds watch) (reading : Option String)
    (same : registered next.store = registered watch.dispatcher.store)
    (cursor
      : getCursor next.store.tables trigger.triggerId
        = getCursor watch.dispatcher.store.tables trigger.triggerId)
    (firings
      : firingsOf next.store trigger.triggerId
        = firingsOf watch.dispatcher.store trigger.triggerId)
    (known : ∀ other ∈ next.phase.triggers, other.unmarked ∈ registered next.store)
    (clocks : ∀ now, next.phase.clock = some now → IsDatetime now)
    (holds
      : ({ watch with dispatcher := next, reading := reading } : Watch).Holds trigger.triggerId
          debounceSeconds)
    : Follows trigger debounceSeconds { watch with dispatcher := next, reading := reading } where
  law := {
    waited := follows.law.waited
    all := follows.law.all.trans firings.symm
    decodes := (congrArg parseRepositoryCursor cursor).trans follows.law.decodes
  }
  enrolled := same ▸ follows.enrolled
  known := known
  clocks := clocks
  plain := follows.plain
  fired := by
    intro episode shown some_
    rw [firedKeys_eq firings]
    exact follows.fired episode shown some_
  holds := holds

/-- A held reading counts once the tick goes on. -/
theorem settle_reading {fingerprint : String} (reading : watch.reading = some fingerprint)
    : watch.settle now
      = { watch with
          reading := none
          episode := some (Episode.seen fingerprint now watch.episode) } := by
  unfold Watch.settle
  rw [reading]

theorem settle_none (reading : watch.reading = none)
    : watch.settle now = watch := by
  unfold Watch.settle
  rw [reading]

/-- A reading that gives no occurrence is of the episode's fingerprint. -/
theorem Follows.settle_empty (follows : Follows trigger debounceSeconds watch)
    (phase : watch.dispatcher.phase = .working tick own [] rest)
    (owner : own.triggerId = trigger.triggerId)
    : watch.settle tick.now = { watch with reading := none } := by
  have holds := follows.holds
  unfold Watch.Holds at holds
  rw [phase] at holds
  rcases holds owner with ⟨reading, -⟩ | ⟨fingerprint, reading, -, -, read⟩
  · rw [settle_none reading]
    cases watch
    cases reading
    rfl
  · rcases fingerprintKeys_ok follows.law.decodes follows.plain read with ⟨same, -⟩
      | ⟨known, shown, stays, -⟩
    · cases same
    · rw [settle_reading reading, stays, ← shown]

/-- The occurrence in hand is that of the episode. -/
theorem Follows.settle_fire (follows : Follows trigger debounceSeconds watch)
    (phase : watch.dispatcher.phase = .working tick own (key :: keys) rest)
    (owner : own.triggerId = trigger.triggerId) (occurrence : isCursorKey key = false)
    : watch.settle tick.now = { watch with reading := none } ∧ keys = []
      ∧ ∃ episode, watch.episode = some episode ∧ key = episode.key
          ∧ episode.first + seconds debounceSeconds ≤ tick.now := by
  have holds := follows.holds
  unfold Watch.Holds at holds
  rw [phase] at holds
  rcases holds owner with ⟨-, none_⟩ | ⟨fingerprint, reading, -, -, read⟩
  · cases none_
  · obtain ⟨known, shown, stays, same, last, waited⟩ :=
      fingerprintKeys_fire occurrence follows.law.decodes follows.plain read
    refine ⟨?_, last, known, shown, same, waited⟩
    rw [settle_reading reading, stays, ← shown]

/-- The move in hand is to a new fingerprint. -/
theorem Follows.settle_move (follows : Follows trigger debounceSeconds watch)
    (phase : watch.dispatcher.phase = .working tick own (key :: keys) rest)
    (owner : own.triggerId = trigger.triggerId) (move : isCursorKey key = true)
    : ∃ fingerprint, '@' ∉ fingerprint.toList ∧ fingerprint ≠ ""
        ∧ key = changedKey fingerprint tick.now ∧ keys = []
        ∧ watch.settle tick.now
          = { watch with
              reading := none
              episode := some { fingerprint := fingerprint, first := tick.now } } := by
  have holds := follows.holds
  unfold Watch.Holds at holds
  rw [phase] at holds
  rcases holds owner with ⟨-, none_⟩ | ⟨fingerprint, reading, plain, named, read⟩
  · cases none_
  · obtain ⟨same, last, fresh⟩ := fingerprintKeys_move move follows.law.decodes follows.plain read
    refine ⟨fingerprint, plain, named, same, last, ?_⟩
    rw [settle_reading reading, fresh]

theorem observe_other {other : TriggerRecord} {triggerId : Uuid}
    (phase : watch.dispatcher.phase = .working tick other keys rest)
    (apart : other.triggerId ≠ triggerId)
    : watch.observe triggerId fingerprint = watch := by
  unfold Watch.observe
  rw [phase]
  exact if_neg apart

theorem observe_own {triggerId : Uuid}
    (phase : watch.dispatcher.phase = .working tick own keys rest)
    (owner : own.triggerId = triggerId)
    : watch.observe triggerId fingerprint = watch.settle tick.now := by
  unfold Watch.observe
  rw [phase]
  exact if_pos owner

/-- A step that moves no cursor and fires nothing leaves the episode. -/
theorem Follows.observe_still (follows : Follows trigger debounceSeconds watch)
    (still : watch.dispatcher.phase.Still) (fingerprint : Option String)
    : ∃ reading,
        watch.observe trigger.triggerId fingerprint = { watch with reading := reading } := by
  cases phase : watch.dispatcher.phase with
  | idle =>
    refine ⟨watch.reading, ?_⟩
    unfold Watch.observe
    rw [phase]
  | scanning tick triggers =>
    unfold Watch.observe
    rw [phase]
    cases triggers with
    | nil => exact ⟨watch.reading, rfl⟩
    | cons first rest =>
      by_cases owner : first.triggerId = trigger.triggerId
      · exact ⟨_, if_pos owner⟩
      · exact ⟨watch.reading, if_neg owner⟩
  | working tick first keys rest =>
    by_cases owner : first.triggerId = trigger.triggerId
    · refine ⟨none, (observe_own phase owner).trans ?_⟩
      cases keys with
      | nil => exact follows.settle_empty phase owner
      | cons key keys =>
        rw [phase] at still
        exact (follows.settle_fire phase owner still).1
    · exact ⟨watch.reading, observe_other phase owner⟩
  | waking =>
    rw [phase] at still
    exact still.elim
  | moving =>
    rw [phase] at still
    exact still.elim

/-- The trigger a tick works on is the registered one. -/
theorem Follows.spec_of_owner (follows : Follows trigger debounceSeconds watch)
    (member : own ∈ watch.dispatcher.phase.triggers) (owner : own.triggerId = trigger.triggerId)
    : own.spec = trigger.spec := by
  have same : own.unmarked = trigger :=
    registered_unique (follows.known own member) follows.enrolled owner
  change own.unmarked.spec = trigger.spec
  rw [same]

/-- A cursor move of the trigger begins an episode. -/
theorem Follows.skip (follows : Follows trigger debounceSeconds watch)
    (phase : watch.dispatcher.phase = .working tick first (key :: keys) rest)
    (move : isCursorKey key = true)
    (known : ∀ other ∈ first :: rest, other.unmarked
      ∈ registered (setCursor first.triggerId (cursorText key) tick.now watch.dispatcher.store))
    (dated : IsDatetime tick.now)
    : Follows trigger debounceSeconds
        { watch.observe trigger.triggerId fingerprint with
          dispatcher := {
            store := setCursor first.triggerId (cursorText key) tick.now watch.dispatcher.store
            phase := .working tick first keys rest
          } } := by
  have unfired := setCursor_unfired first.triggerId (cursorText key) tick.now
    watch.dispatcher.store
  have clocks : ∀ now, some tick.now = some now → IsDatetime now := by
    intro now read
    exact Option.some.inj read ▸ dated
  by_cases owner : first.triggerId = trigger.triggerId
  · obtain ⟨text, plain, named, rfl, rfl, settled⟩ := follows.settle_move phase owner move
    rw [observe_own phase owner, settled]
    refine ⟨⟨follows.law.waited, ?_, ?_⟩, ?_, known, clocks, ?_, ?_, fun _ => .inl ⟨rfl, rfl⟩⟩
    · exact follows.law.all.trans (unfired.firingsOf _).symm
    · dsimp only
      rw [owner, getCursor_setCursor, changedKey, cursorText_move, parse_encodeRepositoryCursor]
      rfl
    · dsimp only
      rw [unfired.registered]
      exact follows.enrolled
    · intro episode shown
      cases shown
      exact ⟨plain, named, dated⟩
    · intro episode shown some_
      cases shown
      exact absurd some_ (Nat.lt_irrefl 0)
  · rw [observe_other phase owner]
    exact follows.frame watch.reading unfired.registered
      (getCursor_setCursor_other owner _ _ _) (unfired.firingsOf _) known clocks
      (fun same => absurd same owner)

/-- An occurrence that is not fired is the episode's all the same. -/
theorem Follows.repeat (follows : Follows trigger debounceSeconds watch)
    (phase : watch.dispatcher.phase = .working tick first (key :: keys) rest)
    (occurrence : isCursorKey key = false)
    : Follows trigger debounceSeconds
        { watch.observe trigger.triggerId fingerprint with
          dispatcher := { watch.dispatcher with phase := .moving tick first key keys rest } } := by
  have known : ∀ other ∈ first :: rest, other.unmarked ∈ registered watch.dispatcher.store := by
    intro other member
    exact follows.known other (by rw [phase]; exact member)
  have clocks : ∀ now, some tick.now = some now → IsDatetime now := by
    intro now read
    exact follows.clocks now (by rw [phase]; exact read)
  by_cases owner : first.triggerId = trigger.triggerId
  · obtain ⟨settled, last, episode, shown, same, -⟩ :=
      follows.settle_fire phase owner occurrence
    rw [observe_own phase owner, settled]
    exact follows.frame none rfl rfl rfl known clocks
      (fun _ => ⟨rfl, last, episode, shown, same⟩)
  · rw [observe_other phase owner]
    exact follows.frame watch.reading rfl rfl rfl known clocks (fun same => absurd same owner)

theorem Follows.fire (follows : Follows trigger debounceSeconds watch)
    (phase : watch.dispatcher.phase = .working tick first (key :: keys) rest)
    (occurrence : isCursorKey key = false)
    (fired : Fired first.triggerId key firing watch.dispatcher.store stop)
    (stamped : firing.firedAt = tick.now)
    : Follows trigger debounceSeconds
        (watch.follow trigger.triggerId ⟨.advance draw, fingerprint⟩
          { store := stop, phase := .waking tick first key keys rest firing.workflowId }) := by
  have known : ∀ other ∈ first :: rest, other.unmarked ∈ registered stop := by
    intro other member
    rw [fired.registered]
    exact follows.known other (by rw [phase]; exact member)
  have clocks : ∀ now, some tick.now = some now → IsDatetime now := by
    intro now read
    exact follows.clocks now (by rw [phase]; exact read)
  have cursor : getCursor stop.tables trigger.triggerId
      = getCursor watch.dispatcher.store.tables trigger.triggerId := by
    unfold getCursor
    rw [fired.cursors]
  have firings : firingsOf stop trigger.triggerId = _ := fired.firingsOf
  by_cases owner : first.triggerId = trigger.triggerId
  · rw [if_pos owner] at firings
    obtain ⟨settled, last, episode, shown, same, waited⟩ :=
      follows.settle_fire phase owner occurrence
    have unfired : episode.fires = 0 := by
      rcases Nat.eq_zero_or_pos episode.fires with none_ | some_
      · exact none_
      · have before := follows.fired episode shown some_
        rw [← same, ← owner] at before
        exact absurd before (findFiring_none fired.fresh)
    rw [follow_fired firings, observe_own phase owner, settled]
    unfold Watch.record
    dsimp only
    rw [shown]
    refine ⟨⟨?_, ?_, ?_⟩, ?_, known, clocks, ?_, ?_, fun _ => ⟨rfl, last, _, rfl, same⟩⟩
    · intro fire member
      rcases List.mem_append.mp member with before | now
      · exact follows.law.waited fire before
      · obtain rfl := List.mem_singleton.mp now
        exact ⟨episode, rfl, fired.key.trans same, stamped ▸ waited, unfired⟩
    · rw [List.map_append, follows.law.all]
      exact firings.symm
    · refine (congrArg parseRepositoryCursor cursor).trans (follows.law.decodes.trans ?_)
      rw [shown]
      rfl
    · dsimp only
      rw [fired.registered]
      exact follows.enrolled
    · intro later now
      cases now
      exact ⟨(follows.plain episode shown).plain, (follows.plain episode shown).named,
        (follows.plain episode shown).dated⟩
    · intro later now _
      cases now
      have stored : firing ∈ firingsOf stop trigger.triggerId := by
        rw [firings]
        exact List.mem_append_right _ (List.mem_singleton_self _)
      have named : firing.occurrenceKey = episode.key := fired.key.trans same
      have member := mem_firedKeys_of_firingsOf stored
      rw [named] at member
      exact member
  · rw [if_neg owner, List.append_nil] at firings
    rw [follow_quiet firings, observe_other phase owner]
    exact follows.frame watch.reading fired.registered cursor firings known clocks
      (fun same => absurd same owner)

/-- The cursor follows the occurrence in hand, which consumes the episode. -/
theorem Follows.move (follows : Follows trigger debounceSeconds watch) {tick : Tick}
    {first : TriggerRecord} {key : String} {keys : List String} {rest : List TriggerRecord}
    {later : Phase} {fingerprint : Option String}
    (phase : watch.dispatcher.phase = .moving tick first key keys rest)
    (stops
      : later = .idle ∨ ∃ next, next.now = tick.now ∧ later = .working next first keys rest)
    : Follows trigger debounceSeconds
        { watch.observe trigger.triggerId fingerprint with
          dispatcher := {
            store := setCursor first.triggerId key tick.now watch.dispatcher.store
            phase := later
          } } := by
  have unfired := setCursor_unfired first.triggerId key tick.now watch.dispatcher.store
  have known : ∀ other ∈ later.triggers, other.unmarked
      ∈ registered (setCursor first.triggerId key tick.now watch.dispatcher.store) := by
    intro other member
    rw [unfired.registered]
    rcases stops with rfl | ⟨next, -, rfl⟩
    · cases member
    · exact follows.known other (by rw [phase]; exact member)
  have clocks : ∀ now, later.clock = some now → IsDatetime now := by
    intro now read
    rcases stops with rfl | ⟨next, same, rfl⟩
    · cases read
    · rw [Phase.clock, same] at read
      exact follows.clocks now (by rw [phase]; exact read)
  by_cases owner : first.triggerId = trigger.triggerId
  · have holds := follows.holds
    unfold Watch.Holds at holds
    rw [phase] at holds
    obtain ⟨reading, last, episode, shown, same⟩ := holds owner
    have observed : watch.observe trigger.triggerId fingerprint
        = { watch with episode := some { episode with consumed := true } } := by
      unfold Watch.observe
      rw [phase]
      refine (if_pos owner).trans ?_
      rw [shown]
      rfl
    have plain := follows.plain episode shown
    rw [observed]
    refine ⟨⟨follows.law.waited, ?_, ?_⟩, ?_, known, clocks, ?_, ?_, ?_⟩
    · exact follows.law.all.trans (unfired.firingsOf _).symm
    · dsimp only
      rw [owner, getCursor_setCursor, same, plain.parse_key]
      rfl
    · dsimp only
      rw [unfired.registered]
      exact follows.enrolled
    · intro known shown
      cases shown
      exact ⟨plain.plain, plain.named, plain.dated⟩
    · intro known now some_
      cases now
      dsimp only
      rw [firedKeys_eq (unfired.firingsOf _)]
      exact follows.fired episode shown some_
    · rcases stops with rfl | ⟨next, -, rfl⟩
      · trivial
      · exact fun _ => .inl ⟨reading, last⟩
  · have observed : watch.observe trigger.triggerId fingerprint = watch := by
      unfold Watch.observe
      rw [phase]
      exact if_neg owner
    rw [observed]
    refine follows.frame watch.reading unfired.registered
      (getCursor_setCursor_other owner _ _ _) (unfired.firingsOf _) known clocks ?_
    rcases stops with rfl | ⟨next, -, rfl⟩
    · trivial
    · exact fun same => absurd same owner

variable [FactPayloadDump]

theorem Follows.known_next (follows : Follows trigger debounceSeconds watch)
    (advances : Advances watch.dispatcher.store watch.dispatcher.phase next)
    : ∀ other ∈ next.phase.triggers, other.unmarked ∈ registered next.store := by
  intro other member
  rw [advances.registered]
  exact follows.known other (advances.triggers member)

theorem Follows.clocks_next (follows : Follows trigger debounceSeconds watch)
    (advances : Advances watch.dispatcher.store watch.dispatcher.phase next)
    : ∀ now, next.phase.clock = some now → IsDatetime now := by
  intro now read
  rcases advances.clock with none_ | same
  · rw [none_] at read
    cases read
  · exact follows.clocks now (same.symm.trans read)

theorem Follows.read (follows : Follows trigger debounceSeconds watch)
    {watched : Uuid} {paths changeKinds : List String}
    (spec : trigger.spec = .repository watched paths changeKinds debounceSeconds)
    (phase : watch.dispatcher.phase = .scanning tick (first :: rest))
    (observes : Observes trigger.triggerId watch.dispatcher ⟨.advance draw, fingerprint⟩)
    (careful : ∀ read, fingerprint = some read → '@' ∉ read.toList)
    (occurs : occurrences watch.dispatcher.store first draw.observed = .ok keys)
    : Follows trigger debounceSeconds
        { watch.observe trigger.triggerId fingerprint with
          dispatcher := { watch.dispatcher with phase := .working tick first keys rest } } := by
  have known : ∀ other ∈ first :: rest, other.unmarked ∈ registered watch.dispatcher.store := by
    intro other member
    exact follows.known other (by rw [phase]; exact member)
  have clocks : ∀ now, some tick.now = some now → IsDatetime now := by
    intro now read
    exact follows.clocks now (by rw [phase]; exact read)
  by_cases owner : first.triggerId = trigger.triggerId
  · have observed : watch.observe trigger.triggerId fingerprint
        = { watch with
            reading := first.spec.reads fingerprint watch.dispatcher.store.base.repositoryId } := by
      unfold Watch.observe
      rw [phase]
      exact if_pos owner
    rw [observed]
    refine follows.frame _ rfl rfl rfl known clocks (fun _ => ?_)
    have same : first.spec = .repository watched paths changeKinds debounceSeconds :=
      (follows.spec_of_owner (by rw [phase]; exact List.mem_cons_self) owner).trans spec
    have drawn := observes draw tick first rest rfl phase owner
    unfold occurrences at occurs
    rw [same] at occurs drawn ⊢
    simp only [TriggerSpec.observe, repositoryOccurrences] at drawn
    rw [drawn] at occurs
    cases read : fingerprintRead fingerprint watch.dispatcher.store.base.repositoryId watched with
    | none =>
      rw [read] at occurs
      cases occurs
      exact .inl ⟨read, rfl⟩
    | some text =>
      rw [read] at occurs
      have shown : fingerprint = some text ∧ text ≠ "" := by
        unfold fingerprintRead at read
        cases fingerprint with
        | none => cases read
        | some given =>
          dsimp only at read
          split_ifs at read with _ empty
          cases read
          exact ⟨rfl, empty⟩
      exact .inr ⟨text, read, careful text shown.1, shown.2, occurs⟩
  · have observed : watch.observe trigger.triggerId fingerprint = watch := by
      unfold Watch.observe
      rw [phase]
      exact if_neg owner
    rw [observed]
    exact follows.frame watch.reading rfl rfl rfl known clocks (fun same => absurd same owner)

/-- Every step of a tick keeps the invariant. -/
theorem Follows.advanced (follows : Follows trigger debounceSeconds watch)
    {watched : Uuid} {paths changeKinds : List String}
    (spec : trigger.spec = .repository watched paths changeKinds debounceSeconds)
    (observes : Observes trigger.triggerId watch.dispatcher ⟨.advance draw, fingerprint⟩)
    (careful : ∀ read, fingerprint = some read → '@' ∉ read.toList)
    (advances : Advances watch.dispatcher.store watch.dispatcher.phase next)
    (drawn
      : ∀ tick first rest keys,
          watch.dispatcher.phase = .scanning tick (first :: rest)
          → next = { watch.dispatcher with phase := .working tick first keys rest }
          → occurrences watch.dispatcher.store first draw.observed = .ok keys)
    : Follows trigger debounceSeconds
        (watch.follow trigger.triggerId ⟨.advance draw, fingerprint⟩ next) := by
  have known := follows.known_next advances
  have clocks := follows.clocks_next advances
  generalize phase : watch.dispatcher.phase = current at advances
  cases advances with
  | settled fewer still resting =>
    obtain ⟨reading, observed⟩ := follows.observe_still (phase ▸ still) fingerprint
    rw [follow_quiet rfl, observed]
    refine follows.frame reading rfl rfl rfl known clocks ?_
    rcases resting with rfl | ⟨tick, rest, rfl, -⟩
    · trivial
    · trivial
  | read occurs =>
    rw [follow_quiet rfl]
    exact follows.read spec phase observes careful (drawn _ _ _ _ phase rfl)
  | skipped move =>
    rw [follow_quiet ((setCursor_unfired _ _ _ _).firingsOf _)]
    exact follows.skip phase move known (clocks _ rfl)
  | repeated occurrence unfired =>
    rw [follow_quiet rfl]
    exact follows.repeat phase occurrence
  | fired occurrence fired stamped => exact follows.fire phase occurrence fired stamped
  | @woke tick first key keys rest workflowId base outside =>
    have quiet : firingsOf { watch.dispatcher.store with base := base } trigger.triggerId
        = firingsOf watch.dispatcher.store trigger.triggerId := rfl
    have observed : watch.observe trigger.triggerId fingerprint = watch := by
      unfold Watch.observe
      rw [phase]
    have holds := follows.holds
    unfold Watch.Holds at holds
    rw [phase] at holds
    rw [follow_quiet quiet, observed]
    exact follows.frame watch.reading rfl rfl rfl known clocks holds
  | moved stops =>
    rw [follow_quiet ((setCursor_unfired _ _ _ _).firingsOf _)]
    exact follows.move phase stops

end Follow

theorem Unwatched.follows {start : Watch} {triggerId : Uuid} {debounceSeconds : Nat}
    (unwatched : Unwatched triggerId debounceSeconds start)
    : ∃ trigger watched paths changeKinds, trigger.triggerId = triggerId
        ∧ trigger.spec = .repository watched paths changeKinds debounceSeconds
        ∧ Follows trigger debounceSeconds start := by
  obtain ⟨trigger, stored, named, watched, paths, changeKinds, spec⟩ := unwatched.registered
  subst named
  have idle := unwatched.idle
  refine ⟨trigger.unmarked, watched, paths, changeKinds, rfl, spec, ⟨?_, ?_, ?_⟩,
    mem_registered stored, ?_, ?_, ?_, ?_, ?_⟩
  · intro fire member
    rw [unwatched.fires] at member
    cases member
  · rw [unwatched.fires]
    exact unwatched.firings.symm
  · rw [unwatched.episode]
    exact congrArg parseRepositoryCursor unwatched.cursor
  · intro other member
    rw [idle] at member
    cases member
  · intro now read
    rw [idle] at read
    cases read
  · intro episode shown
    rw [unwatched.episode] at shown
    cases shown
  · intro episode shown
    rw [unwatched.episode] at shown
    cases shown
  · unfold Watch.Holds
    rw [idle]
    trivial

section Runs

variable [FactPayloadDump] [FactPayloadAdapter] {resolver : WorkflowMachineResolver}
  {trigger : TriggerRecord} {debounceSeconds : Nat}

/-- A step whose repository has no `@` in its fingerprint. -/
def Careful (event : WatchEvent) : Prop :=
  ∀ read, event.fingerprint = some read → '@' ∉ read.toList

/-- Every step keeps the invariant, wherever the process stops. -/
theorem Follows.step {watch next : Watch} {event : WatchEvent} {watched : Uuid}
    {paths changeKinds : List String}
    (spec : trigger.spec = .repository watched paths changeKinds debounceSeconds)
    (follows : Follows trigger debounceSeconds watch) (careful : Careful event)
    (step : WatchStep resolver trigger.triggerId watch event next)
    : Follows trigger debounceSeconds next := by
  obtain ⟨event, fingerprint⟩ := event
  obtain ⟨next, step, observes, dated⟩ := step
  cases step with
  | tick now limit idle =>
    refine follows.frame none rfl rfl rfl ?_ ?_ trivial
    · intro other member
      exact listTriggers_registered member
    · intro read same
      cases same
      exact dated now limit rfl
  | advance draw =>
    refine follows.advanced spec observes careful (advance_advances resolver draw _) ?_
    intro tick first rest keys phase same
    unfold Dispatcher.advance at same
    rw [phase] at same
    cases occurs : occurrences watch.dispatcher.store first draw.observed with
    | ok read =>
      simp only [occurs] at same
      injection same with _ same
      injection same with _ _ same
      rw [same]
    | error raised =>
      simp only [occurs] at same
      cases same
  | crash =>
    exact follows.frame none rfl rfl rfl (fun _ member => (List.not_mem_nil member).elim)
      (fun _ read => by cases read) trivial
  | outside base pending outside =>
    exact follows.frame watch.reading rfl rfl rfl follows.known follows.clocks follows.holds

/-- A run keeps the invariant, by induction over its steps. -/
theorem Follows.run {start stop : Watch} {events : List WatchEvent} {watched : Uuid}
    {paths changeKinds : List String}
    (spec : trigger.spec = .repository watched paths changeKinds debounceSeconds)
    (follows : Follows trigger debounceSeconds start)
    (careful : ∀ event ∈ events, Careful event)
    (run : Steps (WatchStep resolver trigger.triggerId) start events stop)
    : Follows trigger debounceSeconds stop := by
  induction run with
  | nil => exact follows
  | cons first _ ih =>
    obtain ⟨here, later⟩ := List.forall_mem_cons.mp careful
    exact ih (follows.step spec here first) later

/-- A repository trigger is debounced in every run over fingerprints without an `@`. -/
theorem debounced_of_run {start stop : Watch} {triggerId : Uuid} {events : List WatchEvent}
    (unwatched : Unwatched triggerId debounceSeconds start)
    (careful : ∀ event ∈ events, Careful event)
    (run : Steps (WatchStep resolver triggerId) start events stop)
    : Debounced triggerId debounceSeconds stop := by
  obtain ⟨trigger, watched, paths, changeKinds, named, spec, follows⟩ := unwatched.follows
  subst named
  exact (follows.run spec careful run).law

end Runs

section Releases

local instance releaseBodies : FactPayloadAdapter := ⟨fun _ _ => none, fun _ => none⟩

local instance releaseDump : FactPayloadDump := ⟨fun _ => .nil⟩

/-- A trigger that starts a workflow when the repository changes. -/
def releaseTrigger : TriggerRecord where
  triggerId := 5
  name := "on-change"
  version := 1
  spec := .repository 7 [] ["modified"] 60
  target := .startWorkflow "review" 1 .nil
  createdAt := 0

def releaseStore : TriggerDatabase where
  base := { repositoryId := 7 }
  tables := { triggers := { rows := [releaseTrigger], unique := by decide } }

def releaseWatch : Watch := { dispatcher := { store := releaseStore } }

def releaseDraw (fingerprint : String) (first : Nat) (watch : Watch) : Draw where
  supply := fun index => ⟨BitVec.ofNat 128 (first + index)⟩
  observed :=
    match watch.dispatcher.phase with
    | .scanning tick (trigger :: _) =>
      trigger.spec.observe (some fingerprint) watch.dispatcher.store.base.repositoryId
        (getCursor watch.dispatcher.store.tables 5) tick.now
    | _ => .ok []

def advanceAt (fingerprint : String) (watch : Watch) (first : Nat) : Watch :=
  watch.follow 5 ⟨.advance (releaseDraw fingerprint first watch), some fingerprint⟩
    (watch.dispatcher.advance noMachine (releaseDraw fingerprint first watch))

def stopped (watch : Watch) : Watch :=
  { watch with reading := none, dispatcher := { watch.dispatcher with phase := .idle } }

/-- The process starts anew and ticks for as many steps as there are draws. -/
def tickAt (fingerprint : String) (now : Timestamp) (draws : List Nat) (watch : Watch) : Watch :=
  draws.foldl (advanceAt fingerprint) {
    stopped watch with
      dispatcher := {
        watch.dispatcher with
          phase := .scanning { now := now, limit := 100 }
            (listTriggers watch.dispatcher.store.tables)
      }
  }

theorem steps_advanceAt (fingerprint : String) (draws : List Nat) (watch : Watch)
    : ∃ events, Steps (WatchStep noMachine 5) watch events
          (draws.foldl (advanceAt fingerprint) watch)
        ∧ ∀ event ∈ events, event.fingerprint = some fingerprint := by
  induction draws generalizing watch with
  | nil => exact ⟨[], .nil watch, fun _ member => (List.not_mem_nil member).elim⟩
  | cons first rest ih =>
    obtain ⟨events, steps, found⟩ := ih (advanceAt fingerprint watch first)
    refine ⟨_ :: events, .cons (.step watch
      ⟨.advance (releaseDraw fingerprint first watch), some fingerprint⟩ _ (.advance _ _) ?_ ?_)
      steps, ?_⟩
    · intro draw tick trigger others same phase owner
      cases same
      unfold releaseDraw
      rw [phase]
    · intro now limit same
      cases same
    · intro event member
      rcases List.mem_cons.mp member with rfl | later
      · rfl
      · exact found event later

theorem steps_tickAt (fingerprint : String) (dated : IsDatetime now)
    (draws : List Nat) (watch : Watch)
    : ∃ events, Steps (WatchStep noMachine 5) watch events (tickAt fingerprint now draws watch)
        ∧ ∀ event ∈ events, event.fingerprint = some fingerprint := by
  have stops : WatchStep noMachine 5 watch ⟨.crash, some fingerprint⟩ (stopped watch) :=
    .step _ _ _ (.crash _) (fun _ _ _ _ same => by cases same) (fun _ _ same => by cases same)
  have starts : WatchStep noMachine 5 (stopped watch) ⟨.tick now 100, some fingerprint⟩
      ((stopped watch).follow 5 ⟨.tick now 100, some fingerprint⟩ _) :=
    .step _ _ _ (.tick _ _ _ rfl) (fun _ _ _ _ same => by cases same)
      (fun _ _ same => by cases same; exact dated)
  obtain ⟨events, steps, found⟩ := steps_advanceAt fingerprint draws _
  refine ⟨_ :: _ :: events, .cons stops (.cons starts steps), ?_⟩
  intro event member
  rcases List.mem_cons.mp member with rfl | member
  · rfl
  · rcases List.mem_cons.mp member with rfl | later
    · rfl
    · exact found event later

theorem unwatched_release : Unwatched 5 60 releaseWatch :=
  ⟨⟨releaseTrigger, List.mem_singleton_self _, rfl, 7, [], ["modified"], rfl⟩, rfl, rfl, rfl, rfl,
    rfl⟩

def oneSecond : Timestamp := 1000000

/-- The repository stays at a fingerprint; the process stops between a firing and its cursor. -/
def releaseRun (fingerprint : String) : Watch :=
  tickAt fingerprint (200 * oneSecond) [500, 600, 700, 800, 900]
    (tickAt fingerprint (100 * oneSecond) [300, 400]
      (tickAt fingerprint 0 [0, 100, 200] releaseWatch))

theorem steps_releaseRun (fingerprint : String)
    : ∃ events, Steps (WatchStep noMachine 5) releaseWatch events (releaseRun fingerprint)
        ∧ ∀ event ∈ events, event.fingerprint = some fingerprint := by
  have early : IsDatetime 0 := ⟨by decide, by decide⟩
  have middle : IsDatetime (100 * oneSecond) := ⟨by decide, by decide⟩
  have late : IsDatetime (200 * oneSecond) := ⟨by decide, by decide⟩
  obtain ⟨first, begins, found⟩ := steps_tickAt fingerprint early [0, 100, 200] releaseWatch
  obtain ⟨second, goesOn, found'⟩ := steps_tickAt fingerprint middle [300, 400] _
  obtain ⟨third, ends, found''⟩ := steps_tickAt fingerprint late [500, 600, 700, 800, 900] _
  refine ⟨_, (begins.append goesOn).append ends, ?_⟩
  intro event member
  rcases List.mem_append.mp member with member | member
  · rcases List.mem_append.mp member with member | member
    · exact found event member
    · exact found' event member
  · exact found'' event member

theorem debounced_release
    : (firingsOf (releaseRun "head-1").dispatcher.store 5).length = 1
      ∧ Debounced 5 60 (releaseRun "head-1") := by
  obtain ⟨events, steps, found⟩ := steps_releaseRun "head-1"
  refine ⟨by decide +kernel, debounced_of_run unwatched_release ?_ steps⟩
  intro event member read shown
  rw [found event member] at shown
  cases shown
  decide

/-- A fingerprint with an `@` fires in its episode over and over: its consumed cursor is read as
another fingerprint.
-/
def repeatedRun : Watch :=
  tickAt "v1@main" (400 * oneSecond) [1500, 1600]
    (tickAt "v1@main" (300 * oneSecond) [1000, 1100, 1200] (releaseRun "v1@main"))

theorem repeatedRun_fires
    : (∃ events, Steps (WatchStep noMachine 5) releaseWatch events repeatedRun)
      ∧ Unwatched 5 60 releaseWatch
      ∧ ¬ Debounced 5 60 repeatedRun := by
  have first : IsDatetime (300 * oneSecond) := ⟨by decide, by decide⟩
  have second : IsDatetime (400 * oneSecond) := ⟨by decide, by decide⟩
  obtain ⟨events, begins, -⟩ := steps_releaseRun "v1@main"
  obtain ⟨more, goesOn, -⟩ := steps_tickAt "v1@main" first [1000, 1100, 1200] (releaseRun "v1@main")
  obtain ⟨last, ends, -⟩ := steps_tickAt "v1@main" second [1500, 1600] _
  refine ⟨⟨_, (begins.append goesOn).append ends⟩, unwatched_release, ?_⟩
  intro debounced
  have once : ∀ fire ∈ repeatedRun.fires, (fire.episode.map Episode.fires) = some 0 := by
    intro fire member
    obtain ⟨episode, shown, -, -, none_⟩ := debounced.waited fire member
    rw [shown, Option.map_some, none_]
  have twice : (repeatedRun.fires.map (fun fire => fire.episode.map Episode.fires))
      = [some 0, some 1] := by
    decide +kernel
  have last : some 1 ∈ repeatedRun.fires.map (fun fire => fire.episode.map Episode.fires) := by
    rw [twice]
    exact List.mem_cons_of_mem _ (List.mem_singleton_self _)
  obtain ⟨fire, member, same⟩ := List.mem_map.mp last
  have zero := once fire member
  rw [same] at zero
  cases zero

end Releases

end Murder.Triggers

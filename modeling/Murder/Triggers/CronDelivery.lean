import Murder.Library.Dues
import Murder.Triggers.CatchUp
import Murder.Triggers.Debounce

/-! What a cron trigger of UTC fires over a run of ticks: the matching minutes behind its first
reading, in order, each once and without a hole, wherever a tick stopped.
-/

namespace Murder.Triggers

open Murder.Contracts Murder.Facts Murder.Workflows Library Library.Dues
open Library.Runs Library.Tables

/-- `fire.isoformat()` of an instant of UTC, the occurrence key and the cursor behind it. -/
def isoKey (instant : Int) : String := String.ofList (isoText instant)

/-- `DurableTriggerOccurrences.cron`: the first reading only sets the cursor. -/
def cronOccurrences [PyRepr] [DecimalDigits] (zones : String → Option Zone)
    (expression timezone : String) (cursor : Option String) (now : Timestamp)
    : Except CronError (List String) :=
  match cursor with
  | none => .ok [cursorPrefix ++ isoKey now]
  | some text =>
    match parseAware text.toList with
    | none => .error (.valueError ("Invalid isoformat string: '" ++ text ++ "'"))
    | some after =>
      (iterCronFires zones expression (.aware after) (.aware now) timezone 500).map
        (List.map isoKey)

/-- A clock reading before the last minute a `datetime` has. -/
def ClockReading (now : Int) : Prop := firstReading ≤ now ∧ now < lastMinute

def ObservesCron [PyRepr] [DecimalDigits] (zones : String → Option Zone) (state : Dispatcher)
    : DispatchEvent → Prop
  | .tick now _ => ClockReading now
  | .advance draw =>
    ∀ tick trigger rest, state.phase = .scanning tick (trigger :: rest)
      → ∀ expression timezone, trigger.spec = .cron expression timezone
        → draw.observed.toOption
          = (cronOccurrences zones expression timezone
              (getCursor state.store.tables trigger.triggerId) tick.now).toOption
  | _ => True

/-- A step of a dispatcher that asks the durable observer for its cron occurrences. -/
structure CronStep [FactPayloadDump] [FactPayloadAdapter] [PyRepr] [DecimalDigits]
    (resolver : WorkflowMachineResolver) (zones : String → Option Zone) (state : Dispatcher)
    (event : DispatchEvent) (next : Dispatcher) : Prop where
  step : DispatchStep resolver state event next
  observes : ObservesCron zones state event

/-- The minutes of the calendar an expression matches. -/
structure Matches (fields : CronFields) (minute : Int) : Prop where
  dated : IsDatetime minute
  whole : minuteLength ∣ minute
  due : fields.isDue minute = true

theorem isoKey_inj {left right : Int} (dated : IsDatetime left) (dated' : IsDatetime right)
    (same : isoKey left = isoKey right)
    : left = right := by
  have texts : isoText left = isoText right := String.ofList_injective same
  have back := parseAware_isoText dated
  rw [texts, parseAware_isoText dated'] at back
  exact (Option.some.inj back).symm

/-- No instant is written like a cursor move. -/
theorem isCursorKey_isoKey {instant : Int} (dated : IsDatetime instant)
    : isCursorKey (isoKey instant) = false := by
  rw [Bool.eq_false_iff]
  intro move
  obtain ⟨rest, text⟩ := List.isPrefixOf_iff_prefix.mp move
  have back := parseAware_isoText dated
  rw [isoKey, String.toList_ofList] at text
  rw [← text] at back
  cases back

section Observer

variable [PyRepr] [DecimalDigits] {zones : String → Option Zone} {expression : String}
  {fields : CronFields} {after now : Int} {keys : List String}

/-- Behind a cursor the observer reports a page of the matching minutes. -/
theorem cronOccurrences_page (utc : zones "UTC" = some Zone.utc)
    (accepted : parseCronExpression expression = .ok fields) (dated : IsDatetime after)
    (clock : ClockReading now)
    (reported : cronOccurrences zones expression "UTC" (some (isoKey after)) now = .ok keys)
    : ∃ minutes, keys = minutes.map isoKey ∧ Page (Matches fields) after minutes := by
  simp only [cronOccurrences, isoKey, String.toList_ofList, parseAware_isoText dated] at reported
  by_cases window : after < now
  · obtain ⟨fires, found, first⟩ :=
      iterCronFires_first utc accepted window (by decide : (1 : Int) ≤ 500) dated.1 clock.2
    rw [found] at reported
    cases reported
    refine ⟨fires, rfl, first.increasing, fun minute member => ?_, ?_⟩
    · have due := first.sound minute member
      have early := dated.1
      have later := due.later
      have within := due.within
      have late := clock.2
      have length := minuteLength_pos
      exact ⟨⟨⟨by omega, by omega⟩, due.whole, due.matching⟩, due.later⟩
    · intro fire member minute matches_ later early
      exact first.noneSkipped matches_.whole later matches_.due member early
  · have none_ : iterCronFires zones expression (.aware after) (.aware now) "UTC" 500 = .ok [] := by
      rw [iterCronFires, if_pos (.inl (not_lt.mp window))]
    rw [none_] at reported
    cases reported
    exact ⟨[], rfl, .nil⟩

end Observer

/-- The keys a tick holds of a cron trigger, behind its cursor. -/
def HeldMinutes (fields : CronFields) : Option Int → List String → Prop
  | none, keys => keys = [] ∨ ∃ now, IsDatetime now ∧ keys = [cursorPrefix ++ isoKey now]
  | some after, keys => ∃ minutes, keys = minutes.map isoKey ∧ Page (Matches fields) after minutes

/-- The minute in hand is fired and the next one, with the held ones behind it. -/
def ClaimedMinute (fields : CronFields) (cursor : Option Int) (fired : List Int) (key : String)
    (keys : List String) : Prop :=
  ∃ after minute minutes, cursor = some after ∧ key = isoKey minute ∧ keys = minutes.map isoKey
    ∧ minute ∈ fired ∧ Page (Matches fields) after (minute :: minutes)

def HoldsMinutes (fields : CronFields) (triggerId : Uuid) (cursor : Option Int)
    (fired : List Int) : Phase → Prop
  | .idle => True
  | .scanning .. => True
  | .working _ trigger keys _ => trigger.triggerId = triggerId → HeldMinutes fields cursor keys
  | .waking _ trigger key keys _ _ =>
    trigger.triggerId = triggerId → ClaimedMinute fields cursor fired key keys
  | .moving _ trigger key keys _ =>
    trigger.triggerId = triggerId → ClaimedMinute fields cursor fired key keys

def FiredUpTo (fields : CronFields) (first : Int) : Option Int → List Int → Prop
  | none, fired => fired = []
  | some after, fired => IsDatetime after ∧ Delivered (Matches fields) first after fired

/-- Where a cron trigger's cursor stands and what it fired, with what the tick holds of it. -/
structure Stands (fields : CronFields) (triggerId : Uuid) (first : Int) (cursor : Option Int)
    (fired : List Int) (state : Dispatcher) : Prop where
  placed : getCursor state.store.tables triggerId = cursor.map isoKey
  listed : firedKeys state.store triggerId = fired.map isoKey
  progress : FiredUpTo fields first cursor fired
  holds : HoldsMinutes fields triggerId cursor fired state.phase

def CronProgress (fields : CronFields) (triggerId : Uuid) (state : Dispatcher) : Prop :=
  ∃ first cursor fired, Stands fields triggerId first cursor fired state

variable {fields : CronFields} {triggerId : Uuid} {first : Int} {cursor : Option Int}
  {fired : List Int} {state next : Dispatcher} {store : TriggerDatabase} {trigger : TriggerRecord}
  {keys : List String} {key : String} {tick : Tick} {rest : List TriggerRecord}

theorem FiredUpTo.matches_ (progress : FiredUpTo fields first cursor fired) {minute : Int}
    (member : minute ∈ fired)
    : Matches fields minute := by
  cases cursor with
  | none =>
    rw [show fired = [] from progress] at member
    cases member
  | some after => exact (progress.2.sound minute member).1

/-- A step that moves neither the trigger's cursor nor its firings. -/
theorem Stands.beside (stands : Stands fields triggerId first cursor fired state)
    (cursors : getCursor next.store.tables triggerId = getCursor state.store.tables triggerId)
    (firings : firedKeys next.store triggerId = firedKeys state.store triggerId)
    (holds : HoldsMinutes fields triggerId cursor fired next.phase)
    : Stands fields triggerId first cursor fired next :=
  ⟨cursors.trans stands.placed, firings.trans stands.listed, stands.progress, holds⟩

theorem holdsMinutes_of_resting {phase : Phase}
    (resting : phase = .idle ∨ ∃ tick rest, phase = .scanning tick rest)
    : HoldsMinutes fields triggerId cursor fired phase := by
  rcases resting with rfl | ⟨tick, rest, rfl⟩
  · trivial
  · trivial

/-- The key in hand of the trigger: the cursor's first move, or the next minute. -/
theorem HeldMinutes.head (held : HeldMinutes fields cursor (key :: keys))
    : (cursor = none ∧ keys = [] ∧ ∃ now, IsDatetime now ∧ key = cursorPrefix ++ isoKey now)
      ∨ ∃ after minute minutes, cursor = some after ∧ key = isoKey minute
          ∧ keys = minutes.map isoKey ∧ Page (Matches fields) after (minute :: minutes) := by
  cases cursor with
  | none =>
    rcases held with empty | ⟨now, dated, same⟩
    · cases empty
    · cases same
      exact .inl ⟨rfl, rfl, now, dated, rfl⟩
  | some after =>
    obtain ⟨minutes, same, page⟩ := held
    cases minutes with
    | nil => cases same
    | cons minute minutes =>
      obtain ⟨rfl, rfl⟩ := List.cons.inj same
      exact .inr ⟨after, minute, minutes, rfl, rfl, rfl, page⟩

theorem Stands.skip
    (stands : Stands fields triggerId first cursor fired
      { store := store, phase := .working tick trigger (key :: keys) rest })
    (move : isCursorKey key = true)
    : CronProgress fields triggerId
        { store := setCursor trigger.triggerId (cursorText key) tick.now store
          phase := .working tick trigger keys rest } := by
  have unfired := setCursor_unfired trigger.triggerId (cursorText key) tick.now store
  by_cases owner : trigger.triggerId = triggerId
  · rcases HeldMinutes.head (stands.holds owner) with
      ⟨rfl, rfl, now, dated, rfl⟩ | ⟨after, minute, minutes, -, rfl, -, page⟩
    · have empty : fired = [] := stands.progress
      refine ⟨now, some now, fired, ?_, unfired.firedKeys.trans stands.listed, ⟨dated, ?_⟩, ?_⟩
      · rw [owner, getCursor_setCursor, cursorText_move]
        rfl
      · rw [empty]
        exact .none_
      · exact fun _ => ⟨[], rfl, .nil⟩
    · rw [isCursorKey_isoKey page.next.wanted.dated] at move
      cases move
  · refine ⟨first, cursor, fired, stands.beside ?_ unfired.firedKeys ?_⟩
    · exact getCursor_setCursor_other owner _ _ _
    · exact fun same => absurd same owner

theorem Stands.fire {stop : TriggerDatabase} {firing : TriggerFiringRecord}
    (stands : Stands fields triggerId first cursor fired
      { store := store, phase := .working tick trigger (key :: keys) rest })
    (occurrence : isCursorKey key = false)
    (committed : Fired trigger.triggerId key firing store stop)
    : CronProgress fields triggerId
        { store := stop, phase := .waking tick trigger key keys rest firing.workflowId } := by
  have firings : firedKeys stop triggerId = firedKeys store triggerId
      ++ if trigger.triggerId = triggerId then [key] else [] :=
    committed.firedKeys
  have cursors : getCursor stop.tables triggerId = getCursor store.tables triggerId := by
    unfold getCursor
    rw [committed.cursors]
  by_cases owner : trigger.triggerId = triggerId
  · rcases HeldMinutes.head (stands.holds owner) with
      ⟨rfl, rfl, now, dated, rfl⟩ | ⟨after, minute, minutes, rfl, rfl, rfl, page⟩
    · rw [isCursorKey_move] at occurrence
      cases occurrence
    · have fresh := findFiring_none committed.fresh
      rw [owner, stands.listed] at fresh
      rw [if_pos owner, stands.listed] at firings
      refine ⟨first, some after, fired ++ [minute], cursors.trans stands.placed, ?_,
        ⟨stands.progress.1, ?_⟩, ?_⟩
      · rw [firings, List.map_append]
        rfl
      · exact stands.progress.2.deliver page.next (fun old => fresh (List.mem_map_of_mem old))
      · exact fun _ => ⟨after, minute, minutes, rfl, rfl, rfl, by simp, page⟩
  · rw [if_neg owner, List.append_nil] at firings
    exact ⟨first, cursor, fired, stands.beside cursors firings (fun same => absurd same owner)⟩

/-- An occurrence met again was fired before, so the tick only moves the cursor over it. -/
theorem Stands.meet
    (stands : Stands fields triggerId first cursor fired
      { store := store, phase := .working tick trigger (key :: keys) rest })
    (occurrence : isCursorKey key = false) {firing : TriggerFiringRecord}
    (found : findFiring store.tables trigger.triggerId key = some firing)
    : CronProgress fields triggerId
        { store := store, phase := .moving tick trigger key keys rest } := by
  refine ⟨first, cursor, fired, stands.beside rfl rfl (fun owner => ?_)⟩
  rcases HeldMinutes.head (stands.holds owner) with
    ⟨rfl, rfl, now, dated, rfl⟩ | ⟨after, minute, minutes, rfl, rfl, rfl, page⟩
  · rw [isCursorKey_move] at occurrence
    cases occurrence
  · have member := findFiring_some found
    rw [owner, stands.listed] at member
    obtain ⟨other, old, same⟩ := List.mem_map.mp member
    have other_matches := stands.progress.matches_ old
    have equal := isoKey_inj other_matches.dated page.next.wanted.dated same
    exact ⟨after, minute, minutes, rfl, rfl, rfl, equal ▸ old, page⟩

/-- The cursor follows the minute in hand. -/
theorem Stands.move {phase : Phase}
    (stands : Stands fields triggerId first cursor fired
      { store := store, phase := .moving tick trigger key keys rest })
    (stops : phase = .idle ∨ ∃ later, phase = .working later trigger keys rest)
    : CronProgress fields triggerId
        { store := setCursor trigger.triggerId key tick.now store, phase := phase } := by
  have unfired := setCursor_unfired trigger.triggerId key tick.now store
  by_cases owner : trigger.triggerId = triggerId
  · obtain ⟨after, minute, minutes, rfl, rfl, rfl, member, page⟩ := stands.holds owner
    refine ⟨first, some minute, fired, ?_, unfired.firedKeys.trans stands.listed,
      ⟨page.next.wanted.dated, stands.progress.2.move page.next member⟩, ?_⟩
    · rw [owner, getCursor_setCursor]
      rfl
    · rcases stops with rfl | ⟨later, rfl⟩
      · trivial
      · exact fun _ => ⟨minutes, rfl, page.tail⟩
  · refine ⟨first, cursor, fired, stands.beside ?_ unfired.firedKeys ?_⟩
    · exact getCursor_setCursor_other owner _ _ _
    · rcases stops with rfl | ⟨later, rfl⟩
      · trivial
      · exact fun same => absurd same owner

theorem ClockReading.dated {now : Int} (clock : ClockReading now) : IsDatetime now :=
  ⟨clock.1, clock.2.trans (lt_add_of_pos_right _ minuteLength_pos)⟩

section Reading

variable [PyRepr] [DecimalDigits] {zones : String → Option Zone} {expression : String}

/-- Reading the occurrences of the trigger holds its first move, or a page behind its cursor. -/
theorem FiredUpTo.reading (progress : FiredUpTo fields first cursor fired)
    (utc : zones "UTC" = some Zone.utc)
    (accepted : parseCronExpression expression = .ok fields) {now : Int}
    (clock : ClockReading now)
    (reported
      : cronOccurrences zones expression "UTC" (cursor.map isoKey) now = .ok keys)
    : HeldMinutes fields cursor keys := by
  cases cursor with
  | none =>
    cases reported
    exact .inr ⟨now, clock.dated, rfl⟩
  | some after => exact cronOccurrences_page utc accepted progress.1 clock reported

end Reading

section Runs

variable [FactPayloadDump] [FactPayloadAdapter] {resolver : WorkflowMachineResolver} {draw : Draw}

theorem occurrences_of_working
    (goes : ({ store := store, phase := .scanning tick (trigger :: rest) } : Dispatcher).advance
      resolver draw = next)
    (working : next.phase = .working tick trigger keys rest)
    : occurrences store trigger draw.observed = .ok keys := by
  subst goes
  unfold Dispatcher.advance at working
  cases occurs : occurrences store trigger draw.observed with
  | ok read =>
    simp only [occurs] at working
    injection working with _ _ same
    rw [same]
  | error raised =>
    simp only [occurs] at working
    cases working

variable [PyRepr] [DecimalDigits] {zones : String → Option Zone} {expression : String}

theorem CronProgress.advanced (progress : CronProgress fields triggerId state)
    (utc : zones "UTC" = some Zone.utc)
    (accepted : parseCronExpression expression = .ok fields)
    (spec
      : ∀ trigger ∈ state.phase.triggers,
          trigger.triggerId = triggerId → trigger.spec = .cron expression "UTC")
    (windows : ∀ trigger ∈ state.store.tables.triggers, trigger.dedupWindowSeconds = 0)
    (clocks : ∀ now, state.phase.clock = some now → ClockReading now)
    (observes : ObservesCron zones state (.advance draw))
    : CronProgress fields triggerId (state.advance resolver draw) := by
  obtain ⟨first, cursor, fired, stands⟩ := progress
  have advances := advance_advances resolver draw state
  generalize goes : state.advance resolver draw = next at advances
  obtain ⟨store, phase⟩ := state
  cases advances with
  | settled fewer still resting =>
    refine ⟨first, cursor, fired, stands.beside rfl rfl (holdsMinutes_of_resting ?_)⟩
    rcases resting with rfl | ⟨tick, rest, rfl, -⟩
    · exact .inl rfl
    · exact .inr ⟨tick, rest, rfl⟩
  | @read tick trigger keys rest observed occurs =>
    refine ⟨first, cursor, fired, stands.beside rfl rfl (fun owner => ?_)⟩
    have cron := spec trigger (by simp [Phase.triggers]) owner
    have read := occurrences_of_working goes rfl
    have reported := observes tick trigger rest rfl expression "UTC" cron
    unfold occurrences at read
    rw [cron] at read
    rw [show draw.observed = .ok keys from read, owner, stands.placed] at reported
    cases answer : cronOccurrences zones expression "UTC" (cursor.map isoKey) tick.now with
    | ok minutes =>
      rw [answer] at reported
      cases reported
      exact stands.progress.reading utc accepted (clocks tick.now rfl) answer
    | error raised =>
      rw [answer] at reported
      cases reported
  | skipped move => exact stands.skip move
  | repeated occurrence unfired =>
    rcases unfired with ⟨firing, found⟩ | ⟨other, member, windowed⟩
    · exact stands.meet occurrence found
    · exact absurd (windows other member) windowed
  | fired occurrence committed stamped => exact stands.fire occurrence committed
  | woke outside => exact ⟨first, cursor, fired, stands.beside rfl rfl stands.holds⟩
  | moved stops =>
    refine stands.move ?_
    rcases stops with rfl | ⟨later, -, rfl⟩
    · exact .inl rfl
    · exact .inr ⟨later, rfl⟩

/-- What a run keeps of a registered cron trigger. -/
structure CronSound (triggers : List TriggerRecord) (fields : CronFields) (triggerId : Uuid)
    (state : Dispatcher) : Prop where
  sound : Sound triggers state
  clocks : ∀ now, state.phase.clock = some now → ClockReading now
  progress : CronProgress fields triggerId state

theorem CronSound.step {triggers : List TriggerRecord} {event : DispatchEvent}
    (kept : CronSound triggers fields trigger.triggerId state)
    (known : trigger.unmarked ∈ triggers) (spec : trigger.spec = .cron expression "UTC")
    (utc : zones "UTC" = some Zone.utc)
    (accepted : parseCronExpression expression = .ok fields)
    (step : CronStep resolver zones state event next)
    : CronSound triggers fields trigger.triggerId next := by
  refine ⟨kept.sound.step step.step, ?_, ?_⟩
  · intro now read
    cases step.step with
    | tick later limit idle =>
      cases read
      exact step.observes
    | advance draw =>
      rcases (advance_advances resolver draw state).clock with none_ | same
      · rw [none_] at read
        cases read
      · exact kept.clocks now (same ▸ read)
    | crash => cases read
    | outside base pending outside => exact kept.clocks now read
  · obtain ⟨first, cursor, fired, stands⟩ := kept.progress
    cases step.step with
    | tick now limit idle => exact ⟨first, cursor, fired, stands.beside rfl rfl trivial⟩
    | advance draw =>
      refine kept.progress.advanced utc accepted (fun other member same => ?_)
        kept.sound.windows kept.clocks step.observes
      have held := kept.sound.known other member
      rw [← kept.sound.registered] at held known
      have equal := congrArg TriggerRecord.spec (registered_unique held known same)
      exact equal.trans spec
    | crash => exact ⟨first, cursor, fired, stands.beside rfl rfl trivial⟩
    | outside base pending outside =>
      exact ⟨first, cursor, fired, stands.beside rfl rfl stands.holds⟩

end Runs

namespace Leap

local instance : FactPayloadAdapter := ⟨fun _ _ => none, fun _ => none⟩

local instance : FactPayloadDump := ⟨fun _ => .nil⟩

local instance : DecimalDigits := digits

local instance : PyRepr := texts

/-- What the durable observer reports to the tick under way. -/
def reported (state : Dispatcher) : Except Failure (List String) :=
  match state.phase with
  | .scanning tick (trigger :: _) =>
    match trigger.spec with
    | .cron expression timezone =>
      (cronOccurrences zones expression timezone
        (getCursor state.store.tables trigger.triggerId) tick.now).mapError
          (fun _ => .integrityError)
    | _ => .ok []
  | _ => .ok []

end Leap

end Murder.Triggers

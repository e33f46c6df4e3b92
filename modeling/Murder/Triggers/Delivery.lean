import Murder.Triggers.Dispatcher

/-! What a fire commits: an occurrence's firing, and the workflow it started or the signal it
sent, appear together and once.
-/

namespace Murder.Triggers

open Murder.Contracts Murder.Facts Murder.Storage Murder.Workflows Library.Tables
open Library.Transactions

variable {start stop : TriggerDatabase}

theorem returns_onBase {α : Type} {program : Sql α} {value : α}
    : Returns (onBase program) start value stop
      ↔ Returns program start.base value stop.base ∧ stop.tables = start.tables := by
  unfold Returns onBase
  cases program start.base with
  | error raised base => simp
  | ok result base =>
    constructor
    · intro h
      cases h
      exact ⟨rfl, rfl⟩
    · intro h
      obtain ⟨same, tables⟩ := h
      cases same
      cases stop
      cases tables
      rfl

/-- A program over the database touches no trigger table. -/
theorem final_onBase {α : Type} (program : Sql α) (start : TriggerDatabase)
    : final (onBase program start) = { start with base := final (program start.base) } := by
  unfold onBase
  cases program start.base <;> rfl

/-- The action of an occurrence: one started run, or one signal in the inbox. -/
inductive Performed (triggerId : Uuid) (occurrenceKey : String) (target : TriggerTarget)
    (workflowId : Uuid) (start stop : Database) : Prop
  | started {run} (starts : target.starts = true) (byTrigger : run.startedBy = triggerPrincipal)
    (same : run.workflowId = workflowId) (created : Created run start stop)
    (grows : FactsGrow start stop)
  | signalled {candidate record} (signals : target.addressee = some workflowId)
    (addressed : candidate.workflowId = workflowId)
    (key : candidate.deduplicationKey = occurrenceSignalKey triggerId occurrenceKey)
    (enqueued : Enqueued candidate record start stop)

variable {triggerId workflowId : Uuid} {occurrenceKey : String} {target : TriggerTarget}

theorem performTarget_returns {supply : Supply} {now : Timestamp} {start stop : Database}
    (h : Returns (performTarget supply triggerId occurrenceKey now target) start workflowId stop)
    : Performed triggerId occurrenceKey target workflowId start stop := by
  cases target with
  | startWorkflow definitionName definitionVersion inputs =>
    obtain ⟨_, middle, hc, h⟩ := returns_bind.mp h
    obtain ⟨rfl, rfl⟩ := returns_pure.mp h
    exact .started rfl rfl rfl (createWorkflowRun_created hc)
      ((createWorkflowRun_grows _ _ _).returns hc)
  | signalWorkflow target signalName correlationKey payload =>
    obtain ⟨record, middle, he, h⟩ := returns_bind.mp h
    obtain ⟨rfl, rfl⟩ := returns_pure.mp h
    exact .signalled rfl rfl rfl (enqueueWorkflowSignal_returns he).2

/-- A trigger without the mark of its last firing. -/
def TriggerRecord.unmarked (trigger : TriggerRecord) : TriggerRecord :=
  { trigger with lastFiredAt := none }

/-- The registered triggers, in table order; no firing changes them. -/
def registered (store : TriggerDatabase) : List TriggerRecord :=
  store.tables.triggers.rows.map TriggerRecord.unmarked

/-- A fire committed the action of an occurrence with its firing. -/
structure Fired (triggerId : Uuid) (occurrenceKey : String) (firing : TriggerFiringRecord)
    (start stop : TriggerDatabase) : Prop where
  trigger : ∃ trigger ∈ start.tables.triggers, trigger.triggerId = triggerId
    ∧ Performed triggerId occurrenceKey trigger.target firing.workflowId start.base stop.base
  owner : firing.triggerId = triggerId
  key : firing.occurrenceKey = occurrenceKey
  fresh : findFiring start.tables triggerId occurrenceKey = none
  firings : start.tables.firings.insert? firing = some stop.tables.firings
  registered : Keeps registered start stop
  cursors : stop.tables.cursors = start.tables.cursors

theorem insertFiring_returns {firing : TriggerFiringRecord}
    {result : Unit} (h : Returns (insertFiring firing) start result stop)
    : ∃ firings, start.tables.firings.insert? firing = some firings
        ∧ stop = { start with tables := { start.tables with firings := firings } } := by
  unfold Returns insertFiring at h
  split at h
  · next firings _ inserted =>
      cases h
      exact ⟨firings, inserted, rfl⟩
  · cases h

theorem markFired_registered (triggerId : Uuid) (now : Timestamp) (store : TriggerDatabase)
    : Keeps registered store (markFired triggerId now store) := by
  change (store.tables.triggers.rows.map _).map _ = _
  rw [List.map_map]
  refine List.map_congr_left (fun trigger _ => ?_)
  dsimp only [Function.comp_apply]
  split
  · rfl
  · rfl

/-- What a fire that returns did: it found the occurrence fired before, a dedup window held it
back, or it committed the occurrence.
-/
inductive FireOutcome (triggerId : Uuid) (occurrenceKey : String) (now : Timestamp)
    (start : TriggerDatabase) : TriggerFiringRecord → Option Uuid → TriggerDatabase → Prop
  | found {firing} (found : findFiring start.tables triggerId occurrenceKey = some firing)
    : FireOutcome triggerId occurrenceKey now start firing none start
  | held {firing} (windowed : ∃ trigger ∈ start.tables.triggers, trigger.dedupWindowSeconds ≠ 0)
    : FireOutcome triggerId occurrenceKey now start firing none start
  | committed {firing stop} (fired : Fired triggerId occurrenceKey firing start stop)
    (stamped : firing.firedAt = now)
    : FireOutcome triggerId occurrenceKey now start firing (some firing.workflowId) stop

theorem fireTrigger_outcome {supply : Supply} {now : Timestamp} {firing : TriggerFiringRecord}
    {woken : Option Uuid}
    (h : Returns (fireTrigger supply triggerId occurrenceKey now) start (firing, woken) stop)
    : FireOutcome triggerId occurrenceKey now start firing woken stop := by
  obtain ⟨_, _, hr, h⟩ := returns_bind.mp h
  obtain ⟨-, rfl⟩ := returns_raiseIf.mp hr
  obtain ⟨store, _, hg, h⟩ := returns_bind.mp (returns_transaction.mp h)
  obtain ⟨rfl, rfl⟩ := returns_get.mp hg
  cases found : findFiring start.tables triggerId occurrenceKey with
  | some existing =>
    rw [found] at h
    obtain ⟨same, rfl⟩ := returns_pure.mp h
    cases same
    exact .found found
  | none =>
    rw [found] at h
    obtain ⟨row, _, hrow, h⟩ := returns_bind.mp h
    obtain ⟨selected, rfl⟩ := returns_orRaise.mp hrow
    obtain ⟨member, holds⟩ := Table.mem_of_find? selected
    simp only [Bool.and_eq_true, beq_iff_eq] at holds
    dsimp only at h
    generalize heldBack : (if row.dedupWindowSeconds = 0 then none
      else recentFiring start.tables triggerId (now - seconds row.dedupWindowSeconds)) = recent
      at h
    cases recent with
    | some recent =>
      obtain ⟨same, rfl⟩ := returns_pure.mp h
      cases same
      refine .held ⟨row, member, fun noWindow => ?_⟩
      rw [if_pos noWindow] at heldBack
      cases heldBack
    | none =>
      obtain ⟨workflowId, performed, hp, h⟩ := returns_bind.mp h
      obtain ⟨hp, tables⟩ := returns_onBase.mp hp
      obtain ⟨_, inserted, hi, h⟩ := returns_bind.mp h
      obtain ⟨firings, insert, rfl⟩ := insertFiring_returns hi
      obtain ⟨_, marked, hm, h⟩ := returns_bind.mp h
      obtain rfl := returns_modify.mp hm
      obtain ⟨same, rfl⟩ := returns_pure.mp h
      cases same
      rw [tables] at insert
      refine .committed ⟨⟨row, member, holds.1, performTarget_returns hp⟩, rfl, rfl, found,
        insert, ?_, ?_⟩ rfl
      · refine Eq.trans (markFired_registered _ _ _) ?_
        change performed.tables.triggers.rows.map _ = _
        rw [tables]
        rfl
      · change performed.tables.cursors = _
        rw [tables]

theorem fireTrigger_raises {supply : Supply} {now : Timestamp} {raised : Failure}
    (h : Raises (fireTrigger supply triggerId occurrenceKey now) start raised stop)
    : stop = start := by
  rcases raises_bind.mp h with h | ⟨_, _, hr, h⟩
  · exact (raises_raiseIf h).2
  · obtain ⟨-, rfl⟩ := returns_raiseIf.mp hr
    exact raises_transaction h

def startsWorkflow (triggers : List TriggerRecord) (firing : TriggerFiringRecord) : Bool :=
  triggers.any (fun trigger =>
    trigger.triggerId == firing.triggerId && trigger.target.starts)

/-- No window suppresses an occurrence, the started workflows are those of the firings, and
every other firing has its signal in an inbox.
-/
structure Ledger (store : TriggerDatabase) : Prop where
  windows : ∀ trigger ∈ registered store, trigger.dedupWindowSeconds = 0
  started
    : startedByTriggers store.base
      = (store.tables.firings.select (startsWorkflow (registered store))).map
          TriggerFiringRecord.workflowId
  signalled
    : ∀ firing ∈ store.tables.firings,
        ∀ trigger ∈ registered store,
          trigger.triggerId = firing.triggerId
          → ∀ workflowId,
              trigger.target.addressee = some workflowId
              → ∃ signal ∈ store.base.workflows.signals,
                  signal.workflowId = workflowId
                  ∧ signal.deduplicationKey
                    = occurrenceSignalKey firing.triggerId firing.occurrenceKey

/-- A step that fires nothing: cursors and pending rows may change, and the database as
others may change it.
-/
structure Unfired (start stop : TriggerDatabase) : Prop where
  registered : Keeps registered start stop
  firings : stop.tables.firings = start.tables.firings
  outside : Outside start.base stop.base

theorem Outside.refl (db : Database) : Outside db db :=
  ⟨refl_of FactsGrow db, rfl, fun signal member => ⟨signal, member, rfl, rfl⟩⟩

theorem Unfired.ledger (h : Unfired start stop) (ledger : Ledger start)
    : Ledger stop := by
  have same : Murder.Triggers.registered stop = Murder.Triggers.registered start := h.registered
  constructor
  · rw [same]
    exact ledger.windows
  · rw [h.outside.started, h.firings, same]
    exact ledger.started
  · intro firing member trigger known owner workflowId addressee
    rw [h.firings] at member
    rw [same] at known
    obtain ⟨signal, stored, to_, key⟩ :=
      ledger.signalled firing member trigger known owner workflowId addressee
    obtain ⟨kept, still, sameTo, sameKey⟩ := h.outside.signals signal stored
    exact ⟨kept, still, sameTo.trans to_, sameKey.trans key⟩

variable {store : TriggerDatabase}

theorem mem_registered {trigger : TriggerRecord} (member : trigger ∈ store.tables.triggers)
    : trigger.unmarked ∈ registered store :=
  List.mem_map.mpr ⟨trigger, member, rfl⟩

theorem registered_unique {trigger other : TriggerRecord}
    (ht : trigger ∈ registered store) (ho : other ∈ registered store)
    (same : trigger.triggerId = other.triggerId)
    : trigger = other := by
  obtain ⟨first, hf, rfl⟩ := List.mem_map.mp ht
  obtain ⟨second, hs, rfl⟩ := List.mem_map.mp ho
  have equal : first.triggerId = second.triggerId := same
  rw [Table.eq_of_clash hf hs (by simp [triggerClash, equal]) (by simp [triggerClash, equal])]

/-- What an enqueue leaves in the inbox: every signal it held, and one under its key. -/
theorem enqueued_signals {candidate record : WorkflowSignalRecord} {start stop : Database}
    (h : Enqueued candidate record start stop)
    : (∀ signal ∈ start.workflows.signals, signal ∈ stop.workflows.signals)
      ∧ ∃ signal ∈ stop.workflows.signals, signal.workflowId = candidate.workflowId
        ∧ signal.deduplicationKey = candidate.deduplicationKey := by
  cases h with
  | converged member workflow key payload =>
    exact ⟨fun _ stored => stored, record, member, workflow, key⟩
  | appended same addressed fresh rows frame =>
    subst same
    simp only [Table.mem_def, rows, List.mem_append, List.mem_singleton]
    exact ⟨fun signal stored => .inl stored, record, .inr rfl, rfl, rfl⟩

theorem enqueued_runs {candidate record : WorkflowSignalRecord} {start stop : Database}
    (h : Enqueued candidate record start stop)
    : stop.workflows.runs = start.workflows.runs ∧ stop.facts = start.facts := by
  cases h with
  | converged member workflow key payload => exact ⟨rfl, rfl⟩
  | appended same addressed fresh rows frame =>
    simp only [Keeps, outsideInbox, Prod.mk.injEq] at frame
    exact ⟨frame.2.1, frame.2.2.2.2.1⟩

theorem startedByTriggers_created {run : WorkflowRunRecord} {start stop : Database}
    (h : Created run start stop) (byTrigger : run.startedBy = triggerPrincipal)
    : startedByTriggers stop = startedByTriggers start ++ [run.workflowId] := by
  unfold startedByTriggers Table.select
  rw [(Table.insert?_eq_some h.runs).2, List.filter_append, List.map_append]
  simp [byTrigger]

theorem Performed.grows {start stop : Database}
    (h : Performed triggerId occurrenceKey target workflowId start stop)
    : FactsGrow start stop := by
  cases h with
  | started starts byTrigger same created grows => exact grows
  | signalled signals addressed key enqueued =>
    exact factsGrow_of_same (enqueued_runs enqueued).2

theorem Performed.signals_kept {start stop : Database}
    (h : Performed triggerId occurrenceKey target workflowId start stop)
    : ∀ signal ∈ start.workflows.signals, signal ∈ stop.workflows.signals := by
  cases h with
  | started starts byTrigger same created grows =>
    intro signal member
    rwa [created.signals]
  | signalled signals addressed key enqueued => exact (enqueued_signals enqueued).1

/-- A fire keeps the ledger: its row appears with its run or its signal. -/
theorem Fired.ledger {firing : TriggerFiringRecord}
    (h : Fired triggerId occurrenceKey firing start stop) (ledger : Ledger start)
    : Ledger stop := by
  obtain ⟨trigger, stored, named, performed⟩ := h.trigger
  have same : Murder.Triggers.registered stop = Murder.Triggers.registered start := h.registered
  have known := mem_registered stored
  have owner : trigger.unmarked.triggerId = firing.triggerId := named.trans h.owner.symm
  have rows := (Table.insert?_eq_some h.firings).2
  constructor
  · rw [same]
    exact ledger.windows
  · rw [same]
    unfold Table.select
    rw [rows, List.filter_append, List.map_append]
    have before := ledger.started
    unfold Table.select at before
    rw [← before]
    cases performed with
    | started starts byTrigger equal created grows =>
      have counts : startsWorkflow (Murder.Triggers.registered start) firing = true := by
        refine List.any_eq_true.mpr ⟨_, known, ?_⟩
        rw [Bool.and_eq_true, beq_iff_eq]
        exact ⟨owner, starts⟩
      rw [startedByTriggers_created created byTrigger, equal]
      simp [counts]
    | signalled signals addressed key enqueued =>
      have not_ : startsWorkflow (Murder.Triggers.registered start) firing = false := by
        refine List.any_eq_false.mpr (fun other member => ?_)
        rw [Bool.and_eq_true, beq_iff_eq]
        intro both
        obtain rfl := registered_unique member known (both.1.trans owner.symm)
        have target : trigger.target.starts = true := both.2
        cases ht : trigger.target with
        | startWorkflow => rw [ht] at signals; cases signals
        | signalWorkflow => rw [ht] at target; cases target
      unfold startedByTriggers
      rw [(enqueued_runs enqueued).1]
      simp [not_]
  · intro other member registered_ known' owner' workflowId addressee
    rw [same] at known'
    rw [Table.mem_def, rows, List.mem_append, List.mem_singleton] at member
    rcases member with old | rfl
    · obtain ⟨signal, still, to_, key⟩ :=
        ledger.signalled other old registered_ known' owner' workflowId addressee
      exact ⟨signal, performed.signals_kept signal still, to_, key⟩
    · obtain rfl := registered_unique known' known (owner'.trans owner.symm)
      cases performed with
      | started starts byTrigger equal created grows =>
        cases ht : trigger.target with
        | startWorkflow => simp [TriggerRecord.unmarked, ht, TriggerTarget.addressee] at addressee
        | signalWorkflow => rw [ht] at starts; cases starts
      | signalled signals addressed key enqueued =>
        have equal : some _ = some workflowId := signals.symm.trans addressee
        obtain ⟨signal, still, to_, named_⟩ := (enqueued_signals enqueued).2
        refine ⟨signal, still, ?_, ?_⟩
        · rw [to_, addressed]
          exact Option.some.inj equal
        · rw [named_, key, h.owner, h.key]

def Phase.triggers : Phase → List TriggerRecord
  | .idle => []
  | .scanning _ rest => rest
  | .working _ trigger _ rest => trigger :: rest
  | .waking _ trigger _ _ rest _ => trigger :: rest
  | .moving _ trigger _ _ rest => trigger :: rest

theorem replaced_keeps (plan : WorkflowTransitionPlan) (at_ : Timestamp)
    : Table.KeepsKeys runClash (replaced plan at_) :=
  ⟨fun _ _ => rfl, fun _ _ => rfl⟩

/-- A decision is what others may do: it starts no run and keeps every signal. -/
theorem decideOnce_outside [FactPayloadAdapter] (resolver : WorkflowMachineResolver)
    (supply : Supply) (workflowId : Uuid) (now : Timestamp)
    : Relates Outside (decideOnce resolver supply workflowId now) := by
  intro start
  have decided := decideOnce_decided resolver supply workflowId now 3 start
  have grows := decideOnce_grows resolver supply workflowId now 3 start
  generalize final (decideOnce resolver supply workflowId now 3 start) = stop at decided grows
  cases decided with
  | nothing => exact Outside.refl start
  | committed commit =>
    refine ⟨grows, ?_, ?_⟩
    · unfold startedByTriggers
      rw [commit.installed.runs]
      exact Table.select_map_update (replaced_keeps _ _) (fun _ => rfl) (fun _ => rfl)
    · intro signal member
      rw [commit.installed.signals]
      simp only [replaceRun, markConsumed, Table.mem_update]
      refine ⟨_, ⟨signal, member, rfl⟩, ?_⟩
      split
      · exact ⟨rfl, rfl⟩
      · exact ⟨rfl, rfl⟩

def Phase.clock : Phase → Option Timestamp
  | .idle => none
  | .scanning tick _ => some tick.now
  | .working tick _ _ _ => some tick.now
  | .waking tick _ _ _ _ _ => some tick.now
  | .moving tick _ _ _ _ => some tick.now

def Phase.Still : Phase → Prop
  | .idle => True
  | .scanning _ _ => True
  | .working _ _ [] _ => True
  | .working _ _ (key :: _) _ => isCursorKey key = false
  | .waking .. => False
  | .moving .. => False

section Advance

variable [FactPayloadDump]

/-- The steps of a tick, whatever the dedup windows are. -/
inductive Advances (store : TriggerDatabase) : Phase → Dispatcher → Prop
  | settled {phase next} (fewer : next.triggers ⊆ phase.triggers) (still : phase.Still)
    (resting
      : next = .idle ∨ ∃ tick rest, next = .scanning tick rest ∧ phase.clock = some tick.now)
    : Advances store phase { store := store, phase := next }
  | read {tick trigger keys rest observed} (occurs : occurrences store trigger observed = .ok keys)
    : Advances store (.scanning tick (trigger :: rest))
        { store := store, phase := .working tick trigger keys rest }
  | skipped {tick trigger key keys rest} (move : isCursorKey key = true)
    : Advances store (.working tick trigger (key :: keys) rest)
        {
          store := setCursor trigger.triggerId (cursorText key) tick.now store
          phase := .working tick trigger keys rest
        }
  | repeated {tick trigger key keys rest} (occurrence : isCursorKey key = false)
    (unfired
      : (∃ firing, findFiring store.tables trigger.triggerId key = some firing)
        ∨ ∃ other ∈ store.tables.triggers, other.dedupWindowSeconds ≠ 0)
    : Advances store (.working tick trigger (key :: keys) rest)
        { store := store, phase := .moving tick trigger key keys rest }
  | fired {tick trigger key keys rest firing stop} (occurrence : isCursorKey key = false)
    (fired : Fired trigger.triggerId key firing store stop) (stamped : firing.firedAt = tick.now)
    : Advances store (.working tick trigger (key :: keys) rest)
        { store := stop, phase := .waking tick trigger key keys rest firing.workflowId }
  | woke {tick trigger key keys rest workflowId base} (outside : Outside store.base base)
    : Advances store (.waking tick trigger key keys rest workflowId)
        { store := { store with base := base }, phase := .moving tick trigger key keys rest }
  | moved {tick trigger key keys rest phase}
    (stops
      : phase = .idle
        ∨ ∃ later, later.now = tick.now ∧ phase = .working later trigger keys rest)
    : Advances store (.moving tick trigger key keys rest)
        { store := setCursor trigger.triggerId key tick.now store, phase := phase }

/-- Every step of a tick is one of the listed ones. -/
theorem advance_advances [FactPayloadAdapter] (resolver : WorkflowMachineResolver)
    (draw : Draw) (state : Dispatcher)
    : Advances state.store state.phase (state.advance resolver draw) := by
  obtain ⟨store, phase⟩ := state
  cases phase with
  | idle => exact .settled (by simp) trivial (.inl rfl)
  | scanning tick triggers =>
    cases triggers with
    | nil => exact .settled (by simp [Phase.triggers]) trivial (.inl rfl)
    | cons trigger rest =>
      cases h : occurrences store trigger draw.observed with
      | ok keys =>
        simp only [Dispatcher.advance, h]
        exact .read h
      | error raised =>
        simp only [Dispatcher.advance, h]
        exact .settled (by simp [Phase.triggers]) trivial (.inl rfl)
  | working tick trigger keys rest =>
    cases keys with
    | nil => exact .settled (by simp [Phase.triggers]) trivial (.inr ⟨tick, rest, rfl, rfl⟩)
    | cons key keys =>
      cases move : isCursorKey key with
      | true =>
        simp only [Dispatcher.advance, move, if_true]
        exact .skipped move
      | false =>
        simp only [Dispatcher.advance, move, Bool.false_eq_true, if_false]
        cases h : fireTrigger draw.supply trigger.triggerId key tick.now store with
        | error raised stop =>
          obtain rfl := fireTrigger_raises h
          exact .settled (by simp [Phase.triggers]) move (.inl rfl)
        | ok value stop =>
          obtain ⟨firing, woken⟩ := value
          cases fireTrigger_outcome h with
          | found found => exact .repeated move (.inl ⟨firing, found⟩)
          | held windowed => exact .repeated move (.inr windowed)
          | committed fired stamped => exact .fired move fired stamped
  | waking tick trigger key keys rest workflowId =>
    simp only [Dispatcher.advance, final_onBase]
    exact .woke (decideOnce_outside resolver draw.supply workflowId tick.now store.base)
  | moving tick trigger key keys rest =>
    simp only [Dispatcher.advance]
    split
    · exact .moved (.inl rfl)
    · exact .moved (.inr ⟨{ tick with fired := tick.fired + 1 }, rfl, rfl⟩)

end Advance

end Murder.Triggers

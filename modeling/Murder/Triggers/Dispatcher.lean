import Murder.Triggers.Contracts
import Murder.Workflows.FactGrowth

/-! Atomic deduplicated trigger firing, where an occurrence's row and its workflow action commit
together or not at all, and the dispatcher as it ticks: one step reads a trigger's occurrences,
fires one, wakes its workflow or moves one cursor. The process may stop after any step.
-/

namespace Murder.Triggers

open Murder.Contracts Murder.Facts Murder.Storage Murder.Workflows
open Library.Transactions Library

def listTriggers (tables : TriggerTables) : List TriggerRecord :=
  (tables.triggers.select (fun trigger => trigger.enabled)).insertionSort (fun left right =>
    createdBefore (left.createdAt, left.triggerId) (right.createdAt, right.triggerId))

def findFiring (tables : TriggerTables) (triggerId : Uuid) (occurrenceKey : String)
    : Option TriggerFiringRecord :=
  tables.firings.find? (fun firing =>
    firing.triggerId == triggerId && firing.occurrenceKey == occurrenceKey)

def recentFiring (tables : TriggerTables) (triggerId : Uuid) (after : Timestamp)
    : Option TriggerFiringRecord :=
  ((tables.firings.select (fun firing =>
    firing.triggerId == triggerId && after < firing.firedAt)).mergeSort (fun left right =>
      right.firedAt ≤ left.firedAt)).head?

def listPendingManualFires (tables : TriggerTables) (triggerId : Uuid) : List String :=
  ((tables.pending.select (fun row => row.triggerId == triggerId
      && (findFiring tables triggerId row.occurrenceKey).isNone)).mergeSort
    (fun left right => left.enqueuedAt < right.enqueuedAt
      || (left.enqueuedAt == right.enqueuedAt && left.occurrenceKey ≤ right.occurrenceKey))).map
    PendingRow.occurrenceKey

/-- Who starts the workflows of triggers. -/
def triggerPrincipal : Principal := { kind := .service, id := "fact-trigger" }

def triggerRun (workflowId correlationId : Uuid) (definitionName : String)
    (definitionVersion : Nat) (inputs : JsonObject) (now : Timestamp) : WorkflowRunRecord where
  workflowId := workflowId
  definitionName := definitionName
  definitionVersion := definitionVersion
  status := .running
  revision := 0
  state := {
    schemaName := definitionName
    schemaVersion := definitionVersion
    value := inputs
  }
  createdAt := now
  updatedAt := now
  startedBy := triggerPrincipal
  correlation := { correlationId := correlationId }

/-- `_start_trigger_workflow`. -/
def startTriggerWorkflow (supply : Supply) (definitionName : String) (definitionVersion : Nat)
    (inputs : JsonObject) (now : Timestamp) : Sql Uuid := do
  createWorkflowRun (supply.drop 2)
    (triggerRun (supply 0) (supply 1) definitionName definitionVersion inputs now)
  pure (supply 0)

def occurrenceSignalKey (triggerId : Uuid) (occurrenceKey : String) : String :=
  "trigger:" ++ triggerId.str ++ ":" ++ occurrenceKey

def performTarget (supply : Supply) (triggerId : Uuid) (occurrenceKey : String)
    (now : Timestamp) : TriggerTarget → Sql Uuid
  | .startWorkflow definitionName definitionVersion inputs =>
    startTriggerWorkflow supply definitionName definitionVersion inputs now
  | .signalWorkflow workflowId signalName correlationKey payload => do
      let _ ← enqueueWorkflowSignal supply workflowId
        (occurrenceSignalKey triggerId occurrenceKey) (.external signalName correlationKey payload)
        now
      pure workflowId

def insertFiring (firing : TriggerFiringRecord) : TriggerSql Unit := fun store =>
  match store.base.workflows.runs.find? (fun run => run.workflowId == firing.workflowId),
      store.tables.firings.insert? firing with
  | some _, some firings =>
    .ok () { store with tables := { store.tables with firings := firings } }
  | _, _ => .error .integrityError store

def markFired (triggerId : Uuid) (now : Timestamp) (store : TriggerDatabase)
    : TriggerDatabase :=
  { store with tables := {
    store.tables with
      triggers := store.tables.triggers.update (fun trigger => trigger.triggerId == triggerId)
        (fun trigger => { trigger with lastFiredAt := some now })
  } }

/-- Deduplicate an occurrence and perform its workflow action atomically. The second result
is the workflow to wake, when the action was performed.
-/
def fireTrigger (supply : Supply) (triggerId : Uuid) (occurrenceKey : String) (now : Timestamp)
    : TriggerSql (TriggerFiringRecord × Option Uuid) := do
  raiseIf (occurrenceKey = "") (.valueError "occurrence_key must not be empty")
  transaction do
    let store ← get
    match findFiring store.tables triggerId occurrenceKey with
    | some existing => pure (existing, none)
    | none =>
      let row ← orRaise
        (store.tables.triggers.find? (fun trigger =>
          trigger.triggerId == triggerId && trigger.enabled))
        (.valueError "trigger does not exist or is disabled")
      let recent :=
        if row.dedupWindowSeconds = 0 then
          none
        else
          recentFiring store.tables triggerId (now - seconds row.dedupWindowSeconds)
      match recent with
      | some recent => pure (recent, none)
      | none =>
        let workflowId ← onBase
          (performTarget (supply.drop 1) triggerId occurrenceKey now row.target)
        let firing : TriggerFiringRecord := {
          firingId := supply 0
          triggerId := triggerId
          occurrenceKey := occurrenceKey
          firedAt := now
          workflowId := workflowId
        }
        insertFiring firing
        modify (markFired triggerId now)
        pure (firing, some workflowId)

def getCursor (tables : TriggerTables) (triggerId : Uuid) : Option String :=
  (tables.cursors.find? (fun row => row.triggerId == triggerId)).map CursorRow.cursor

def setCursor (triggerId : Uuid) (cursor : String) (now : Timestamp) (store : TriggerDatabase)
    : TriggerDatabase :=
  let row : CursorRow := { triggerId := triggerId, cursor := cursor, updatedAt := now }
  match store.tables.cursors.insert? row with
  | some cursors => { store with tables := { store.tables with cursors := cursors } }
  | none =>
    { store with tables := {
      store.tables with
        cursors := store.tables.cursors.update (fun row => row.triggerId == triggerId)
          (fun row => { row with cursor := cursor, updatedAt := now })
    } }

def cursorPrefix : String := "__cursor__:"

/-- `key.startswith(_CURSOR_PREFIX)`. -/
def isCursorKey (key : String) : Bool := cursorPrefix.toList.isPrefixOf key.toList

/-- `key.removeprefix(_CURSOR_PREFIX)` of a key that has it. -/
def cursorText (key : String) : String := String.ofList (key.toList.drop cursorPrefix.length)

def replayFactsOfKind (db : Database) (kind : String) (after limit : Nat)
    : List RetainedFactRecord :=
  (Pages.later RetainedFactRecord.sequence (fun fact => fact.draft.payload.kind == kind) after
    db.facts.retained.rows).take limit

section Occurrences

variable [FactPayloadDump]

def factMatches (predicate : JsonObject) (fact : RetainedFactRecord) : Bool :=
  payloadMatches (.obj (factPayloadStorage fact.draft.payload)) (.obj predicate)

def factKey (predicate : JsonObject) (fact : RetainedFactRecord) : String :=
  if factMatches predicate fact then
    toString fact.sequence
  else
    cursorPrefix ++ toString fact.sequence

/-- `int(cursor)`, or the beginning of the log. -/
def cursorSequence : Option String → Option Nat
  | none => some 0
  | some text => text.toNat?

/-- The keys to process next; `observed` is what the cron or repository observer reports. -/
def occurrences (store : TriggerDatabase) (trigger : TriggerRecord)
    (observed : Except Failure (List String)) : Except Failure (List String) :=
  match trigger.spec with
  | .cron .. => observed
  | .repository .. => observed
  | .manual _ => .ok (listPendingManualFires store.tables trigger.triggerId)
  | .fact factKind predicate =>
    match cursorSequence (getCursor store.tables trigger.triggerId) with
    | some after =>
      .ok ((replayFactsOfKind store.base factKind after 100).map (factKey predicate))
    | none => .error (.valueError "invalid literal for int() with base 10")

end Occurrences

/-- A tick under way: its clock reading, its limit and how many occurrences it processed. -/
structure Tick where
  now : Timestamp
  limit : Int
  fired : Nat := 0

/-- Where a tick stands. -/
inductive Phase
  | idle
  | scanning (tick : Tick) (rest : List TriggerRecord)
  | working (tick : Tick) (trigger : TriggerRecord) (keys : List String)
    (rest : List TriggerRecord)
  | waking (tick : Tick) (trigger : TriggerRecord) (key : String) (keys : List String)
    (rest : List TriggerRecord) (workflowId : Uuid)
  | moving (tick : Tick) (trigger : TriggerRecord) (key : String) (keys : List String)
    (rest : List TriggerRecord)

structure Dispatcher where
  store : TriggerDatabase
  phase : Phase := .idle

/-- What one step draws and observes. -/
structure Draw where
  supply : Supply
  observed : Except Failure (List String)

section Ticks

variable [FactPayloadDump] [FactPayloadAdapter] (resolver : WorkflowMachineResolver)

/-- The next step of `TriggerDispatcher.tick`; a raise ends the tick. -/
def Dispatcher.advance (draw : Draw) (state : Dispatcher) : Dispatcher :=
  match state.phase with
  | .idle => state
  | .scanning _ [] => { state with phase := .idle }
  | .scanning tick (trigger :: rest) =>
    match occurrences state.store trigger draw.observed with
    | .ok keys => { state with phase := .working tick trigger keys rest }
    | .error _ => { state with phase := .idle }
  | .working tick _ [] rest => { state with phase := .scanning tick rest }
  | .working tick trigger (key :: keys) rest =>
    if isCursorKey key then
      {
        store := setCursor trigger.triggerId (cursorText key) tick.now state.store
        phase := .working tick trigger keys rest
      }
    else
      match fireTrigger draw.supply trigger.triggerId key tick.now state.store with
      | .ok (_, some workflowId) store =>
        { store := store, phase := .waking tick trigger key keys rest workflowId }
      | .ok (_, none) store => { store := store, phase := .moving tick trigger key keys rest }
      | .error _ store => { store := store, phase := .idle }
  | .waking tick trigger key keys rest workflowId =>
    -- The wake is best effort: however it ends, the cursor moves next.
    let wake := onBase (decideOnce resolver draw.supply workflowId tick.now)
    { store := final (wake state.store), phase := .moving tick trigger key keys rest }
  | .moving tick trigger key keys rest =>
    let store := setCursor trigger.triggerId key tick.now state.store
    let tick := { tick with fired := tick.fired + 1 }
    if (tick.fired : Int) ≥ tick.limit then
      { store := store, phase := .idle }
    else
      { store := store, phase := .working tick trigger keys rest }

def startedByTriggers (db : Database) : List Uuid :=
  (db.workflows.runs.select (fun run => run.startedBy == triggerPrincipal)).map
    WorkflowRunRecord.workflowId

/-- What others do to the database: they append facts, start no run as a trigger and take no
signal out of an inbox.
-/
structure Outside (start stop : Database) : Prop where
  facts : FactsGrow start stop
  started : startedByTriggers stop = startedByTriggers start
  signals : ∀ signal ∈ start.workflows.signals, ∃ kept ∈ stop.workflows.signals,
    kept.workflowId = signal.workflowId ∧ kept.deduplicationKey = signal.deduplicationKey

inductive DispatchEvent
  | tick (now : Timestamp) (limit : Int)
  | advance (draw : Draw)
  | crash
  | outside

/-- One step of the dispatcher process or of anybody else. -/
inductive DispatchStep : Dispatcher → DispatchEvent → Dispatcher → Prop
  | tick (state now limit) (idle : state.phase = .idle)
    : DispatchStep state (.tick now limit)
        { state with
          phase := .scanning { now := now, limit := limit } (listTriggers state.store.tables) }
  | advance (state draw)
    : DispatchStep state (.advance draw) (state.advance resolver draw)
  | crash (state) : DispatchStep state .crash { state with phase := .idle }
  | outside (state base pending) (outside : Outside state.store.base base)
    : DispatchStep state .outside { state with
        store := { base := base, tables := { state.store.tables with pending := pending } } }

end Ticks

end Murder.Triggers

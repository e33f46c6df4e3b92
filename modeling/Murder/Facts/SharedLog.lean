import Murder.Facts.Log
import Murder.Library.Sequences

/-! The fact log and the projection-input log of a database that several repositories share.
Sequences are handed out over all repositories; every statement but the unique keys and the
counters filters by the bound repository.
-/

namespace Murder.Facts

open Murder.Contracts Murder.Storage Library.Tables Library.Transactions Library

/-- A row of `retained_facts`. -/
structure FactRow where
  repositoryId : Uuid
  record : RetainedFactRecord
deriving DecidableEq

def FactRow.sequence (row : FactRow) : Nat := row.record.sequence

/-- A row of `projection_inputs`. -/
structure InputRow where
  repositoryId : Uuid
  record : ProjectionInputRecord
deriving DecidableEq

def InputRow.sequence (row : InputRow) : Nat := row.record.sequence

/-- Unique `fact_id`, over all repositories. -/
def factRowClash (left right : FactRow) : Bool := factClash left.record right.record

/-- Unique `(repository_id, input_id)` and
`(source_fact_id, projection, subject_key, generation)`.
-/
def inputRowClash (left right : InputRow) : Bool :=
  (left.repositoryId == right.repositoryId && left.record.inputId == right.record.inputId)
    || (sameKey left.record.sourceFactId right.record.sourceFactId
      && left.record.projection == right.record.projection
      && left.record.subjectKey == right.record.subjectKey
      && left.record.generation == right.record.generation)

/-- Both tables with the last number each autoincrement column handed out. -/
structure SharedLog where
  retained : Table FactRow factRowClash := .empty
  inputs : Table InputRow inputRowClash := .empty
  lastFactSequence : Nat := 0
  lastInputSequence : Nat := 0

abbrev LogSql (α : Type) := Program SharedLog Failure α

variable (repositoryId : Uuid) (log : SharedLog) (sourceFactId : Option Uuid)
  (retention : Retention)

namespace SharedLog

def insertFact (draft : RetainedFactDraft) (recordedAt : Timestamp) : LogSql FactRow := fun log =>
  let row : FactRow := {
    repositoryId := repositoryId
    record := {
      sequence := log.lastFactSequence + 1
      recordedAt := recordedAt
      draft := draft
    }
  }
  match log.retained.insert? row with
  | some retained =>
    .ok row { log with retained := retained, lastFactSequence := log.lastFactSequence + 1 }
  | none => .error .integrityError log

def retainFact (draft : RetainedFactDraft) (recordedAt : Timestamp) : LogSql FactRow := do
  let log ← get
  let existing := log.retained.find? (fun row =>
    row.repositoryId == repositoryId && row.record.factId == draft.factId)
  match existing with
  | none => insertFact repositoryId draft recordedAt
  | some existing =>
    raiseIf (¬ sameFact existing.record draft)
      (.factIdentityConflict s!"fact id {draft.factId} already identifies different content")
    pure existing

/-- `INSERT … ON CONFLICT DO NOTHING`: a clashing input is dropped, and `burns` says whether
the autoincrement column reuses the number it drew for it.
-/
def insertInput (createdAt : Timestamp)
    (burns : Bool) (item : ProjectionInputDraft) (log : SharedLog) : SharedLog :=
  let row : InputRow := {
    repositoryId := repositoryId
    record := {
      sequence := log.lastInputSequence + 1
      inputId := item.inputId
      sourceFactId := sourceFactId
      projection := item.projection
      subjectKey := item.subjectKey
      generation := item.generation
      createdAt := createdAt
    }
  }
  match log.inputs.insert? row with
  | some inputs =>
    { log with inputs := inputs, lastInputSequence := log.lastInputSequence + 1 }
  | none =>
    { log with lastInputSequence := log.lastInputSequence + if burns then 1 else 0 }

def appendFact (draft : RetainedFactDraft)
    (projectionInputs : List ProjectionInputDraft) (recordedAt : Timestamp) (burns : Bool)
    : LogSql (RetainedFactRecord × List ProjectionInputRecord) :=
  transaction do
    let fact ← retainFact repositoryId draft recordedAt
    projectionInputs.forM (fun item =>
      modify (insertInput repositoryId (some draft.factId) recordedAt burns item))
    let log ← get
    let inputs := log.inputs.select (fun row =>
      row.repositoryId == repositoryId && row.record.sourceFactId == some draft.factId)
    pure (fact.record, inputs.map InputRow.record)

def appendProjectionInput (draft : ProjectionInputDraft) (createdAt : Timestamp) (burns : Bool)
    : LogSql ProjectionInputRecord :=
  transaction do
    modify (insertInput repositoryId none createdAt burns draft)
    let log ← get
    let row ← orRaise
      (log.inputs.find? (fun row =>
        row.repositoryId == repositoryId && row.record.inputId == draft.inputId))
      (.assertionError "row is not None")
    raiseIf
      (row.record.projection ≠ draft.projection ∨ row.record.subjectKey ≠ draft.subjectKey
        ∨ row.record.generation ≠ draft.generation)
      (.factIdentityConflict
        s!"projection input id {draft.inputId} identifies different content")
    pure row.record

def factSequences (repositoryId : Uuid) : List Nat :=
  Sequences.owned FactRow.repositoryId FactRow.sequence repositoryId log.retained.rows

def inputSequences (repositoryId : Uuid) : List Nat :=
  Sequences.owned InputRow.repositoryId InputRow.sequence repositoryId log.inputs.rows

/-- `FactLog.watermark`. -/
def factWatermark (repositoryId : Uuid) : Nat :=
  Sequences.watermark (log.factSequences repositoryId)

/-- `FactLog.is_cursor_retained`. -/
def isFactCursorRetained (repositoryId : Uuid) (cursor : Int) : Bool :=
  Sequences.retained (log.factSequences repositoryId) cursor

/-- `ProjectionInputLog.watermark`. -/
def inputWatermark (repositoryId : Uuid) : Nat :=
  Sequences.watermark (log.inputSequences repositoryId)

/-- `ProjectionInputLog.is_cursor_retained`. -/
def isInputCursorRetained (repositoryId : Uuid) (cursor : Int) : Bool :=
  Sequences.retained (log.inputSequences repositoryId) cursor

/-- The retention a log is opened with. -/
structure Retention where
  minRecords : Int := 20000
  maxAgeDays : Int := 7
deriving DecidableEq

/-- The age limit of a prune. Times are compared as ISO texts and this one is cut to whole
seconds, so a time with a fraction is never below the second it lies in.
-/
def Retention.cutoff (now : Timestamp) : Timestamp :=
  let limit := now - seconds (retention.maxAgeDays * 86400)
  limit - limit % 1000000

/-- How many of `count` records a prune may remove. -/
def Retention.overage (count : Nat) : Nat :=
  (count - retention.minRecords).toNat

/-- The repository's oldest old facts that no projection input of it refers to. -/
def prunableFacts (repositoryId : Uuid) (retention : Retention) (now : Timestamp) : List FactRow :=
  let overage := retention.overage
    (log.retained.count (fun row => row.repositoryId == repositoryId))
  let rows := log.retained.select (fun row =>
    row.repositoryId == repositoryId && row.record.recordedAt < retention.cutoff now
      && !log.inputs.rows.any (fun input =>
        input.repositoryId == row.repositoryId
          && input.record.sourceFactId == some row.record.factId))
  rows.take overage

/-- The rows `FactLog.prune` deletes. -/
def prunesFact (repositoryId : Uuid) (retention : Retention) (now : Timestamp) (row : FactRow)
    : Bool :=
  row.repositoryId == repositoryId
    && (log.prunableFacts repositoryId retention now).any (fun doomed =>
      doomed.record.factId == row.record.factId)

/-- `FactLog.prune`; a fact an input still refers to must not be deleted. -/
def pruneFacts (now : Timestamp) : LogSql Nat := do
  let log ← get
  let doomed := log.prunesFact repositoryId retention now
  raiseIf
    (log.retained.rows.any (fun row => doomed row
      && log.inputs.rows.any (fun input =>
        input.record.sourceFactId == some row.record.factId)))
    .integrityError
  set { log with retained := log.retained.delete doomed }
  pure (log.retained.count doomed)

def prunableInputs (repositoryId : Uuid) (retention : Retention) (now : Timestamp)
    : List InputRow :=
  let overage := retention.overage
    (log.inputs.count (fun row => row.repositoryId == repositoryId))
  let rows := log.inputs.select (fun row =>
    row.repositoryId == repositoryId && row.record.createdAt < retention.cutoff now)
  rows.take overage

/-- The rows `ProjectionInputLog.prune` deletes. -/
def prunesInput (repositoryId : Uuid) (retention : Retention) (now : Timestamp) (row : InputRow)
    : Bool :=
  row.repositoryId == repositoryId
    && (log.prunableInputs repositoryId retention now).any (fun doomed =>
      doomed.sequence == row.sequence)

/-- `ProjectionInputLog.prune`. -/
def pruneInputs (now : Timestamp) : LogSql Nat := do
  let log ← get
  let doomed := log.prunesInput repositoryId retention now
  set { log with inputs := log.inputs.delete doomed }
  pure (log.inputs.count doomed)

/-- A repository's facts stay kept when `writer` may append to them. -/
def FactsReady (writer : Uuid) (lost : List FactRow) (log : SharedLog) : Prop :=
  Sequences.Ready FactRow.repositoryId FactRow.sequence repositoryId writer log.retained.rows
    lost log.lastFactSequence

def InputsReady (writer : Uuid) (lost : List InputRow) (log : SharedLog) : Prop :=
  Sequences.Ready InputRow.repositoryId InputRow.sequence repositoryId writer log.inputs.rows
    lost log.lastInputSequence

/-- Only facts were added, and what `writer` may append to stays so. -/
structure AddsFacts (writer : Uuid) (start stop : SharedLog) : Prop where
  extends_ : Pages.Extends FactRow.sequence start.retained.rows start.lastFactSequence
    stop.retained.rows stop.lastFactSequence
  inputs : stop.inputs = start.inputs
  lastInput : stop.lastInputSequence = start.lastInputSequence
  ready : ∀ repositoryId lost,
    FactsReady repositoryId writer lost start → FactsReady repositoryId writer lost stop

instance (writer : Uuid) : IsPreorder SharedLog (AddsFacts writer) where
  refl _ := ⟨.refl, rfl, rfl, fun _ _ => id⟩
  trans _ _ _ hl hr := ⟨hl.extends_.trans hr.extends_, hr.inputs.trans hl.inputs,
    hr.lastInput.trans hl.lastInput, fun r lost h => hr.ready r lost (hl.ready r lost h)⟩

/-- Only inputs were added, and what `writer` may append to stays so. -/
structure AddsInputs (writer : Uuid) (start stop : SharedLog) : Prop where
  extends_ : Pages.Extends InputRow.sequence start.inputs.rows start.lastInputSequence
    stop.inputs.rows stop.lastInputSequence
  retained : stop.retained = start.retained
  lastFact : stop.lastFactSequence = start.lastFactSequence
  ready : ∀ repositoryId lost,
    InputsReady repositoryId writer lost start → InputsReady repositoryId writer lost stop

instance (writer : Uuid) : IsPreorder SharedLog (AddsInputs writer) where
  refl _ := ⟨.refl, rfl, rfl, fun _ _ => id⟩
  trans _ _ _ hl hr := ⟨hl.extends_.trans hr.extends_, hr.retained.trans hl.retained,
    hr.lastFact.trans hl.lastFact, fun r lost h => hr.ready r lost (hl.ready r lost h)⟩

theorem insertFact_adds (draft : RetainedFactDraft) (recordedAt : Timestamp)
    : Relates (AddsFacts repositoryId)
        (SharedLog.insertFact repositoryId draft recordedAt) := by
  intro log
  unfold SharedLog.insertFact
  dsimp only
  split
  · next retained inserted =>
      have rows := (Table.insert?_eq_some inserted).2
      refine ⟨⟨⟨_, rows, by simp [Pages.Increasing], ?_⟩, Nat.le_succ _⟩, rfl, rfl, ?_⟩
      · intro row member
        rw [List.mem_singleton.mp member]
        exact ⟨Nat.lt_succ_self _, Nat.le_refl _⟩
      · intro r lost ready
        have more := @Sequences.Ready.insert _ _ _ _ _ _ _ _ _ _ ready ⟨repositoryId, {
          sequence := log.lastFactSequence + 1
          recordedAt := recordedAt
          draft := draft
        }⟩ rfl rfl
        simpa only [FactsReady, final, rows] using more
  · exact refl_of (AddsFacts repositoryId) log

theorem retainFact_adds (draft : RetainedFactDraft) (recordedAt : Timestamp)
    : Relates (AddsFacts repositoryId)
        (SharedLog.retainFact repositoryId draft recordedAt) := by
  refine Relates.bind .get (fun log => ?_)
  dsimp only
  split
  · exact insertFact_adds repositoryId draft recordedAt
  · exact .bind (.raiseIf _ _) (fun _ => .pure _)

theorem insertInput_adds
    (createdAt : Timestamp) (burns : Bool) (item : ProjectionInputDraft) (log : SharedLog)
    : AddsInputs repositoryId log
        (insertInput repositoryId sourceFactId createdAt burns item log) := by
  unfold insertInput
  dsimp only
  split
  · next inputs inserted =>
      have rows := (Table.insert?_eq_some inserted).2
      refine ⟨⟨⟨_, rows, by simp [Pages.Increasing], ?_⟩, Nat.le_succ _⟩, rfl, rfl, ?_⟩
      · intro row member
        rw [List.mem_singleton.mp member]
        exact ⟨Nat.lt_succ_self _, Nat.le_refl _⟩
      · intro r lost ready
        have more := @Sequences.Ready.insert _ _ _ _ _ _ _ _ _ _ ready ⟨repositoryId, {
          sequence := log.lastInputSequence + 1
          inputId := item.inputId
          sourceFactId := sourceFactId
          projection := item.projection
          subjectKey := item.subjectKey
          generation := item.generation
          createdAt := createdAt
        }⟩ rfl rfl
        simpa only [InputsReady, rows] using more
  · next refused =>
      refine ⟨⟨⟨[], by simp [Pages.Increasing]⟩, Nat.le_add_right _ _⟩, rfl, rfl, ?_⟩
      intro r lost ready
      refine Sequences.Ready.refuse ready ?_ (Nat.le_add_right _ _)
      intro none_
      simp [Table.insert?, none_] at refused

theorem forM_insertInput_adds
    (createdAt : Timestamp) (burns : Bool) (items : List ProjectionInputDraft)
    : Relates (AddsInputs repositoryId)
        (items.forM (fun item =>
          modify (insertInput repositoryId sourceFactId createdAt burns item))
          : LogSql PUnit) :=
  Relates.forM (fun item =>
    .modify (insertInput_adds repositoryId sourceFactId createdAt burns item))

theorem appendFact_adds {repositoryId : Uuid} {draft : RetainedFactDraft}
    {items : List ProjectionInputDraft} {recordedAt : Timestamp} {burns : Bool}
    {start stop : SharedLog} {value : RetainedFactRecord × List ProjectionInputRecord}
    (h : Returns (SharedLog.appendFact repositoryId draft items recordedAt burns) start value
      stop)
    : ∃ middle, AddsFacts repositoryId start middle ∧ AddsInputs repositoryId middle stop
        ∧ (items = [] → middle = stop) := by
  obtain ⟨fact, middle, first, rest⟩ := returns_bind.mp (returns_transaction.mp h)
  obtain ⟨_, last, loop, reads⟩ := returns_bind.mp rest
  obtain ⟨_, _, same, done⟩ := returns_bind.mp reads
  have ends : last = stop := (returns_get.mp same).2.trans (returns_pure.mp done).2
  subst ends
  refine ⟨middle, (retainFact_adds repositoryId draft recordedAt).returns first,
    (forM_insertInput_adds repositoryId (some draft.factId) recordedAt burns items).returns
      loop, ?_⟩
  intro none_
  subst none_
  exact (returns_pure.mp loop).2

theorem appendProjectionInput_adds (draft : ProjectionInputDraft)
    (createdAt : Timestamp) (burns : Bool)
    : Relates (AddsInputs repositoryId)
        (SharedLog.appendProjectionInput repositoryId draft createdAt burns) := by
  refine Relates.transaction (fun start value stop h => Relates.returns ?_ h)
  refine Relates.bind (.modify (insertInput_adds repositoryId none createdAt burns draft))
    (fun _ => ?_)
  refine Relates.bind .get (fun log => ?_)
  refine Relates.bind (.orRaise _ _) (fun row => ?_)
  exact .bind (.raiseIf _ _) (fun _ => .pure _)

end SharedLog

end Murder.Facts

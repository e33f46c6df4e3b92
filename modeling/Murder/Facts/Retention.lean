import Murder.Facts.SharedLog
import Murder.Library.Calls

/-! What retained cursors promise over every run of appends and prunes.
The history of a run remembers what the prunes removed, which the code does not.
-/

namespace Murder.Facts

open Murder.Contracts Library.Transactions Library.Calls Library.Runs Library
open SharedLog

/-- A shared log with every row that was ever pruned from it. -/
structure LogHistory where
  log : SharedLog := {}
  lostFacts : List FactRow := []
  lostInputs : List InputRow := []

/-- The history after a write: the rows it removed are lost. -/
def LogHistory.after (history : LogHistory) (next : SharedLog) : LogHistory where
  log := next
  lostFacts := history.lostFacts
    ++ history.log.retained.rows.filter (fun row => row ∉ next.retained.rows)
  lostInputs := history.lostInputs
    ++ history.log.inputs.rows.filter (fun row => row ∉ next.inputs.rows)

def recording {α : Type} (program : LogSql α) : Program LogHistory Failure α :=
  fun history =>
    match program history.log with
    | .ok value next => .ok value (history.after next)
    | .error raised next => .error raised (history.after next)

inductive LogOp
  | appendFact (repositoryId : Uuid) (draft : RetainedFactDraft)
    (projectionInputs : List ProjectionInputDraft) (recordedAt : Timestamp)
  | appendProjectionInput (repositoryId : Uuid) (draft : ProjectionInputDraft)
    (createdAt : Timestamp)
  | pruneFacts (repositoryId : Uuid) (retention : Retention)
  | pruneInputs (repositoryId : Uuid) (retention : Retention)

inductive LogReply
  | fact (record : RetainedFactRecord) (inputs : List ProjectionInputRecord)
  | input (record : ProjectionInputRecord)
  | pruned (count : Nat)

/-- The operation, with whether a refused insert burns its number and the time of a prune. -/
def runLog : LogOp → Bool → Timestamp → LogSql LogReply
  | .appendFact repositoryId draft projectionInputs recordedAt, burns, _ =>
    (fun appended => .fact appended.1 appended.2)
      <$> SharedLog.appendFact repositoryId draft projectionInputs recordedAt burns
  | .appendProjectionInput repositoryId draft createdAt, burns, _ =>
    .input <$> appendProjectionInput repositoryId draft createdAt burns
  | .pruneFacts repositoryId retention, _, now =>
    .pruned <$> SharedLog.pruneFacts repositoryId retention now
  | .pruneInputs repositoryId retention, _, now =>
    .pruned <$> SharedLog.pruneInputs repositoryId retention now

def runHistory (op : LogOp) (burns : Bool) (now : Timestamp)
    : Program LogHistory Failure LogReply :=
  recording (runLog op burns now)

abbrev LogCall := Call LogOp Timestamp Bool

abbrev LogEvent := Event LogOp Timestamp Bool Failure LogReply

/-- A database nobody wrote to yet. -/
def NewLog (history : LogHistory) : Prop := history = {}

def LogHistory.lostFactSequences (history : LogHistory) (repositoryId : Uuid) : List Nat :=
  Sequences.owned FactRow.repositoryId FactRow.sequence repositoryId history.lostFacts

def LogHistory.lostInputSequences (history : LogHistory) (repositoryId : Uuid) : List Nat :=
  Sequences.owned InputRow.repositoryId InputRow.sequence repositoryId history.lostInputs

/-- In both logs of the repository the retained cursors are those that lost no later record. -/
structure CursorsSound (repositoryId : Uuid) (history : LogHistory) : Prop where
  facts : ∀ cursor ≤ history.log.factWatermark repositoryId,
    history.log.isFactCursorRetained repositoryId cursor = true
      ↔ ∀ gone ∈ history.lostFactSequences repositoryId, gone ≤ cursor
  inputs : ∀ cursor ≤ history.log.inputWatermark repositoryId,
    history.log.isInputCursorRetained repositoryId cursor = true
      ↔ ∀ gone ∈ history.lostInputSequences repositoryId, gone ≤ cursor

/-- The condition on a call: an append to a log that holds no record of the repository writes
the log's very first record, and a prune takes a prefix of the repository's records that
reaches up to the oldest one it keeps.
-/
def keepsCursors (repositoryId : Uuid) (history : LogHistory) (call : LogCall) : Bool :=
  let log := history.log
  match call.op with
  | .appendFact writer _ projectionInputs _ =>
    decide (writer = repositoryId →
      (log.factSequences repositoryId = [] → log.lastFactSequence = 0)
        ∧ (projectionInputs ≠ [] → log.inputSequences repositoryId = [] →
            log.lastInputSequence = 0))
  | .appendProjectionInput writer _ _ =>
    decide (writer = repositoryId →
      log.inputSequences repositoryId = [] → log.lastInputSequence = 0)
  | .pruneFacts writer retention =>
    let doomed := log.prunesFact writer retention call.now
    let sequences := Sequences.owned FactRow.repositoryId FactRow.sequence repositoryId
    decide (Sequences.RemovesPrefix (sequences (log.retained.rows.filter doomed))
      (sequences (log.retained.rows.filter (fun row => !doomed row))))
  | .pruneInputs writer retention =>
    let doomed := log.prunesInput writer retention call.now
    let sequences := Sequences.owned InputRow.repositoryId InputRow.sequence repositoryId
    decide (Sequences.RemovesPrefix (sequences (log.inputs.rows.filter doomed))
      (sequences (log.inputs.rows.filter (fun row => !doomed row))))

abbrev KeptFacts := Sequences.Kept FactRow.repositoryId FactRow.sequence

abbrev KeptInputs := Sequences.Kept InputRow.repositoryId InputRow.sequence

/-- The invariant: both logs of the repository are kept. -/
structure HistoryKept (repositoryId : Uuid) (history : LogHistory) : Prop where
  facts : KeptFacts repositoryId history.log.retained.rows history.lostFacts
    history.log.lastFactSequence
  inputs : KeptInputs repositoryId history.log.inputs.rows history.lostInputs
    history.log.lastInputSequence

variable {repositoryId : Uuid} {history : LogHistory}

theorem HistoryKept.cursorsSound (h : HistoryKept repositoryId history)
    : CursorsSound repositoryId history :=
  ⟨h.facts.sound, h.inputs.sound⟩

theorem historyKept_new (h : NewLog history)
    : HistoryKept repositoryId history := by
  cases h
  have nothing {ρ : Type} {owner : ρ → Uuid} {sequence : ρ → Nat}
      : Sequences.Kept owner sequence repositoryId [] [] 0 :=
    ⟨by simp, by constructor <;> simp [Sequences.owned]⟩
  exact ⟨nothing, nothing⟩

theorem lost_of_subset {ρ : Type} [DecidableEq ρ] {start stop : List ρ} (h : start ⊆ stop)
    : start.filter (fun row => row ∉ stop) = [] := by
  refine List.filter_eq_nil_iff.mpr (fun row member => ?_)
  simp [h member]

theorem lost_of_filter {ρ : Type} [DecidableEq ρ] (rows : List ρ) (gone : ρ → Bool)
    : rows.filter (fun row => row ∉ rows.filter (fun row => !gone row)) = rows.filter gone := by
  refine List.filter_congr (fun row member => ?_)
  cases h : gone row <;> simp [member, h]

/-- A write that only adds loses nothing. -/
theorem after_of_subset {next : SharedLog}
    (retained : history.log.retained.rows ⊆ next.retained.rows)
    (inputs : history.log.inputs.rows ⊆ next.inputs.rows)
    : history.after next = { history with log := next } := by
  simp only [LogHistory.after, lost_of_subset retained, lost_of_subset inputs,
    List.append_nil]

theorem after_self (history : LogHistory) : history.after history.log = history :=
  after_of_subset (List.Subset.refl _) (List.Subset.refl _)

theorem final_recording {α : Type} (program : LogSql α) (history : LogHistory)
    : final (recording program history) = history.after (final (program history.log)) := by
  unfold recording
  cases program history.log <;> rfl

theorem final_runHistory_of_map {α : Type} (label : α → LogReply) (program : LogSql α)
    (history : LogHistory)
    : final (recording (label <$> program) history)
      = history.after (final (program history.log)) := by
  rw [final_recording, final_map]

variable {writer : Uuid}

theorem appendFact_keeps {draft : RetainedFactDraft}
    {items : List ProjectionInputDraft} {recordedAt : Timestamp} {burns : Bool}
    (kept : HistoryKept repositoryId history)
    (firstFact : writer = repositoryId →
      history.log.factSequences repositoryId = [] → history.log.lastFactSequence = 0)
    (firstInput : writer = repositoryId → items ≠ [] →
      history.log.inputSequences repositoryId = [] → history.log.lastInputSequence = 0)
    : HistoryKept repositoryId (history.after
        (final (SharedLog.appendFact writer draft items recordedAt burns history.log))) := by
  rcases returns_or_raises (SharedLog.appendFact writer draft items recordedAt burns)
    history.log with ⟨value, returned⟩ | ⟨raised, failed⟩
  · obtain ⟨middle, facts, inputs, noItems⟩ := appendFact_adds returned
    rw [after_of_subset (by rw [inputs.retained]; exact facts.extends_.subset)
      (by rw [← facts.inputs]; exact inputs.extends_.subset)]
    constructor
    · have ready := facts.ready repositoryId history.lostFacts ⟨kept.facts, firstFact⟩
      simpa only [inputs.retained, inputs.lastFact] using ready.toKept
    · cases items with
      | nil => simpa only [← noItems rfl, facts.inputs, facts.lastInput] using kept.inputs
      | cons item more =>
        refine (inputs.ready repositoryId history.lostInputs ?_).toKept
        have ready : InputsReady repositoryId writer history.lostInputs history.log :=
          ⟨kept.inputs, fun same => firstInput same (by simp)⟩
        simpa only [InputsReady, facts.inputs, facts.lastInput] using ready
  · rw [final_of_raises failed, raises_transaction failed, after_self]
    exact kept

theorem appendProjectionInput_keeps
    {draft : ProjectionInputDraft} {createdAt : Timestamp} {burns : Bool}
    (kept : HistoryKept repositoryId history)
    (firstInput : writer = repositoryId →
      history.log.inputSequences repositoryId = [] → history.log.lastInputSequence = 0)
    : HistoryKept repositoryId (history.after
        (final (SharedLog.appendProjectionInput writer draft createdAt burns
          history.log))) := by
  rcases returns_or_raises (SharedLog.appendProjectionInput writer draft createdAt burns)
    history.log with ⟨value, returned⟩ | ⟨raised, failed⟩
  · have inputs := appendProjectionInput_adds writer draft createdAt burns history.log
    rw [after_of_subset (by rw [inputs.retained]; exact List.Subset.refl _) inputs.extends_.subset]
    constructor
    · simpa only [inputs.retained, inputs.lastFact] using kept.facts
    · exact (inputs.ready repositoryId history.lostInputs ⟨kept.inputs, firstInput⟩).toKept
  · rw [final_of_raises failed, raises_transaction failed, after_self]
    exact kept

/-- A prune of facts deletes the doomed rows or, when an input refers to one, nothing. -/
theorem final_pruneFacts (writer : Uuid) (retention : Retention) (now : Timestamp)
    (log : SharedLog)
    : final (SharedLog.pruneFacts writer retention now log) = log
      ∨ final (SharedLog.pruneFacts writer retention now log)
        = { log with
            retained := log.retained.delete (log.prunesFact writer retention now) } := by
  generalize stopped : final (SharedLog.pruneFacts writer retention now log) = stop
  rcases returns_or_raises (SharedLog.pruneFacts writer retention now) log with
    ⟨count, returned⟩ | ⟨raised, failed⟩
  · rw [stopped] at returned
    simp only [SharedLog.pruneFacts, returns_bind, returns_get, returns_raiseIf, returns_set,
      returns_pure] at returned
    obtain ⟨_, _, ⟨rfl, rfl⟩, _, _, ⟨-, rfl⟩, _, _, rfl, -, same⟩ := returned
    exact .inr same.symm
  · rw [stopped] at failed
    simp only [SharedLog.pruneFacts, raises_bind, returns_get] at failed
    rcases failed with failed | ⟨_, _, ⟨rfl, rfl⟩, failed | ⟨_, _, -, failed | ⟨_, _, -, failed⟩⟩⟩
    · cases failed
    · exact .inl (raises_raiseIf failed).2
    · cases failed
    · cases failed

theorem pruneFacts_keeps {retention : Retention}
    {now : Timestamp} (kept : HistoryKept repositoryId history)
    (takesPrefix :
      let doomed := history.log.prunesFact writer retention now
      let sequences := Sequences.owned FactRow.repositoryId FactRow.sequence repositoryId
      Sequences.RemovesPrefix (sequences (history.log.retained.rows.filter doomed))
        (sequences (history.log.retained.rows.filter (fun row => !doomed row))))
    : HistoryKept repositoryId (history.after
        (final (SharedLog.pruneFacts writer retention now history.log))) := by
  rcases final_pruneFacts writer retention now history.log with same | same
  · rw [same, after_self]
    exact kept
  · rw [same]
    refine ⟨?_, ?_⟩
    · have less := kept.facts.remove takesPrefix
      rw [← lost_of_filter history.log.retained.rows
        (history.log.prunesFact writer retention now)] at less
      exact less
    · simpa only [LogHistory.after, lost_of_subset (List.Subset.refl _), List.append_nil]
        using kept.inputs

theorem pruneInputs_keeps {retention : Retention}
    {now : Timestamp} (kept : HistoryKept repositoryId history)
    (takesPrefix :
      let doomed := history.log.prunesInput writer retention now
      let sequences := Sequences.owned InputRow.repositoryId InputRow.sequence repositoryId
      Sequences.RemovesPrefix (sequences (history.log.inputs.rows.filter doomed))
        (sequences (history.log.inputs.rows.filter (fun row => !doomed row))))
    : HistoryKept repositoryId (history.after
        (final (SharedLog.pruneInputs writer retention now history.log))) := by
  have same : final (SharedLog.pruneInputs writer retention now history.log)
      = { history.log with
          inputs := history.log.inputs.delete
            (history.log.prunesInput writer retention now) } := rfl
  rw [same]
  refine ⟨?_, ?_⟩
  · simpa only [LogHistory.after, lost_of_subset (List.Subset.refl _), List.append_nil]
      using kept.facts
  · have less := kept.inputs.remove takesPrefix
    rw [← lost_of_filter history.log.inputs.rows
      (history.log.prunesInput writer retention now)] at less
    exact less

/-- A call that meets the condition keeps the history. -/
theorem step_keeps {start stop : LogHistory} {event : LogEvent}
    (kept : HistoryKept repositoryId start)
    (step : GuardedStep runHistory (keepsCursors repositoryId) start event stop)
    : HistoryKept repositoryId stop := by
  obtain ⟨⟨-, rfl⟩, passes⟩ := step
  obtain ⟨⟨op, now, burns⟩, outcome⟩ := event
  unfold runHistory
  cases op with
  | appendFact writer draft items recordedAt =>
    have meets := of_decide_eq_true passes
    rw [runLog, final_runHistory_of_map]
    exact appendFact_keeps kept (fun same => (meets same).1)
      (fun same some_ => (meets same).2 some_)
  | appendProjectionInput writer draft createdAt =>
    rw [runLog, final_runHistory_of_map]
    exact appendProjectionInput_keeps kept (of_decide_eq_true passes)
  | pruneFacts writer retention =>
    rw [runLog, final_runHistory_of_map]
    exact pruneFacts_keeps kept (of_decide_eq_true passes)
  | pruneInputs writer retention =>
    rw [runLog, final_runHistory_of_map]
    exact pruneInputs_keeps kept (of_decide_eq_true passes)

/-- In every run whose calls meet the condition, whatever times the records and the prunes
carry, the retained cursors are exactly those that lost no later record.
-/
theorem cursorsSound_of_keepsCursors {repositoryId : Uuid} {events : List LogEvent}
    {history : LogHistory}
    (h : Run NewLog (GuardedStep runHistory (keepsCursors repositoryId)) events history)
    : CursorsSound repositoryId history :=
  (h.invariant (fun _ new => historyKept_new new)
    (fun _ _ _ kept step => step_keeps kept step)).cursorsSound

section Scenario

def notedFact (factId : Uuid) : RetainedFactDraft where
  factId := factId
  occurredAt := 0
  actor := { kind := "service", id := "notes" }
  correlation := { correlationId := factId }
  payload := .private_ "notes.taken" .nil

def logCall (now : Timestamp) (op : LogOp) : LogCall where
  op := op
  now := now
  supply := false

/-- Two days' facts, with what the first one invalidates. -/
def notes (invalidates : List ProjectionInputDraft) : List LogCall :=
  [logCall 0 (.appendFact 1 (notedFact 10) invalidates 0),
    logCall 0 (.appendFact 1 (notedFact 11) [] (seconds 86400))]

def monthly : LogCall :=
  logCall (seconds (30 * 86400)) (.pruneFacts 1 { minRecords := 1 })

theorem run_of_log_calls {guard : LogHistory → LogCall → Bool} {calls : List LogCall}
    (check : LogHistory → Bool)
    (h : reaches runHistory guard ⟨0, {}⟩ calls (fun state => check state.db) = true)
    : ∃ events history, Run NewLog (GuardedStep runHistory guard) events history
        ∧ check history = true := by
  obtain ⟨events, state, steps, checked⟩ := steps_of_reaches h
  exact ⟨events, state.db,
    ⟨_, rfl, steps.map Timed.db (fun _ _ _ timed => timed.step)⟩, checked⟩

theorem cursorsSound_of_prefix
    : ∃ history, history.lostFacts ≠ [] ∧ CursorsSound 1 history := by
  have reached : reaches runHistory (keepsCursors 1) ⟨0, {}⟩ (notes [] ++ [monthly])
      (fun state => state.db.lostFacts.length == 1) = true := by
    decide +kernel
  obtain ⟨events, history, run, lost⟩ :=
    run_of_log_calls (fun history => history.lostFacts.length == 1) reached
  refine ⟨history, ?_, cursorsSound_of_keepsCursors run⟩
  intro none_
  simp [none_] at lost

theorem cursorsSound_broken
    : ¬ ∀ repositoryId events history, Run NewLog (Step runHistory) events history →
        CursorsSound repositoryId history := by
  intro sound
  -- The first fact is referred to, so the prune takes the second and keeps the first.
  have reached : reaches runHistory (fun _ _ => true) ⟨0, {}⟩
      (notes [⟨20, "notes", "10", 0⟩] ++ [monthly])
      (fun state => state.db.log.isFactCursorRetained 1 0
        && state.db.lostFactSequences 1 == [2]) = true := by
    decide +kernel
  obtain ⟨events, history, run, holds⟩ := run_of_log_calls (fun history =>
    history.log.isFactCursorRetained 1 0 && history.lostFactSequences 1 == [2]) reached
  obtain ⟨start, new, steps⟩ := run
  have unguarded := sound 1 events history ⟨start, new, steps.imp (fun _ _ _ step => step.step)⟩
  simp only [Bool.and_eq_true, beq_iff_eq] at holds
  have lossless := (unguarded.facts 0 (Nat.zero_le _)).mp holds.1
  rw [holds.2] at lossless
  simp at lossless

end Scenario

end Murder.Facts

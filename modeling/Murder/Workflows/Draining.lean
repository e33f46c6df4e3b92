import Mathlib.Algebra.Order.BigOperators.Group.List
import Murder.Workflows.Service

/-! Recovery ends, and what it leaves: no run of a page keeps another from its turn, and a
run still pending was blocked by its own last decision.
-/

namespace Murder.Workflows

open Murder.Contracts Murder.Facts Murder.Storage Library.Drains Library.Tables Library.Transactions

def runIds (db : Database) : List Uuid :=
  db.workflows.runs.rows.map WorkflowRunRecord.workflowId

/-- What a decision of one run leaves: every id, and the other runs with their signals. -/
structure SparesOthers (workflowId : Uuid) (start stop : Database) : Prop where
  runIds : runIds stop = runIds start
  runs : ∀ run ∈ start.workflows.runs, run.workflowId ≠ workflowId → run ∈ stop.workflows.runs
  pending : ∀ other, other ≠ workflowId →
    pendingSignalCount stop other = pendingSignalCount start other

theorem Decided.sparesOthers {workflowId : Uuid} {start stop : Database}
    (decided : Decided workflowId start stop)
    : SparesOthers workflowId start stop := by
  cases decided with
  | nothing => exact ⟨rfl, fun _ member _ => member, fun _ _ => rfl⟩
  | @committed plan at_ stop commit =>
    refine ⟨?_, ?_, ?_⟩
    · rw [Workflows.runIds, Workflows.runIds, commit.installed.runs]
      change (start.workflows.runs.rows.map _).map _ = _
      rw [List.map_map]
      apply List.map_congr_left
      intro run member
      simp only [Function.comp_apply]
      split <;> rfl
    · intro run member other
      rw [commit.installed.runs]
      simp only [replaceRun, Table.mem_update]
      exact ⟨run, member, if_neg (by simp [other])⟩
    · intro other different
      rw [pendingSignalCount, commit.installed.signals]
      have own : ∀ signal ∈ start.workflows.signals,
          plan.consumeSignalIds.contains signal.signalId = true →
            (signal.workflowId == other) = false := by
        intro signal member listed
        have same := (commit.consumable.2 signal member (by simpa using listed)).1
        simp [same, different.symm]
      apply congrArg List.length
      have keeps
          : Table.KeepsKeys signalClash (fun signal : WorkflowSignalRecord =>
              { signal with
                consumedAt := some at_
                consumedAtRevision := some (plan.state.expectedRevision + 1) }) :=
        ⟨fun _ _ => rfl, fun _ _ => rfl⟩
      apply Table.select_update_apart keeps
      · intro signal member listed
        simp only [own signal member listed, Bool.false_and]
      · intro signal member listed
        simp

/-- The run's machine was unavailable, or its signals were not fewer afterwards. -/
inductive RunDecision.Stuck : RunDecision → Prop
  | unavailable {workflowId pendingBefore} : Stuck ⟨workflowId, pendingBefore, .unavailable⟩
  | left {workflowId pendingBefore pendingAfter} (kept : pendingBefore ≤ pendingAfter)
    : Stuck ⟨workflowId, pendingBefore, .left pendingAfter⟩

/-- A row of the current page: its run is not blocked and has the count the page read. -/
structure RowDue (recovery : Recovery) (row : PendingRow) : Prop where
  listed : row.workflowId ∈ runIds recovery.db
  free : row.workflowId ∉ recovery.blocked
  count : row.pendingCount = pendingSignalCount recovery.db row.workflowId

/-- What deciding one row does: it blocks the run, or leaves it fewer signals. -/
structure RowDecided (recovery : Recovery) (row : PendingRow) (decision : RunDecision)
    (next : Recovery) : Prop where
  spares : SparesOthers row.workflowId recovery.db next.db
  decisions : next.decisions = decision :: recovery.decisions
  workflowId : decision.workflowId = row.workflowId
  progress :
    (decision.Stuck ∧ next.blocked = insert row.workflowId recovery.blocked)
    ∨ (next.blocked = recovery.blocked
        ∧ pendingSignalCount next.db row.workflowId < row.pendingCount)

/-- What a run still asks of the recovery: nothing once blocked. -/
def weight (recovery : Recovery) (workflowId : Uuid) : Nat :=
  if workflowId ∈ recovery.blocked then 0 else pendingSignalCount recovery.db workflowId + 1

def remaining (recovery : Recovery) : Nat :=
  ((runIds recovery.db).map (weight recovery)).sum

variable {recovery next : Recovery} {decision : RunDecision}

theorem RowDecided.weight_other {row : PendingRow}
    (decided : RowDecided recovery row decision next) {other : Uuid}
    (different : other ≠ row.workflowId)
    : weight next other = weight recovery other := by
  have blocked : other ∈ next.blocked ↔ other ∈ recovery.blocked := by
    rcases decided.progress with stuck | fewer
    · simp [stuck.2, different]
    · rw [fewer.1]
  simp only [weight, blocked, decided.spares.pending other different]

theorem RowDecided.weight_own {row : PendingRow} (decided : RowDecided recovery row decision next)
    (due : RowDue recovery row)
    : weight next row.workflowId < weight recovery row.workflowId := by
  have count := due.count
  rw [weight, weight, if_neg due.free]
  rcases decided.progress with stuck | fewer
  · simp [stuck.2]
  · rw [if_neg (fewer.1 ▸ due.free)]
    have less := fewer.2
    omega

/-- Deciding a row lowers the measure: the other runs keep their weight. -/
theorem RowDecided.remaining_lt {row : PendingRow} (decided : RowDecided recovery row decision next)
    (due : RowDue recovery row)
    : remaining next < remaining recovery := by
  rw [remaining, remaining, decided.spares.runIds]
  have own := decided.weight_own due
  apply List.sum_lt_sum
  · intro other _
    rcases eq_or_ne other row.workflowId with same | different
    · exact same ▸ own.le
    · exact (decided.weight_other different).le
  · exact ⟨row.workflowId, due.listed, own⟩

theorem RowDecided.waits {row other : PendingRow} (decided : RowDecided recovery row decision next)
    (apart : row.workflowId ≠ other.workflowId) (due : RowDue recovery other)
    : RowDue next other where
  listed := decided.spares.runIds ▸ due.listed
  free := by
    rcases decided.progress with stuck | fewer
    · simp [stuck.2, apart.symm, due.free]
    · exact fewer.1 ▸ due.free
  count := by
    rw [decided.spares.pending _ apart.symm]
    exact due.count

/-- A run the query joins with a pending signal. -/
structure Waiting (recovery : Recovery) (run : WorkflowRunRecord) : Prop where
  stored : run ∈ recovery.db.workflows.runs
  recoverable : run.status.recoverable = true
  free : run.workflowId ∉ recovery.blocked
  pending : 0 < pendingSignalCount recovery.db run.workflowId

theorem mem_recoveryPage {limit : Nat} {row : PendingRow}
    (member : row ∈ recoveryPage limit recovery)
    : ∃ run, Waiting recovery run ∧ row.workflowId = run.workflowId
        ∧ row.pendingCount = pendingSignalCount recovery.db run.workflowId := by
  simp only [recoveryPage, List.mem_map] at member
  obtain ⟨run, taken, rfl⟩ := member
  have picked := (List.mem_insertionSort _).mp (List.mem_of_mem_take taken)
  simp only [Table.mem_select, Bool.and_eq_true, decide_eq_true_eq] at picked
  obtain ⟨stored, ⟨recoverable, free⟩, pending⟩ := picked
  exact ⟨run, ⟨stored, recoverable, free, pending⟩, rfl, rfl⟩

/-- No run is listed twice in a page: a run's id is its key. -/
theorem recoveryPage_apart (limit : Nat) (recovery : Recovery)
    : (recoveryPage limit recovery).Pairwise
        (fun row other => row.workflowId ≠ other.workflowId) := by
  rw [recoveryPage]
  apply List.pairwise_map.mpr
  apply List.Pairwise.sublist (List.take_sublist _ _)
  apply (List.Perm.pairwise_iff (fun apart => Ne.symm apart) (List.perm_insertionSort _ _)).mpr
  apply (recovery.db.workflows.runs.unique.filter _).imp
  intro run other apart same
  have same : run.workflowId = other.workflowId := same
  simp [runClash, same] at apart

theorem not_waiting_of_empty {limit : Nat} (positive : 1 ≤ limit)
    (empty : recoveryPage limit recovery = []) (run : WorkflowRunRecord)
    : ¬ Waiting recovery run := by
  intro waiting
  simp only [recoveryPage, List.map_eq_nil_iff, List.take_eq_nil_iff] at empty
  rcases empty with none_ | sorted
  · omega
  · have length := congrArg List.length sorted
    rw [List.length_insertionSort] at length
    have nobody := List.eq_nil_of_length_eq_zero length
    have picked
        : run ∈ recovery.db.workflows.runs.select (fun run =>
            run.status.recoverable && decide (run.workflowId ∉ recovery.blocked)
              && decide (0 < pendingSignalCount recovery.db run.workflowId)) := by
      simp [waiting.stored, waiting.recoverable, waiting.free, waiting.pending]
    rw [nobody] at picked
    cases picked

section Rows

variable [FactPayloadAdapter] {runtime : WorkflowRuntime}

theorem recoverRow_ok {row : PendingRow} (h : recoverRow runtime recovery row = .ok next)
    : ∃ decision, RowDecided recovery row decision next := by
  have decided := decideOnce_decided runtime.resolver
    (runtime.supply recovery.decisions.length) row.workflowId
    (runtime.clock recovery.decisions.length) runtime.maxConflictRetries
  rw [recoverRow] at h
  split at h
  next message db raised =>
    cases h
    refine ⟨_, (decided.raises raised).sparesOthers, rfl, rfl, .inl ⟨.unavailable, rfl⟩⟩
  next raised db => cases h
  next updated db returned =>
    cases h
    refine ⟨_, (decided.returns returned).sparesOthers, rfl, rfl, ?_⟩
    by_cases kept : row.pendingCount ≤ pendingSignalCount db row.workflowId
    · exact .inl ⟨.left kept, if_pos kept⟩
    · exact .inr ⟨if_neg kept, Nat.lt_of_not_le kept⟩

/-- A row fails with what the decision of its run raised. -/
theorem recoverRow_error {row : PendingRow} {raised : Failure × Database}
    (h : recoverRow runtime recovery row = .error raised)
    : Raises (runtime.decide recovery.decisions.length row.workflowId) recovery.db raised.1
        raised.2
      ∧ ∀ message, raised.1 ≠ .workflowDefinitionUnavailable message := by
  rw [recoverRow] at h
  split at h
  next message db unavailable => cases h
  next failure db other error =>
    cases h
    exact ⟨error, other⟩
  next updated db returned => cases h

theorem recoverRow_lowers (runtime : WorkflowRuntime) (limit : Nat)
    : Lowers (recoveryPage limit) (recoverRow runtime) RowDue
        (fun row other => row.workflowId ≠ other.workflowId) remaining where
  pageDue := by
    intro recovery row member
    obtain ⟨run, waiting, same, count⟩ := mem_recoveryPage member
    refine ⟨?_, same ▸ waiting.free, same ▸ count⟩
    rw [same]
    exact List.mem_map_of_mem waiting.stored
  pageApart := recoveryPage_apart limit
  lowers := by
    intro recovery row next due decided
    obtain ⟨decision, decided⟩ := recoverRow_ok decided
    exact decided.remaining_lt due
  waits := by
    intro recovery row next other due decided apart waiting
    obtain ⟨decision, decided⟩ := recoverRow_ok decided
    exact decided.waits apart waiting

end Rows

def lastDecision (decisions : List RunDecision) (workflowId : Uuid) : Option RunDecision :=
  decisions.find? (fun decision => decision.workflowId == workflowId)

/-- What a recovery keeps: a blocked run is stuck since its last decision, and a run without
a decision is as it was at the start.
-/
structure Recovering (start : Database) (recovery : Recovery) : Prop where
  stuck : ∀ workflowId ∈ recovery.blocked,
    ∃ decision, lastDecision recovery.decisions workflowId = some decision ∧ decision.Stuck
  untouched : ∀ run ∈ start.workflows.runs,
    (∀ decision ∈ recovery.decisions, decision.workflowId ≠ run.workflowId) →
      run ∈ recovery.db.workflows.runs
        ∧ pendingSignalCount recovery.db run.workflowId
          = pendingSignalCount start run.workflowId

theorem Recovering.start (db : Database) : Recovering db (.of db) where
  stuck := by simp [Recovery.of]
  untouched := by
    intro run member _
    exact ⟨member, rfl⟩

/-- Deciding a row keeps it: a blocked run has no later decision. -/
theorem Recovering.row {start : Database} {row : PendingRow}
    (recovering : Recovering start recovery)
    (due : RowDue recovery row) (decided : RowDecided recovery row decision next)
    : Recovering start next := by
  have stuck_other {workflowId : Uuid} (blocked : workflowId ∈ recovery.blocked)
      : ∃ decision, lastDecision next.decisions workflowId = some decision
          ∧ decision.Stuck := by
    have different : decision.workflowId ≠ workflowId := by
      intro same
      exact due.free (decided.workflowId ▸ same ▸ blocked)
    obtain ⟨last, found, stuck⟩ := recovering.stuck workflowId blocked
    refine ⟨last, ?_, stuck⟩
    rw [lastDecision, decided.decisions, List.find?_cons_of_neg (by simpa using different)]
    exact found
  constructor
  · intro workflowId blocked
    rcases decided.progress with here | fewer
    · rw [here.2, Finset.mem_insert] at blocked
      rcases blocked with same | earlier
      · refine ⟨decision, ?_, here.1⟩
        rw [lastDecision, decided.decisions,
          List.find?_cons_of_pos (by simp [decided.workflowId, same])]
      · exact stuck_other earlier
    · exact stuck_other (fewer.1 ▸ blocked)
  · intro run member undecided
    rw [decided.decisions] at undecided
    have different : run.workflowId ≠ row.workflowId := by
      rw [← decided.workflowId]
      exact (undecided decision List.mem_cons_self).symm
    obtain ⟨stored, pending⟩ := recovering.untouched run member
      (fun other listed => undecided other (List.mem_cons_of_mem _ listed))
    refine ⟨decided.spares.runs run stored different, ?_⟩
    rw [decided.spares.pending run.workflowId different, pending]

section Drains

variable [FactPayloadAdapter]

def DecisionRaised (runtime : WorkflowRuntime) (start : Database)
    (raised : Failure × Database)
    : Prop :=
  ∃ recovery row, Reached (recoverRow runtime) RowDue (.of start) recovery
    ∧ RowDue recovery row
    ∧ Raises (runtime.decide recovery.decisions.length row.workflowId) recovery.db raised.1
        raised.2
    ∧ ∀ message, raised.1 ≠ .workflowDefinitionUnavailable message

/-- Recovery ends, from every database and however few runs a page holds. Unless a decision
raises, it returns with every nonterminal run drained of signals or stuck at its last
decision, and every run that had a signal to begin with was decided.
-/
theorem recoverPendingSignals_drains (runtime : WorkflowRuntime) {limit : Nat}
    (positive : 1 ≤ limit) (db : Database)
    : ∃ result,
        (∃ bound, ∀ fuel, bound ≤ fuel →
          recoverPendingSignals runtime limit fuel db = some result)
        ∧ (∀ raised, result = .error raised → DecisionRaised runtime db raised)
        ∧ ∀ recovery, result = .ok recovery →
            (∀ run ∈ recovery.db.workflows.runs, run.status.recoverable = true →
              pendingSignalCount recovery.db run.workflowId = 0
              ∨ ∃ decision, lastDecision recovery.decisions run.workflowId = some decision
                  ∧ decision.Stuck)
            ∧ (∀ run ∈ db.workflows.runs, run.status.recoverable = true →
                0 < pendingSignalCount db run.workflowId →
                  ∃ decision ∈ recovery.decisions, decision.workflowId = run.workflowId) := by
  have started {fuel : Nat}
      : recoverPendingSignals runtime limit fuel db
        = drain (recoveryPage limit) (recoverRow runtime) fuel (.of db) := by
    rw [recoverPendingSignals, if_neg (by omega)]
  have lowers := recoverRow_lowers runtime limit
  rcases lowers.drain (Nat.lt_succ_self (remaining (.of db))) with ended | failed
  · obtain ⟨stop, drained, reached, empty⟩ := ended
    have recovering : Recovering db stop := by
      apply reached.invariant ?_ (Recovering.start db)
      intro recovery row next recovering due decided
      obtain ⟨decision, decided⟩ := recoverRow_ok decided
      exact recovering.row due decided
    refine ⟨.ok stop, ⟨_, fun fuel enough => started.trans (drain_mono drained enough)⟩, ?_, ?_⟩
    · intro raised same
      cases same
    · intro recovery same
      cases same
      have blocked (run : WorkflowRunRecord) (stored : run ∈ stop.db.workflows.runs)
          (recoverable : run.status.recoverable = true)
          (pending : 0 < pendingSignalCount stop.db run.workflowId)
          : run.workflowId ∈ stop.blocked := by
        by_contra free
        exact not_waiting_of_empty positive empty run ⟨stored, recoverable, free, pending⟩
      refine ⟨?_, ?_⟩
      · intro run stored recoverable
        rcases Nat.eq_zero_or_pos (pendingSignalCount stop.db run.workflowId) with none_ | some_
        · exact .inl none_
        · exact .inr (recovering.stuck _ (blocked run stored recoverable some_))
      · intro run stored recoverable pending
        by_contra undecided
        have nobody : ∀ decision ∈ stop.decisions, decision.workflowId ≠ run.workflowId := by
          intro decision listed same
          exact undecided ⟨decision, listed, same⟩
        obtain ⟨still, same⟩ := recovering.untouched run stored nobody
        obtain ⟨decision, found, -⟩ :=
          recovering.stuck _ (blocked run still recoverable (same ▸ pending))
        have own : decision.workflowId = run.workflowId := by
          simpa using List.find?_some found
        exact nobody decision (List.mem_of_find?_eq_some found) own
  · obtain ⟨raised, drained, recovery, row, reached, due, error⟩ := failed
    refine ⟨.error raised, ⟨_, fun fuel enough => started.trans (drain_mono drained enough)⟩,
      ?_, ?_⟩
    · intro other same
      cases same
      obtain ⟨raises, other⟩ := recoverRow_error error
      exact ⟨recovery, row, reached, due, raises, other⟩
    · intro recovery same
      cases same

end Drains

section Waiting

/-- Bodies of facts, in a recovery whose plans list none. -/
local instance plainBodies : FactPayloadAdapter := ⟨fun _ _ => none, fun _ => none⟩

/-- A machine that consumes the batch it is given. -/
def consuming : WorkflowRuntime where
  resolver := fun _ => .ok (fun input => .ok
    { state := ⟨input.run.revision, .running, input.run.state, none⟩
      consumeSignalIds := input.signals.map WorkflowSignalRecord.signalId })
  maxConflictRetries := 3
  clock := fun _ => 0
  supply := fun _ index => ⟨BitVec.ofNat 128 index⟩

/-- One running workflow with one pending signal. -/
def waitingDb : Database where
  repositoryId := 7
  workflows :=
    { runs :=
        { rows :=
            [{ workflowId := 1, definitionName := "static_dag", definitionVersion := 1,
               status := .running, revision := 0, state := ⟨"static_dag", 1, .nil⟩,
               createdAt := 0, updatedAt := 0, startedBy := ⟨.user, "owner"⟩,
               correlation := { correlationId := 2 } }]
          unique := List.pairwise_singleton _ _ }
      signals :=
        { rows :=
            [{ signalId := 3, workflowId := 1, deduplicationKey := "ticket:t1",
               createdAt := 0, payload := .external "ticket.finished" none .nil }]
          unique := List.pairwise_singleton _ _ } }

def leftPending (result : Option (Except (Failure × Database) Recovery)) (workflowId : Uuid)
    : Option Nat :=
  match result with
  | some (.ok recovery) => some (pendingSignalCount recovery.db workflowId)
  | _ => none

theorem recoverPendingSignals_drains_waitingDb
    : leftPending (recoverPendingSignals consuming 1 2 waitingDb) 1 = some 0
      ∧ ∃ result, ∃ bound, ∀ fuel, bound ≤ fuel →
          recoverPendingSignals consuming 1 fuel waitingDb = some result := by
  refine ⟨by decide +kernel, ?_⟩
  obtain ⟨result, ends, -⟩ := recoverPendingSignals_drains consuming (Nat.le_refl 1) waitingDb
  exact ⟨result, ends⟩

end Waiting

end Murder.Workflows

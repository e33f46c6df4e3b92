import Murder.Facts.Log
import Mathlib.Data.List.Sort

/-! Addressed workflow signals: the idempotent inbox, the waits a signal satisfies, and the
finite batch a decision loads.
-/

namespace Murder.Workflows

open Murder.Contracts Murder.Storage Library.Tables Library.Transactions

def getWorkflowRun (tables : WorkflowTables) (workflowOrParentId : Uuid)
    : Option WorkflowRunRecord :=
  tables.runs.find? (fun run =>
    run.workflowId == workflowOrParentId
      || run.parentTicketId == some workflowOrParentId.str)

def requireWorkflowRun (workflowId : Uuid) : Sql WorkflowRunRecord := do
  let db ← get
  orRaise (getWorkflowRun db.workflows workflowId)
    (.workflowNotFound s!"workflow {workflowId} does not exist")

/-- `ORDER BY created_at` and then by the text of an identifier, which sorts as its bits. -/
def createdBefore (left right : Timestamp × Uuid) : Prop :=
  left.1 < right.1 ∨ left.1 = right.1 ∧ left.2.bits.toNat ≤ right.2.bits.toNat

instance : DecidableRel createdBefore := fun _ _ => inferInstanceAs (Decidable (_ ∨ _))

def listWorkflowWaits (tables : WorkflowTables) (workflowId : Uuid)
    (includeSatisfied : Bool := true) : List WorkflowWaitRecord :=
  (tables.waits.select (fun wait =>
      wait.workflowId == workflowId && (includeSatisfied || wait.satisfiedAt.isNone))).insertionSort
    (fun left right => createdBefore (left.createdAt, left.waitId) (right.createdAt, right.waitId))

def getWorkflowSignal (tables : WorkflowTables) (signalId : Uuid)
    : Option WorkflowSignalRecord :=
  tables.signals.find? (fun signal => signal.signalId == signalId)

/-- The oldest signals of a workflow, at most `limit` of them. -/
def listWorkflowSignals (tables : WorkflowTables) (workflowId : Uuid)
    (includeConsumed : Bool := false) (limit : Nat := 100) : List WorkflowSignalRecord :=
  ((tables.signals.select (fun signal => signal.workflowId == workflowId
      && (includeConsumed || signal.consumedAt.isNone))).insertionSort
    (fun left right =>
      createdBefore (left.createdAt, left.signalId) (right.createdAt, right.signalId))).take limit

def loadWorkflowDecisionInput (workflowId : Uuid) (now : Timestamp) (signalLimit : Nat := 100)
    : Sql WorkflowDecisionInput := do
  let run ← requireWorkflowRun workflowId
  let db ← get
  raiseIf (signalLimit < 1) (.valueError "limit must be positive")
  pure {
    run := run
    waits := listWorkflowWaits db.workflows workflowId
    signals := listWorkflowSignals db.workflows workflowId false signalLimit
    now := now
  }

def finishedIds (tables : WorkflowTables) (workflowId : Uuid) : List Uuid :=
  (tables.signals.select (fun signal => signal.workflowId == workflowId)).filterMap
    (fun signal =>
      match signal.payload with
      | .activityFinished activityId _ => some activityId
      | _ => none)

def JoinMode.satisfied (mode : JoinMode) (matched joined : Nat) : Bool :=
  match mode with
  | .any => 1 ≤ matched
  | .all => matched == joined
  | .threshold count => count ≤ matched

def signalSatisfiesWait (tables : WorkflowTables) (workflowId : Uuid)
    (payload : WorkflowSignalPayload) (wait : WaitSpec) : Bool :=
  match wait, payload with
  | .activity activityId, .activityFinished finished _ => activityId == finished
  | .approval approvalId, .approvalResolved resolved _ => approvalId == resolved
  | .timer timerId _, .timerFired fired => timerId == fired
  | .externalSignal signalName wanted, .external name correlationKey _ =>
    signalName == name && (wanted.isNone || wanted == correlationKey)
  | .join activityIds mode _, .activityFinished finished _ =>
    let finishedBefore := finishedIds tables workflowId
    let matched := (activityIds.filter (fun id => finishedBefore.contains id)).length
    activityIds.contains finished && mode.satisfied matched activityIds.length
  | _, _ => false

def insertSignal (record : WorkflowSignalRecord) : Sql Unit :=
  insertInto fun db => do
    let _ ← db.workflows.runs.find? (fun run => run.workflowId == record.workflowId)
    let signals ← db.workflows.signals.insert? record
    pure { db with workflows := { db.workflows with signals := signals } }

def satisfyWait (waitId signalId : Uuid) (at_ : Timestamp) (db : Database) : Database :=
  { db with workflows := {
    db.workflows with
      waits := db.workflows.waits.update
        (fun wait => wait.waitId == waitId && wait.satisfiedAt.isNone)
        (fun wait => { wait with satisfiedAt := some at_, satisfiedBySignalId := some signalId })
  } }

/-- Mark the matching unsatisfied waits satisfied; the signal is not consumed. -/
def satisfyWaits (record : WorkflowSignalRecord) : Sql Unit := do
  let db ← get
  (listWorkflowWaits db.workflows record.workflowId false).forM (fun wait =>
    if signalSatisfiesWait db.workflows record.workflowId record.payload wait.spec then
      modify (satisfyWait wait.waitId record.signalId record.createdAt)
    else
      pure ())

/-- The signal stored under a deduplication key, which must carry the same payload. -/
def existingSignal (existing : WorkflowSignalRecord) (payload : WorkflowSignalPayload)
    : Sql WorkflowSignalRecord := do
  raiseIf (¬ existing.payload.pyEq payload)
    (.signalDeduplicationConflict existing.deduplicationKey)
  pure existing

/-- Store a signal with the waits it satisfies, unless its deduplication key is in use;
then the result is the signal stored under that key.
-/
def storeSignal (record : WorkflowSignalRecord) : Sql (Option WorkflowSignalRecord) :=
  transaction do
    let db ← get
    raiseIf (getWorkflowRun db.workflows record.workflowId = none)
      (.workflowNotFound s!"workflow {record.workflowId} does not exist")
    match db.workflows.signals.find? (fun signal =>
      signal.workflowId == record.workflowId
        && signal.deduplicationKey == record.deduplicationKey) with
    | some existing =>
      let original ← existingSignal existing record.payload
      pure (some original)
    | none =>
      insertSignal record
      satisfyWaits record
      pure none

def candidateSignal (supply : Supply) (workflowId : Uuid) (deduplicationKey : String)
    (payload : WorkflowSignalPayload) (createdAt : Timestamp) (signalId : Option Uuid)
    : WorkflowSignalRecord :=
  {
    signalId := signalId.getD (supply 0)
    workflowId := workflowId
    deduplicationKey := deduplicationKey
    createdAt := createdAt
    payload := payload
  }

/-- Create an addressed inbox record, or return the one its deduplication key names. -/
def enqueueWorkflowSignal (supply : Supply) (workflowId : Uuid) (deduplicationKey : String)
    (payload : WorkflowSignalPayload) (createdAt : Timestamp) (signalId : Option Uuid := none)
    : Sql WorkflowSignalRecord := do
  raiseIf (deduplicationKey = "") (.valueError "deduplication_key must not be empty")
  let candidate :=
    candidateSignal supply workflowId deduplicationKey payload createdAt signalId
  let existing ← storeSignal candidate
  match existing with
  | some original => pure original
  | none =>
    let db ← get
    orRaise (getWorkflowSignal db.workflows candidate.signalId)
      (.assertionError "created_record is not None")

theorem loadWorkflowDecisionInput_reads (workflowId : Uuid) (now : Timestamp) (limit : Nat)
    : Relates Eq (loadWorkflowDecisionInput workflowId now limit) := by
  refine Relates.bind (.bind .get (fun _ => .orRaise _ _)) (fun run => ?_)
  refine Relates.bind .get (fun db => ?_)
  exact .bind (.raiseIf _ _) (fun _ => .pure _)

def outsideInbox (db : Database) :=
  (db.repositoryId, db.workflows.runs, db.workflows.outbox, db.activities, db.facts,
    db.sessions, db.permissions)

/-- An enqueue converged on a stored signal, or appended exactly its candidate. -/
inductive Enqueued (candidate record : WorkflowSignalRecord) (start : Database)
    : Database → Prop
  | converged (member : record ∈ start.workflows.signals)
    (workflow : record.workflowId = candidate.workflowId)
    (key : record.deduplicationKey = candidate.deduplicationKey)
    (payload : record.payload.pyEq candidate.payload = true)
    : Enqueued candidate record start start
  | appended {stop} (same : record = candidate)
    (addressed : ∃ run ∈ start.workflows.runs, run.workflowId = record.workflowId)
    (fresh : ∀ signal ∈ start.workflows.signals, signalClash signal record = false)
    (rows : stop.workflows.signals.rows = start.workflows.signals.rows ++ [record])
    (frame : Keeps outsideInbox start stop)
    : Enqueued candidate record start stop

def outsideWaits (db : Database) :=
  (db.workflows.signals, outsideInbox db)

theorem satisfyWaits_frame (record : WorkflowSignalRecord)
    : Relates (Keeps outsideWaits) (satisfyWaits record) := by
  refine Relates.bind .get (fun db => Relates.forM (fun wait => ?_))
  split
  · exact Relates.modify (fun _ => rfl)
  · exact .pure _

variable {record : WorkflowSignalRecord} {start stop : Database}

theorem insertSignal_returns (h : Returns (insertSignal record) start () stop)
    : (∃ run ∈ start.workflows.runs, run.workflowId = record.workflowId)
      ∧ (∀ signal ∈ start.workflows.signals, signalClash signal record = false)
      ∧ stop.workflows.signals.rows = start.workflows.signals.rows ++ [record]
      ∧ Keeps outsideInbox start stop := by
  obtain ⟨run, found, h⟩ := Option.bind_eq_some_iff.mp (returns_insertInto.mp h)
  obtain ⟨signals, hs, hm⟩ := Option.bind_eq_some_iff.mp h
  obtain ⟨member, same⟩ := Table.mem_of_find? found
  obtain ⟨fresh, rows⟩ := Table.insert?_eq_some hs
  cases hm
  exact ⟨⟨run, member, eq_of_beq same⟩, fresh, rows, rfl⟩

/-- Storing a signal converges, or appends it and may satisfy waits. -/
theorem storeSignal_returns {existing : Option WorkflowSignalRecord}
    (h : Returns (storeSignal record) start existing stop)
    : match existing with
      | some original => Enqueued record original start stop
      | none => Enqueued record record start stop ∧ record ∈ stop.workflows.signals := by
  obtain ⟨db, _, hg, h⟩ := returns_bind.mp (returns_transaction.mp h)
  obtain ⟨rfl, rfl⟩ := returns_get.mp hg
  obtain ⟨_, _, hr, h⟩ := returns_bind.mp h
  obtain ⟨-, rfl⟩ := returns_raiseIf.mp hr
  split at h
  · next original ho =>
      obtain ⟨member, same⟩ := Table.mem_of_find? ho
      simp only [Bool.and_eq_true, beq_iff_eq] at same
      simp only [existingSignal, returns_bind, returns_raiseIf, returns_pure] at h
      obtain ⟨_, _, ⟨_, _, ⟨equal, rfl⟩, rfl, rfl⟩, rfl, rfl⟩ := h
      exact .converged member same.1 same.2 (by simpa using equal)
  · simp only [returns_bind, returns_pure] at h
    obtain ⟨_, middle, hi, _, last, hs, rfl, rfl⟩ := h
    obtain ⟨addressed, fresh, rows, frame⟩ := insertSignal_returns hi
    have waits := (satisfyWaits_frame record).returns hs
    have signals : last.workflows.signals = middle.workflows.signals := congrArg Prod.fst waits
    have rest : Keeps outsideInbox middle last := congrArg Prod.snd waits
    refine ⟨.appended rfl addressed fresh (by rw [signals, rows]) (Eq.trans rest frame), ?_⟩
    rw [signals, Table.mem_def, rows]
    simp

theorem getWorkflowSignal_of_mem {tables : WorkflowTables} (member : record ∈ tables.signals)
    : getWorkflowSignal tables record.signalId = some record := by
  refine Table.find?_eq_some member (beq_self_eq_true _) (fun other stored same => ?_)
  have equal : other.signalId = record.signalId := eq_of_beq same
  exact Table.eq_of_clash stored member (by simp [signalClash, equal])
    (by simp [signalClash, equal])

section Enqueue

variable {supply : Supply} {workflowId : Uuid} {deduplicationKey : String}
  {payload : WorkflowSignalPayload} {createdAt : Timestamp} {signalId : Option Uuid}

theorem enqueueWorkflowSignal_returns
    (h : Returns
      (enqueueWorkflowSignal supply workflowId deduplicationKey payload createdAt signalId)
      start record stop)
    : deduplicationKey ≠ ""
      ∧ Enqueued
          (candidateSignal supply workflowId deduplicationKey payload createdAt signalId)
          record start stop := by
  obtain ⟨_, _, hr, h⟩ := returns_bind.mp h
  obtain ⟨named, rfl⟩ := returns_raiseIf.mp hr
  obtain ⟨existing, middle, hs, h⟩ := returns_bind.mp h
  have stored := storeSignal_returns hs
  refine ⟨named, ?_⟩
  cases existing with
  | some original =>
    obtain ⟨rfl, rfl⟩ := returns_pure.mp h
    exact stored
  | none =>
    obtain ⟨db, _, hg, h⟩ := returns_bind.mp h
    obtain ⟨rfl, rfl⟩ := returns_get.mp hg
    obtain ⟨found, rfl⟩ := returns_orRaise.mp h
    rw [getWorkflowSignal_of_mem stored.2] at found
    cases found
    exact stored.1

/-- An enqueue that raises stores nothing: its read-back after the commit cannot fail. -/
theorem enqueueWorkflowSignal_raises {raised : Failure}
    (h : Raises
      (enqueueWorkflowSignal supply workflowId deduplicationKey payload createdAt signalId)
      start raised stop)
    : stop = start := by
  rcases raises_bind.mp h with hr | ⟨_, _, hr, h⟩
  · exact (raises_raiseIf hr).2
  obtain ⟨-, rfl⟩ := returns_raiseIf.mp hr
  rcases raises_bind.mp h with hs | ⟨existing, middle, hs, h⟩
  · exact raises_transaction hs
  cases existing with
  | some original => exact absurd h raises_pure
  | none =>
    obtain ⟨-, member⟩ := storeSignal_returns hs
    rcases raises_bind.mp h with hg | ⟨db, _, hg, h⟩
    · cases hg
    obtain ⟨rfl, rfl⟩ := returns_get.mp hg
    rw [getWorkflowSignal_of_mem member] at h
    cases h

end Enqueue

end Murder.Workflows

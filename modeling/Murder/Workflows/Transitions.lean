import Murder.Activities.Requests
import Murder.Permissions.Persistence

/-! Creation of workflow runs and the sole write path of their transitions.
A transition checks the revision it was decided at, consumes its signals, replaces state and
waits and requests its side effects, all or nothing.
-/

namespace Murder.Workflows

open Murder.Contracts Murder.Facts Murder.Storage Murder.Activities Murder.Permissions
open Library.Tables Library.Transactions

def workflowFactNamespace : Uuid := 0x6a3761aaa34f5d838ac41d4d59290c4f

def workflowFact (workflow : WorkflowRunRecord) (revision : Nat) (factId : Uuid)
    (payload : FactPayload) (occurredAt : Timestamp) (aggregate : Option AggregateRef := none)
    : RetainedFactDraft :=
  {
    factId := factId
    occurredAt := occurredAt
    aggregate := some (aggregate.getD {
      kind := "workflow"
      id := workflow.workflowId
      revision := some revision
    })
    actor := factActor workflow.startedBy
    correlation := workflow.correlation
    payload := payload
  }

def workflowInput (supply : Supply) (workflow : WorkflowRunRecord) (revision : Nat)
    : ProjectionInputDraft :=
  {
    inputId := supply 0
    projection := "workflow_runs"
    subjectKey := workflow.workflowId.str
    generation := revision
  }

def appendPlanFacts (workflow : WorkflowRunRecord) (revision : Nat) (createdAt : Timestamp)
    [FactPayloadAdapter] : Nat → List FactDraft → Sql Unit
  | _, [] => pure ()
  | ordinal, draft :: rest => do
      let payload ← fromExcept (factPayloadFromStorage draft.kind draft.payload)
      let aggregate := draft.aggregate.map (fun aggregate =>
        { kind := aggregate.kind, id := aggregate.id, revision := aggregate.revision })
      let factId := uuid5 workflowFactNamespace s!"{workflow.workflowId}:{revision}:{ordinal}"
      let _ ← appendFact (workflowFact workflow revision factId payload createdAt aggregate)
        [] createdAt
      appendPlanFacts workflow revision createdAt (ordinal + 1) rest

def appendTransitionFacts [FactPayloadAdapter] (supply : Supply) (workflow : WorkflowRunRecord)
    (revision : Nat) (plan : WorkflowTransitionPlan) (createdAt : Timestamp) : Sql Unit := do
  let factId := uuid5 workflowFactNamespace s!"{workflow.workflowId}:{revision}:transition"
  let payload := .workflowTransitionApplied workflow.workflowId workflow.status.value
    plan.state.status.value revision
  let _ ← appendFact (workflowFact workflow revision factId payload createdAt)
    [workflowInput supply workflow revision] createdAt
  appendPlanFacts workflow revision createdAt 0 plan.facts

def insertWait (wait : WorkflowWaitRecord) : Sql Unit :=
  insertInto fun db => do
    let waits ← db.workflows.waits.insert? wait
    pure { db with workflows := { db.workflows with waits := waits } }

def insertWaits (supply : Supply) (workflowId : Uuid) (createdAt : Timestamp)
    : List WaitSpec → Sql Unit
  | [] => pure ()
  | spec :: rest => do
      insertWait {
        waitId := supply 0
        workflowId := workflowId
        createdAt := createdAt
        spec := spec
      }
      insertWaits (supply.drop 1) workflowId createdAt rest

def referencedActivities (waits : List WaitSpec) : List Uuid :=
  waits.flatMap (fun wait =>
    match wait with
    | .activity activityId => [activityId]
    | .join activityIds _ _ => activityIds
    | _ => [])

def validateActivityWaitReferences (workflowId : Uuid) (waits : List WaitSpec)
    : Sql Unit := do
  let db ← get
  (referencedActivities waits).forM (fun activityId =>
    raiseIf ((getActivity db.activities activityId).map ActivityRecord.workflowId
        ≠ some workflowId)
      (.valueError
        s!"activity wait references unknown activity {activityId} for this workflow"))

def insertOutbox (row : OutboxRow) : Sql Unit :=
  insertInto fun db => do
    let outbox ← db.workflows.outbox.insert? row
    pure { db with workflows := { db.workflows with outbox := outbox } }

def outboxBatches : List (String × List JsonObject) := []

def appendTransitionOutbox (supply : Supply) (workflowId : Uuid) (revision : Nat)
    (createdAt : Timestamp) : Sql Unit :=
  outboxBatches.forM (fun batch =>
    batch.2.zipIdx.forM (fun entry =>
      insertOutbox {
        outboxId := supply entry.2
        workflowId := workflowId
        workflowRevision := revision
        kind := batch.1
        ordinal := entry.2
        payload := entry.1
        createdAt := createdAt
      }))

def checkWaits (status : WorkflowStatus) (waits : List WaitSpec) (waiting terminal : String)
    : Sql Unit := do
  raiseIf (status = .waiting ∧ waits = []) (.valueError waiting)
  raiseIf (status.terminal = true ∧ waits ≠ []) (.valueError terminal)

def insertRun (run : WorkflowRunRecord) : Sql Unit :=
  insertInto fun db => do
    let runs ← db.workflows.runs.insert? run
    pure { db with workflows := { db.workflows with runs := runs } }

def createWorkflowRun (supply : Supply) (run : WorkflowRunRecord) (waits : List WaitSpec := [])
    : Sql Unit := do
  checkWaits run.status waits "a waiting workflow requires at least one explicit wait"
    "a terminal workflow cannot have outstanding waits"
  transaction do
    insertRun run
    insertWaits (supply.drop 1) run.workflowId run.createdAt waits
    let factId := uuid5 workflowFactNamespace s!"{run.workflowId}:{run.revision}:started"
    let payload := .workflowStarted run.workflowId run.definitionName run.definitionVersion
      run.status.value
    let _ ← appendFact (workflowFact run run.revision factId payload run.createdAt)
      [workflowInput supply run run.revision] run.createdAt

def checkPlan (plan : WorkflowTransitionPlan) : Sql Unit := do
  raiseIf (¬ plan.consumeSignalIds.Nodup)
    (.signalConsumption "consume_signal_ids contains duplicates")
  checkWaits plan.state.status plan.replaceWaits
    "a waiting transition requires at least one explicit wait"
    "a terminal transition cannot install waits"

/-- The run a plan may replace: at the expected revision, not terminal, of one schema. -/
def transitionRow (workflowId : Uuid) (plan : WorkflowTransitionPlan)
    : Sql WorkflowRunRecord := do
  let db ← get
  let row ← orRaise (db.workflows.runs.find? (fun run => run.workflowId == workflowId))
    (.workflowNotFound s!"workflow {workflowId} does not exist")
  raiseIf (row.revision ≠ plan.state.expectedRevision)
    (.staleWorkflowRevision workflowId plan.state.expectedRevision row.revision)
  raiseIf row.status.terminal
    (.terminalWorkflowTransition s!"terminal workflow {workflowId} cannot transition")
  raiseIf ((row.state.schemaName, row.state.schemaVersion)
      ≠ (plan.state.state.schemaName, plan.state.state.schemaVersion))
    (.workflowStateMigrationRequired
      "workflow state schema changes require apply_workflow_state_migration")
  pure row

def markConsumed (signalIds : List Uuid) (revision : Nat) (at_ : Timestamp) (db : Database)
    : Database :=
  { db with workflows := {
    db.workflows with
      signals := db.workflows.signals.update
        (fun signal => signalIds.contains signal.signalId)
        (fun signal => {
          signal with consumedAt := some at_, consumedAtRevision := some revision
        })
  } }

def consumeSignals (workflowId : Uuid) (signalIds : List Uuid) (revision : Nat)
    (at_ : Timestamp) : Sql Unit := do
  let db ← get
  let signalRows := db.workflows.signals.select (fun signal =>
    signalIds.contains signal.signalId)
  raiseIf (signalRows.length ≠ signalIds.length)
    (.signalConsumption "one or more selected signals do not exist")
  signalRows.forM (fun signal => do
    raiseIf (signal.workflowId ≠ workflowId)
      (.signalConsumption "a workflow may only consume its own addressed signals")
    raiseIf signal.consumedAt.isSome
      (.signalConsumption "a selected signal is already consumed"))
  modify (markConsumed signalIds revision at_)

def replaced (plan : WorkflowTransitionPlan) (at_ : Timestamp) (run : WorkflowRunRecord)
    : WorkflowRunRecord :=
  {
    run with
      status := plan.state.status
      revision := plan.state.expectedRevision + 1
      state := plan.state.state
      updatedAt := at_
      terminalReason := plan.state.terminalReason
  }

def replaceRun (workflowId : Uuid) (plan : WorkflowTransitionPlan) (at_ : Timestamp)
    (db : Database) : Database :=
  { db with workflows := {
    db.workflows with
      runs := db.workflows.runs.update
        (fun run => run.workflowId == workflowId
          && run.revision == plan.state.expectedRevision)
        (replaced plan at_)
  } }

def replaceState (workflowId : Uuid) (plan : WorkflowTransitionPlan) (at_ : Timestamp)
    : Sql Unit := do
  let db ← get
  let updated := db.workflows.runs.count (fun run =>
    run.workflowId == workflowId && run.revision == plan.state.expectedRevision)
  modify (replaceRun workflowId plan at_)
  if updated ≠ 1 then
    let current ← requireWorkflowRun workflowId
    throw (.staleWorkflowRevision workflowId plan.state.expectedRevision current.revision)
  else
    pure ()

def deleteWaits (workflowId : Uuid) (db : Database) : Database :=
  { db with workflows := {
    db.workflows with
      waits := db.workflows.waits.delete (fun wait => wait.workflowId == workflowId)
  } }

/-- Everything a transition writes after its state: waits, requests and facts. -/
def installPlan [FactPayloadAdapter] (supply : Supply) (row : WorkflowRunRecord)
    (workflowId : Uuid) (plan : WorkflowTransitionPlan) (at_ : Timestamp) : Sql Unit := do
  let revision := plan.state.expectedRevision + 1
  let approvals := supply.drop (plan.replaceWaits.length + 1)
  modify (deleteWaits workflowId)
  insertWaits (supply.drop 1) workflowId at_ plan.replaceWaits
  insertActivityRequests workflowId revision at_ 0 plan.activities
  validateActivityWaitReferences workflowId plan.replaceWaits
  insertApprovalRequests approvals workflowId revision at_ plan.approvals
  appendTransitionOutbox (approvals.drop plan.approvals.length) workflowId revision at_
  appendTransitionFacts supply row revision plan at_

def transition [FactPayloadAdapter] (supply : Supply) (workflowId : Uuid)
    (plan : WorkflowTransitionPlan) (appliedAt : Timestamp) : Sql Unit := do
  let row ← transitionRow workflowId plan
  consumeSignals workflowId plan.consumeSignalIds (plan.state.expectedRevision + 1) appliedAt
  replaceState workflowId plan appliedAt
  installPlan supply row workflowId plan appliedAt

/-- Apply one pure decision: every write commits, or none does. -/
def applyTransitionPlan [FactPayloadAdapter] (supply : Supply) (workflowId : Uuid)
    (plan : WorkflowTransitionPlan) (appliedAt : Timestamp) : Sql WorkflowRunRecord := do
  checkPlan plan
  transaction (transition supply workflowId plan appliedAt)
  requireWorkflowRun workflowId

def outsideWaitsAndFacts (db : Database) :=
  (db.repositoryId, db.workflows.runs, db.workflows.signals, db.workflows.outbox,
    db.activities, db.sessions, db.permissions)

variable {start stop : Database}

theorem OnlyFacts.outsideWaitsAndFacts (h : OnlyFacts start stop)
    : Keeps outsideWaitsAndFacts start stop := by
  unfold Keeps Workflows.outsideWaitsAndFacts
  rw [h]

theorem insertWaits_frame (supply : Supply) (workflowId : Uuid) (createdAt : Timestamp)
    (waits : List WaitSpec)
    : Relates (Keeps outsideWaitsAndFacts) (insertWaits supply workflowId createdAt waits) := by
  induction waits generalizing supply with
  | nil => exact .pure _
  | cons spec rest ih =>
    refine Relates.bind (Relates.insertInto (fun start stop h => ?_)) (fun _ => ih _)
    obtain ⟨waits, -, hm⟩ := Option.bind_eq_some_iff.mp h
    cases hm
    rfl

variable {waits : List WaitSpec} {result : Unit}

theorem checkWaits_returns {status : WorkflowStatus} {waiting terminal : String}
    : Returns (checkWaits status waits waiting terminal) start result stop
      ↔ ¬ (status = .waiting ∧ waits = []) ∧ ¬ (status.terminal = true ∧ waits ≠ [])
        ∧ start = stop := by
  simp only [checkWaits, returns_bind, returns_raiseIf]
  constructor
  · rintro ⟨_, _, ⟨hw, rfl⟩, ht, rfl⟩
    exact ⟨hw, ht, rfl⟩
  · rintro ⟨hw, ht, rfl⟩
    exact ⟨(), start, ⟨hw, rfl⟩, ht, rfl⟩

variable {run : WorkflowRunRecord}

theorem createWorkflowRun_returns {supply : Supply}
    (h : Returns (createWorkflowRun supply run waits) start () stop)
    : ∃ middle, Returns (insertRun run) start () middle
        ∧ Keeps outsideWaitsAndFacts middle stop := by
  simp only [createWorkflowRun, returns_bind, returns_transaction, checkWaits_returns] at h
  obtain ⟨_, _, ⟨-, -, rfl⟩, _, middle, hi, _, installed, hw, _, last, hf, h⟩ := h
  obtain ⟨-, rfl⟩ := returns_pure.mp h
  refine ⟨middle, hi, trans_of _ ((insertWaits_frame _ _ _ _).returns hw) ?_⟩
  exact ((appendFact_onlyFacts _ _ _).imp OnlyFacts.outsideWaitsAndFacts).returns hf

/-- A new run was inserted; activities and signals are as they were. -/
structure Created (run : WorkflowRunRecord) (start stop : Database) : Prop where
  runs : start.workflows.runs.insert? run = some stop.workflows.runs
  activities : stop.activities = start.activities
  signals : stop.workflows.signals = start.workflows.signals
  repositoryId : stop.repositoryId = start.repositoryId

theorem createWorkflowRun_created {supply : Supply}
    (h : Returns (createWorkflowRun supply run waits) start () stop)
    : Created run start stop := by
  obtain ⟨middle, hi, frame⟩ := createWorkflowRun_returns h
  obtain ⟨runs, inserted, hm⟩ := Option.bind_eq_some_iff.mp (returns_insertInto.mp hi)
  cases hm
  simp only [Keeps, outsideWaitsAndFacts, Prod.mk.injEq] at frame
  obtain ⟨repository, same, signals, -, activities, -⟩ := frame
  exact ⟨by rw [same]; exact inserted, activities, signals, repository⟩

variable {raised : Failure}

theorem checkWaits_raises {status : WorkflowStatus} {waiting terminal : String}
    (h : Raises (checkWaits status waits waiting terminal) start raised stop)
    : stop = start := by
  rcases raises_bind.mp h with h | ⟨_, _, hr, h⟩
  · exact (raises_raiseIf h).2
  · obtain ⟨-, rfl⟩ := returns_raiseIf.mp hr
    exact (raises_raiseIf h).2

theorem createWorkflowRun_raises {supply : Supply}
    (h : Raises (createWorkflowRun supply run waits) start raised stop)
    : stop = start := by
  rcases raises_bind.mp h with h | ⟨_, _, hr, h⟩
  · exact checkWaits_raises h
  · obtain ⟨-, -, rfl⟩ := checkWaits_returns.mp hr
    exact raises_transaction h

/-- The checks a committed transition passed on its run. -/
structure Admissible (workflowId : Uuid) (plan : WorkflowTransitionPlan)
    (row : WorkflowRunRecord) : Prop where
  workflowId : row.workflowId = workflowId
  revision : row.revision = plan.state.expectedRevision
  nonterminal : row.status.terminal = false
  schema : (row.state.schemaName, row.state.schemaVersion)
    = (plan.state.state.schemaName, plan.state.state.schemaVersion)

theorem transitionRow_returns {workflowId : Uuid} {plan : WorkflowTransitionPlan}
    {row : WorkflowRunRecord} (h : Returns (transitionRow workflowId plan) start row stop)
    : start = stop ∧ row ∈ start.workflows.runs ∧ Admissible workflowId plan row := by
  simp only [transitionRow, returns_bind, returns_get, returns_orRaise, returns_raiseIf,
    returns_pure, not_not] at h
  obtain ⟨_, _, ⟨rfl, rfl⟩, _, _, ⟨found, rfl⟩, _, _, ⟨revision, rfl⟩, _, _,
    ⟨nonterminal, rfl⟩, _, _, ⟨schema, rfl⟩, rfl, rfl⟩ := h
  obtain ⟨member, same⟩ := Table.mem_of_find? found
  exact ⟨rfl, member, eq_of_beq same, revision, by simpa using nonterminal, schema⟩

/-- The checks a committed transition passed on the signals it lists. -/
def Consumable (workflowId : Uuid) (signalIds : List Uuid) (tables : WorkflowTables) : Prop :=
  (∀ id ∈ signalIds, ∃ signal ∈ tables.signals, signal.signalId = id)
  ∧ ∀ signal ∈ tables.signals, signal.signalId ∈ signalIds →
      signal.workflowId = workflowId ∧ signal.consumedAt = none

/-- Distinct listed ids that match equally many distinct stored ids all occur among them. -/
theorem listed_of_length {signals : List WorkflowSignalRecord} {signalIds : List Uuid}
    (apart : (signals.map WorkflowSignalRecord.signalId).Nodup)
    (within : ∀ signal ∈ signals, signal.signalId ∈ signalIds)
    (length : signals.length = signalIds.length)
    : ∀ id ∈ signalIds, ∃ signal ∈ signals, signal.signalId = id := by
  have subset : signals.map WorkflowSignalRecord.signalId ⊆ signalIds := by
    intro id member
    obtain ⟨signal, stored, rfl⟩ := List.mem_map.mp member
    exact within signal stored
  have permuted := (List.subperm_of_subset apart subset).perm_of_length_le (by simp [length])
  intro id member
  exact List.mem_map.mp (permuted.mem_iff.mpr member)

theorem signalIds_nodup (tables : WorkflowTables) (where_ : WorkflowSignalRecord → Bool)
    : ((tables.signals.select where_).map WorkflowSignalRecord.signalId).Nodup := by
  refine List.pairwise_map.mpr ((tables.signals.unique.filter where_).imp ?_)
  intro earlier later apart same
  simp [signalClash, same] at apart

theorem consumeSignals_returns {workflowId : Uuid} {signalIds : List Uuid} {revision : Nat}
    {at_ : Timestamp}
    (h : Returns (consumeSignals workflowId signalIds revision at_) start result stop)
    : Consumable workflowId signalIds start.workflows
      ∧ stop = markConsumed signalIds revision at_ start := by
  simp only [consumeSignals, returns_bind, returns_get, returns_raiseIf, returns_modify,
    not_not] at h
  obtain ⟨_, _, ⟨rfl, rfl⟩, _, _, ⟨length, rfl⟩, _, middle, checked, rfl⟩ := h
  obtain ⟨own, rfl⟩ := returns_forM (fun signal s t hr => by
    simp only [returns_bind, returns_raiseIf, not_not] at hr
    obtain ⟨_, _, ⟨workflow, rfl⟩, fresh, rfl⟩ := hr
    exact ⟨And.intro workflow (Option.not_isSome_iff_eq_none.mp fresh), rfl⟩) checked
  refine ⟨⟨?_, ?_⟩, rfl⟩
  · intro id member
    obtain ⟨signal, stored, same⟩ := listed_of_length (signalIds_nodup _ _)
      (fun signal stored => by simpa using (Table.mem_select.mp stored).2) length id member
    exact ⟨signal, (Table.mem_select.mp stored).1, same⟩
  · intro signal stored listed
    exact own signal (Table.mem_select.mpr ⟨stored, by simpa using listed⟩)

theorem replaceState_returns {workflowId : Uuid} {plan : WorkflowTransitionPlan} {at_ : Timestamp}
    (h : Returns (replaceState workflowId plan at_) start result stop)
    : stop = replaceRun workflowId plan at_ start := by
  simp only [replaceState, returns_bind, returns_get, returns_modify] at h
  obtain ⟨_, _, ⟨rfl, rfl⟩, _, _, rfl, h⟩ := h
  split at h
  · simp at h
  · exact (returns_pure.mp h).2.symm

/-- What installing a plan may change: waits, requested activities, approvals and facts. -/
structure Installed (start stop : Database) : Prop where
  activities : Requested start.activities stop.activities
  runs : stop.workflows.runs = start.workflows.runs
  signals : stop.workflows.signals = start.workflows.signals
  outbox : stop.workflows.outbox = start.workflows.outbox
  repositoryId : stop.repositoryId = start.repositoryId
  sessions : stop.sessions = start.sessions
  evidence : stop.permissions.evidence = start.permissions.evidence
  grants : stop.permissions.grants = start.permissions.grants
  uses : stop.permissions.uses = start.permissions.uses
  revocations : stop.permissions.revocations = start.permissions.revocations

instance : IsPreorder Database Installed where
  refl _ := ⟨refl_of Requested _, rfl, rfl, rfl, rfl, rfl, rfl, rfl, rfl, rfl⟩
  trans _ _ _ hl hr := {
    activities := trans_of Requested hl.activities hr.activities
    runs := hr.runs.trans hl.runs
    signals := hr.signals.trans hl.signals
    outbox := hr.outbox.trans hl.outbox
    repositoryId := hr.repositoryId.trans hl.repositoryId
    sessions := hr.sessions.trans hl.sessions
    evidence := hr.evidence.trans hl.evidence
    grants := hr.grants.trans hl.grants
    uses := hr.uses.trans hl.uses
    revocations := hr.revocations.trans hl.revocations
  }

theorem RequestStep.installed (h : RequestStep start stop)
    : Installed start stop := by
  refine ⟨h.activities, ?_, ?_, ?_, ?_, ?_, ?_, ?_, ?_, ?_⟩ <;> rw [h.rest]

theorem installed_of_waits (h : Keeps outsideWaitsAndFacts start stop)
    : Installed start stop := by
  simp only [Keeps, outsideWaitsAndFacts, Prod.mk.injEq] at h
  obtain ⟨repository, runs, signals, outbox, activities, sessions, permissions⟩ := h
  refine ⟨?_, runs, signals, outbox, repository, sessions, ?_, ?_, ?_, ?_⟩
  · rw [activities]
    exact refl_of Requested _
  all_goals rw [permissions]

theorem installed_of_requests (h : Keeps outsideRequests start stop)
    : Installed start stop := by
  simp only [Keeps, outsideRequests, Prod.mk.injEq] at h
  obtain ⟨repository, workflows, activities, sessions, evidence, grants, uses, revoked⟩ := h
  refine ⟨?_, ?_, ?_, ?_, repository, sessions, evidence, grants, uses, revoked⟩
  · rw [activities]
    exact refl_of Requested _
  all_goals rw [workflows]

theorem appendTransitionFacts_onlyFacts [FactPayloadAdapter] (supply : Supply)
    (workflow : WorkflowRunRecord) (revision : Nat) (plan : WorkflowTransitionPlan)
    (createdAt : Timestamp)
    : Relates OnlyFacts
        (appendTransitionFacts supply workflow revision plan createdAt) := by
  refine Relates.bind (appendFact_onlyFacts _ _ _) (fun _ => ?_)
  generalize 0 = ordinal
  induction plan.facts generalizing ordinal with
  | nil => exact .pure _
  | cons draft rest ih =>
    refine Relates.bind (.fromExcept _) (fun payload => ?_)
    exact .bind (appendFact_onlyFacts _ _ _) (fun _ => ih _)

/-- Installing a plan writes only what it may, stage by stage. -/
theorem installPlan_installed [FactPayloadAdapter] (supply : Supply) (row : WorkflowRunRecord)
    (workflowId : Uuid) (plan : WorkflowTransitionPlan) (at_ : Timestamp)
    : Relates Installed (installPlan supply row workflowId plan at_) := by
  refine Relates.bind (.modify (fun db => installed_of_waits rfl)) (fun _ => ?_)
  refine Relates.bind ((insertWaits_frame _ _ _ _).imp installed_of_waits) (fun _ => ?_)
  refine Relates.bind
    ((insertActivityRequests_requestStep _ _ _ _ _).imp RequestStep.installed) (fun _ => ?_)
  refine Relates.bind (.bind .get (fun _ => .forM (fun _ => .raiseIf _ _))) (fun _ => ?_)
  refine Relates.bind
    ((insertApprovalRequests_frame _ _ _ _ _).imp installed_of_requests) (fun _ => ?_)
  -- no batch is staged, so the outbox loop has no round
  refine Relates.bind (.pure _) (fun _ => ?_)
  exact (appendTransitionFacts_onlyFacts _ _ _ _ _).imp
    (fun h => installed_of_waits (OnlyFacts.outsideWaitsAndFacts h))

/-- A committed transition: the checks it passed on `start` and what it left in `stop`. -/
structure Committed (workflowId : Uuid) (plan : WorkflowTransitionPlan) (at_ : Timestamp)
    (start stop : Database) : Prop where
  distinct : plan.consumeSignalIds.Nodup
  waiting : ¬ (plan.state.status = .waiting ∧ plan.replaceWaits = [])
  terminal : ¬ (plan.state.status.terminal = true ∧ plan.replaceWaits ≠ [])
  row : ∃ row ∈ start.workflows.runs, Admissible workflowId plan row
  consumable : Consumable workflowId plan.consumeSignalIds start.workflows
  installed : Installed
    (replaceRun workflowId plan at_
      (markConsumed plan.consumeSignalIds (plan.state.expectedRevision + 1) at_ start)) stop

theorem checkPlan_returns {plan : WorkflowTransitionPlan}
    (h : Returns (checkPlan plan) start result stop)
    : plan.consumeSignalIds.Nodup ∧ ¬ (plan.state.status = .waiting ∧ plan.replaceWaits = [])
      ∧ ¬ (plan.state.status.terminal = true ∧ plan.replaceWaits ≠ []) ∧ start = stop := by
  simp only [checkPlan, returns_bind, returns_raiseIf, checkWaits_returns, not_not] at h
  obtain ⟨_, _, ⟨distinct, rfl⟩, waiting, terminal, rfl⟩ := h
  exact ⟨distinct, waiting, terminal, rfl⟩

theorem getWorkflowRun_isSome {tables : WorkflowTables} (member : run ∈ tables.runs)
    : ∃ found, getWorkflowRun tables run.workflowId = some found := by
  rw [← Option.ne_none_iff_exists']
  intro missing
  have absent := Table.find?_eq_none.mp missing run member
  simp at absent

theorem replaceRun_mem {db : Database} {row : WorkflowRunRecord} {workflowId : Uuid}
    {plan : WorkflowTransitionPlan} {appliedAt : Timestamp} (member : row ∈ db.workflows.runs)
    (admissible : Admissible workflowId plan row)
    : replaced plan appliedAt row ∈ (replaceRun workflowId plan appliedAt db).workflows.runs := by
  simp only [replaceRun, Table.mem_update]
  exact ⟨row, member, if_pos (by simp [admissible.workflowId, admissible.revision])⟩

section Apply

variable [FactPayloadAdapter] {supply : Supply} {workflowId : Uuid}
  {plan : WorkflowTransitionPlan} {appliedAt : Timestamp}

theorem transition_returns
    (h : Returns (transition supply workflowId plan appliedAt) start result stop)
    : (∃ row ∈ start.workflows.runs, Admissible workflowId plan row)
      ∧ Consumable workflowId plan.consumeSignalIds start.workflows
      ∧ Installed
          (replaceRun workflowId plan appliedAt
            (markConsumed plan.consumeSignalIds (plan.state.expectedRevision + 1) appliedAt
              start)) stop := by
  obtain ⟨row, _, hr, h⟩ := returns_bind.mp h
  obtain ⟨rfl, member, admissible⟩ := transitionRow_returns hr
  obtain ⟨_, consumed, hc, h⟩ := returns_bind.mp h
  obtain ⟨consumable, rfl⟩ := consumeSignals_returns hc
  obtain ⟨_, replaced, hs, h⟩ := returns_bind.mp h
  obtain rfl := replaceState_returns hs
  exact ⟨⟨row, member, admissible⟩, consumable, (installPlan_installed _ _ _ _ _).returns h⟩

theorem applyTransitionPlan_returns
    (h : Returns (applyTransitionPlan supply workflowId plan appliedAt) start run stop)
    : Committed workflowId plan appliedAt start stop
      ∧ getWorkflowRun stop.workflows workflowId = some run := by
  obtain ⟨_, _, hc, h⟩ := returns_bind.mp h
  obtain ⟨distinct, waiting, terminal, rfl⟩ := checkPlan_returns hc
  obtain ⟨_, middle, ht, h⟩ := returns_bind.mp h
  obtain ⟨row, consumable, installed⟩ := transition_returns (returns_transaction.mp ht)
  obtain ⟨found, rfl⟩ := requireWorkflowRun_returns.mp h
  exact ⟨⟨distinct, waiting, terminal, row, consumable, installed⟩, found⟩

/-- A transition that raises leaves the store exactly as it was: its checks write nothing,
its transaction rolls back, and the read-back after a commit finds the replaced run.
-/
theorem applyTransitionPlan_raises
    (h : Raises (applyTransitionPlan supply workflowId plan appliedAt) start raised stop)
    : stop = start := by
  rcases raises_bind.mp h with h | ⟨_, _, hc, h⟩
  · rcases raises_bind.mp h with h | ⟨_, _, hr, h⟩
    · exact (raises_raiseIf h).2
    · obtain ⟨-, rfl⟩ := returns_raiseIf.mp hr
      exact checkWaits_raises h
  obtain ⟨-, -, -, rfl⟩ := checkPlan_returns hc
  rcases raises_bind.mp h with h | ⟨_, middle, ht, h⟩
  · exact raises_transaction h
  obtain ⟨⟨row, member, admissible⟩, -, installed⟩ :=
    transition_returns (returns_transaction.mp ht)
  have stored : replaced plan appliedAt row ∈ middle.workflows.runs := by
    rw [installed.runs]
    exact replaceRun_mem member admissible
  obtain ⟨found, hf⟩ := getWorkflowRun_isSome stored
  have same : (replaced plan appliedAt row).workflowId = workflowId := admissible.workflowId
  rw [same] at hf
  rcases raises_bind.mp h with hg | ⟨db, _, hg, h⟩
  · cases hg
  obtain ⟨rfl, rfl⟩ := returns_get.mp hg
  rw [hf] at h
  cases h

end Apply

end Murder.Workflows

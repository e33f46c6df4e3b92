import Murder.Workflows.Signals

/-! Activity rows, the fact appended with each of their changes, and the pending rows a
transition requests.
-/

namespace Murder.Activities

open Murder.Contracts Murder.Facts Murder.Storage Murder.Workflows Library.Tables
open Library.Transactions

def activityFactNamespace : Uuid := 0x792f9708f68147b2a53eb3ef7a287c12

def getActivity (tables : ActivityTables) (activityId : Uuid) : Option ActivityRecord :=
  tables.records.find? (fun activity => activity.activityId == activityId)

def requireActivity (activityId : Uuid) : Sql ActivityRecord := do
  let db ← get
  orRaise (getActivity db.activities activityId)
    (.activityLifecycle s!"activity {activityId} does not exist")

def activityStateFact (activity : ActivityRecord) (operation : String)
    (correlation : Correlation) (timestamp : Timestamp) : RetainedFactDraft :=
  {
    factId := uuid5 activityFactNamespace
      s!"state:{activity.activityId}:{activity.revision}:{operation}"
    occurredAt := timestamp
    aggregate := some {
      kind := "activity"
      id := activity.activityId
      revision := some activity.revision
    }
    actor := { kind := "activity", id := activity.activityId.str }
    correlation := correlation
    payload := .activityStateChanged ("activity." ++ operation) activity.activityId
      activity.workflowId activity.status.value activity.revision activity.attempts
      activity.claimFence
  }

def appendActivityInput (activity : ActivityRecord) (operation : String)
    (timestamp : Timestamp) : Sql Unit := do
  let run ← requireWorkflowRun activity.workflowId
  let _ ← appendFact (activityStateFact activity operation run.correlation timestamp)
    [{
      inputId := uuid5 activityFactNamespace
        s!"{activity.activityId}:{activity.revision}:{operation}"
      projection := "activities"
      subjectKey := activity.activityId.str
      generation := activity.revision
    }]
    timestamp

def requestedActivity (workflowId : Uuid) (workflowRevision ordinal : Nat)
    (draft : ActivityRequestDraft) (createdAt : Timestamp) : ActivityRecord :=
  {
    activityId := draft.activityId
    workflowId := workflowId
    workflowRevision := workflowRevision
    ordinal := ordinal
    revision := 0
    status := .pending
    payload := draft.payload
    requirements := draft.payload.requirements
    idempotencyKey := draft.idempotencyKey
    priority := draft.priority
    retryPolicy := draft.retryPolicy
    maxAttempts := draft.maxAttempts
    positive := draft.positive
    createdAt := createdAt
    updatedAt := createdAt
  }

def insertActivity (row : ActivityRecord) : Sql Unit :=
  insertInto fun db => do
    let records ← db.activities.records.insert? row
    pure { db with activities := { db.activities with records := records } }

def insertActivityRequests (workflowId : Uuid) (workflowRevision : Nat) (createdAt : Timestamp)
    : Nat → List ActivityRequestDraft → Sql Unit
  | _, [] => pure ()
  | ordinal, draft :: rest => do
      insertActivity (requestedActivity workflowId workflowRevision ordinal draft createdAt)
      raiseIf (draft.retryPolicy = "") (.valueError "activity record does not validate")
      let activity ← requireActivity draft.activityId
      appendActivityInput activity "created" createdAt
      insertActivityRequests workflowId workflowRevision createdAt (ordinal + 1) rest

theorem requireWorkflowRun_returns {workflowId : Uuid} {start stop : Database}
    {run : WorkflowRunRecord}
    : Returns (requireWorkflowRun workflowId) start run stop
      ↔ getWorkflowRun start.workflows workflowId = some run ∧ start = stop := by
  simp only [requireWorkflowRun, returns_bind, returns_get, returns_orRaise]
  constructor
  · rintro ⟨_, _, ⟨rfl, rfl⟩, found⟩
    exact found
  · intro found
    exact ⟨start, start, ⟨rfl, rfl⟩, found⟩

variable {activity : ActivityRecord}

theorem requireActivity_returns {activityId : Uuid} {start stop : Database}
    : Returns (requireActivity activityId) start activity stop
      ↔ getActivity start.activities activityId = some activity ∧ start = stop := by
  simp only [requireActivity, returns_bind, returns_get, returns_orRaise]
  constructor
  · rintro ⟨_, _, ⟨rfl, rfl⟩, found⟩
    exact found
  · intro found
    exact ⟨start, start, ⟨rfl, rfl⟩, found⟩

theorem requireActivity_reads (activityId : Uuid) : Relates Eq (requireActivity activityId) :=
  .bind .get (fun _ => .orRaise _ _)

theorem getActivity_mem {tables : ActivityTables} {activityId : Uuid}
    (h : getActivity tables activityId = some activity)
    : activity ∈ tables.records ∧ activity.activityId = activityId := by
  obtain ⟨member, same⟩ := Table.mem_of_find? h
  exact ⟨member, eq_of_beq same⟩

theorem activity_eq_of_id {records : Table ActivityRecord activityClash}
    {left right : ActivityRecord} (hl : left ∈ records) (hr : right ∈ records)
    (same : left.activityId = right.activityId)
    : left = right :=
  Table.eq_of_clash hl hr (by simp [activityClash, same]) (by simp [activityClash, same])

theorem getActivity_of_mem {tables : ActivityTables} (member : activity ∈ tables.records)
    : getActivity tables activity.activityId = some activity :=
  Table.find?_eq_some member (beq_self_eq_true _)
    (fun _ stored same => activity_eq_of_id stored member (eq_of_beq same))

theorem appendActivityInput_onlyFacts (activity : ActivityRecord) (operation : String)
    (timestamp : Timestamp)
    : Relates OnlyFacts (appendActivityInput activity operation timestamp) := by
  refine Relates.bind (.bind .get (fun _ => .orRaise _ _)) (fun run => ?_)
  exact .bind (appendFact_onlyFacts _ _ _) (fun _ => .pure _)

/-- A row nothing was done to yet. -/
structure Pristine (row : ActivityRecord) : Prop where
  status : row.status = .pending
  attempts : row.attempts = 0
  claimFence : row.claimFence = 0
  claimedBy : row.claimedBy = none
  leaseExpiresAt : row.leaseExpiresAt = none

/-- The activity table grew at most by pristine rows; reservations, locks and results are
as they were.
-/
structure Requested (start stop : ActivityTables) : Prop where
  records : ∃ fresh, stop.records.rows = start.records.rows ++ fresh
    ∧ ∀ row ∈ fresh, Pristine row
  rest : stop = { start with records := stop.records }

instance : IsPreorder ActivityTables Requested where
  refl tables := ⟨⟨[], by simp, by simp⟩, rfl⟩
  trans start middle stop hl hr := by
    obtain ⟨⟨before, hb, pristine⟩, same⟩ := hl
    obtain ⟨⟨after, ha, pristine'⟩, same'⟩ := hr
    refine ⟨⟨before ++ after, by rw [ha, hb, List.append_assoc], ?_⟩, ?_⟩
    · intro row member
      rcases List.mem_append.mp member with member | member
      · exact pristine row member
      · exact pristine' row member
    · rw [same', same]

variable {start stop : ActivityTables}

/-- A stored row stays stored while activities are requested. -/
theorem Requested.mem (h : Requested start stop)
    {row : ActivityRecord} (member : row ∈ start.records)
    : row ∈ stop.records := by
  obtain ⟨fresh, rows, -⟩ := h.records
  rw [Table.mem_def, rows]
  exact List.mem_append_left _ member

theorem Requested.reservations (h : Requested start stop)
    : stop.reservations = start.reservations := by rw [h.rest]

theorem Requested.locks (h : Requested start stop)
    : stop.locks = start.locks := by rw [h.rest]

theorem Requested.results (h : Requested start stop)
    : stop.results = start.results := by rw [h.rest]

/-- A row of the grown table was stored before, or is pristine under a new id. -/
theorem Requested.cases (h : Requested start stop)
    {row : ActivityRecord} (member : row ∈ stop.records)
    : row ∈ start.records
      ∨ (Pristine row ∧ ∀ old ∈ start.records, old.activityId ≠ row.activityId) := by
  obtain ⟨fresh, rows, pristine⟩ := h.records
  have unique := stop.records.unique
  rw [Table.mem_def, rows] at member
  rw [rows] at unique
  rcases List.mem_append.mp member with stored | new
  · exact .inl stored
  · refine .inr ⟨pristine row new, ?_⟩
    intro old stored same
    have apart := (List.pairwise_append.mp unique).2.2 old stored row new
    simp [activityClash, same] at apart

/-- Requests change at most activities and facts. -/
structure RequestStep (start stop : Database) : Prop where
  activities : Requested start.activities stop.activities
  rest : stop = { start with activities := stop.activities, facts := stop.facts }

instance : IsPreorder Database RequestStep where
  refl db := ⟨refl_of Requested _, rfl⟩
  trans start middle stop hl hr := by
    refine ⟨trans_of Requested hl.activities hr.activities, ?_⟩
    rw [hr.rest, hl.rest]

theorem OnlyFacts.requestStep {start stop : Database} (h : OnlyFacts start stop)
    : RequestStep start stop := by
  refine ⟨?_, ?_⟩
  · rw [h.activities]
    exact refl_of Requested _
  · rw [h]

theorem insertActivity_requestStep (workflowId : Uuid) (workflowRevision ordinal : Nat)
    (draft : ActivityRequestDraft) (createdAt : Timestamp)
    : Relates RequestStep
        (insertActivity (requestedActivity workflowId workflowRevision ordinal draft createdAt))
      := by
  refine Relates.insertInto (fun start stop h => ?_)
  obtain ⟨records, hr, hm⟩ := Option.bind_eq_some_iff.mp h
  cases hm
  refine ⟨⟨⟨_, (Table.insert?_eq_some hr).2, ?_⟩, rfl⟩, rfl⟩
  intro row member
  rw [List.mem_singleton.mp member]
  exact ⟨rfl, rfl, rfl, rfl, rfl⟩

/-- Every requested row is pristine, by induction over the drafts. -/
theorem insertActivityRequests_requestStep (workflowId : Uuid) (workflowRevision : Nat)
    (createdAt : Timestamp) (ordinal : Nat) (drafts : List ActivityRequestDraft)
    : Relates RequestStep
        (insertActivityRequests workflowId workflowRevision createdAt ordinal drafts) := by
  induction drafts generalizing ordinal with
  | nil => exact .pure _
  | cons draft rest ih =>
    refine Relates.bind (insertActivity_requestStep _ _ _ _ _) (fun _ => ?_)
    refine Relates.bind (.raiseIf _ _) (fun _ => ?_)
    refine Relates.bind (.bind .get (fun _ => .orRaise _ _)) (fun activity => ?_)
    refine Relates.bind ?_ (fun _ => ih _)
    exact (appendActivityInput_onlyFacts _ _ _).imp OnlyFacts.requestStep

end Murder.Activities

import Murder.Workflows.Events

/-! Optimistic concurrency of deciders and signal producers over whole runs. -/

namespace Murder.Workflows

open Murder.Contracts Murder.Facts Murder.Storage Library.Tables Library.Transactions Library.Runs

/-- Consecutive integers up to `last`. -/
def Consecutive (revisions : List Nat) (last : Nat) : Prop :=
  ∃ first, revisions = List.range' first revisions.length
    ∧ first + revisions.length = last + 1

theorem Consecutive.nil (last : Nat) : Consecutive [] last := ⟨last + 1, rfl, rfl⟩

theorem Consecutive.snoc {revisions : List Nat} {last : Nat} (h : Consecutive revisions last)
    : Consecutive (revisions ++ [last + 1]) (last + 1) := by
  obtain ⟨first, range, length⟩ := h
  refine ⟨first, ?_, ?_⟩
  · rw [List.length_append, List.length_singleton, List.range'_1_concat, ← range, length]
  · rw [List.length_append, List.length_singleton]
    omega

def committedRevisions (workflowId : Uuid) (committed : List Commit) : List Nat :=
  (committed.filter (fun commit => commit.workflowId == workflowId)).map Commit.revision

def listings (signalId : Uuid) (committed : List Commit) : List Commit :=
  committed.filter (fun commit => commit.signalIds.contains signalId)

/-- A signal is unconsumed and listed nowhere, or consumed at the revision of the one
transition that lists it, which is one of its own workflow.
-/
inductive Accounted (committed : List Commit) (signal : WorkflowSignalRecord) : Prop
  | unconsumed (fresh : signal.consumedAt = none) (revision : signal.consumedAtRevision = none)
    (unlisted : listings signal.signalId committed = [])
    : Accounted committed signal
  | consumed (commit : Commit) (own : commit.workflowId = signal.workflowId)
    (used : signal.consumedAt.isSome = true)
    (revision : signal.consumedAtRevision = some commit.revision)
    (listed : listings signal.signalId committed = [commit])
    : Accounted committed signal

/-- The later record is the same signal; at most it was consumed since. -/
structure Original (record later : WorkflowSignalRecord) : Prop where
  signalId : later.signalId = record.signalId
  workflowId : later.workflowId = record.workflowId
  deduplicationKey : later.deduplicationKey = record.deduplicationKey
  createdAt : later.createdAt = record.createdAt
  payload : later.payload = record.payload

/-- Everything the store says about the events that led to it. -/
structure History (events : List WorkflowEvent) (db : Database) : Prop where
  revisions : ∀ run ∈ db.workflows.runs,
    Consecutive (committedRevisions run.workflowId (commits events)) run.revision
  accounted : ∀ signal ∈ db.workflows.signals, Accounted (commits events) signal
  known : ∀ commit ∈ commits events,
    (∃ run ∈ db.workflows.runs, run.workflowId = commit.workflowId)
    ∧ commit.signalIds.Nodup
    ∧ ∀ id ∈ commit.signalIds, ∃ signal ∈ db.workflows.signals, signal.signalId = id
  sent : ∀ event ∈ events, ∀ record, event.sent? = some record →
    ∃ signal ∈ db.workflows.signals, Original record signal
  addressed : ∀ signal ∈ db.workflows.signals, signal.deduplicationKey ≠ ""
    ∧ ∃ run ∈ db.workflows.runs, run.workflowId = signal.workflowId

variable {workflowId signalId : Uuid} {plan : WorkflowTransitionPlan} {at_ : Timestamp}
  {run : WorkflowRunRecord} {signal record : WorkflowSignalRecord} {past : List WorkflowEvent}

section Runs

variable {start stop : Database}

theorem run_eq_of_id {tables : WorkflowTables} {left right : WorkflowRunRecord}
    (hl : left ∈ tables.runs) (hr : right ∈ tables.runs)
    (same : left.workflowId = right.workflowId)
    : left = right :=
  Table.eq_of_clash hl hr (by simp [runClash, same]) (by simp [runClash, same])

theorem Committed.run_cases (h : Committed workflowId plan at_ start stop)
    (member : run ∈ stop.workflows.runs)
    : (∃ row ∈ start.workflows.runs, Admissible workflowId plan row ∧ run = replaced plan at_ row)
      ∨ run ∈ start.workflows.runs ∧ run.workflowId ≠ workflowId := by
  obtain ⟨row, stored, admissible⟩ := h.row
  simp only [h.installed.runs, replaceRun, markConsumed, Table.mem_update] at member
  obtain ⟨old, known, same⟩ := member
  by_cases own : old.workflowId = workflowId
  · have equal : old = row := run_eq_of_id known stored (own.trans admissible.workflowId.symm)
    rw [equal, if_pos (by simp [admissible.workflowId, admissible.revision])] at same
    exact .inl ⟨row, stored, admissible, same.symm⟩
  · rw [if_neg (by simp [own])] at same
    rw [← same]
    exact .inr ⟨known, own⟩

/-- Every run is still there after a transition; one that is not terminal may be replaced. -/
theorem Committed.run_kept (h : Committed workflowId plan at_ start stop)
    (member : run ∈ start.workflows.runs)
    : ∃ next ∈ stop.workflows.runs, next.workflowId = run.workflowId
        ∧ (run.status.terminal = true → next = run) := by
  obtain ⟨row, stored, admissible⟩ := h.row
  simp only [h.installed.runs, replaceRun, markConsumed, Table.mem_update]
  refine ⟨_, ⟨run, member, rfl⟩, ?_⟩
  split
  · next selected =>
      simp only [Bool.and_eq_true, beq_iff_eq] at selected
      have equal : run = row :=
        run_eq_of_id member stored (selected.1.trans admissible.workflowId.symm)
      refine ⟨rfl, fun terminal => ?_⟩
      rw [equal, admissible.nonterminal] at terminal
      cases terminal
  · exact ⟨rfl, fun _ => rfl⟩

/-- A signal after a transition was listed and unconsumed and is consumed now, or is as it
was and not listed.
-/
theorem Committed.signal_cases (h : Committed workflowId plan at_ start stop)
    (member : signal ∈ stop.workflows.signals)
    : (∃ old ∈ start.workflows.signals, old.signalId ∈ plan.consumeSignalIds
        ∧ old.workflowId = workflowId ∧ old.consumedAt = none
        ∧ signal = {
            old with
              consumedAt := some at_
              consumedAtRevision := some (plan.state.expectedRevision + 1)
          })
      ∨ signal ∈ start.workflows.signals ∧ signal.signalId ∉ plan.consumeSignalIds := by
  simp only [h.installed.signals, replaceRun, markConsumed, Table.mem_update] at member
  obtain ⟨old, stored, same⟩ := member
  by_cases listed : old.signalId ∈ plan.consumeSignalIds
  · obtain ⟨own, fresh⟩ := h.consumable.2 old stored listed
    rw [if_pos (List.contains_iff_mem.mpr listed)] at same
    exact .inl ⟨old, stored, listed, own, fresh, same.symm⟩
  · rw [if_neg (by simpa using listed)] at same
    rw [← same]
    exact .inr ⟨stored, listed⟩

theorem Committed.signal_kept (h : Committed workflowId plan at_ start stop)
    (member : signal ∈ start.workflows.signals)
    : ∃ next ∈ stop.workflows.signals, Original signal next := by
  simp only [h.installed.signals, replaceRun, markConsumed, Table.mem_update]
  refine ⟨_, ⟨signal, member, rfl⟩, ?_⟩
  split <;> exact ⟨rfl, rfl, rfl, rfl, rfl⟩

/-- Runs stay, terminal ones as they are, and signals stay what they were. -/
structure Onward (start stop : Database) : Prop where
  runs : ∀ run ∈ start.workflows.runs, ∃ next ∈ stop.workflows.runs,
    next.workflowId = run.workflowId ∧ (run.status.terminal = true → next = run)
  signals : ∀ signal ∈ start.workflows.signals, ∃ next ∈ stop.workflows.signals,
    Original signal next

theorem Original.refl (record : WorkflowSignalRecord) : Original record record :=
  ⟨rfl, rfl, rfl, rfl, rfl⟩

theorem Original.trans {middle later : WorkflowSignalRecord} (hl : Original record middle)
    (hr : Original middle later)
    : Original record later where
  signalId := hr.signalId.trans hl.signalId
  workflowId := hr.workflowId.trans hl.workflowId
  deduplicationKey := hr.deduplicationKey.trans hl.deduplicationKey
  createdAt := hr.createdAt.trans hl.createdAt
  payload := hr.payload.trans hl.payload

instance : IsPreorder Database Onward where
  refl _ := ⟨fun run member => ⟨run, member, rfl, fun _ => rfl⟩,
    fun signal member => ⟨signal, member, .refl signal⟩⟩
  trans _ _ _ hl hr := by
    refine ⟨fun run member => ?_, fun signal member => ?_⟩
    · obtain ⟨middle, stored, same, kept⟩ := hl.runs run member
      obtain ⟨next, stored', same', kept'⟩ := hr.runs middle stored
      refine ⟨next, stored', same'.trans same, fun terminal => ?_⟩
      have equal := kept terminal
      rw [kept' (by rw [equal]; exact terminal), equal]
    · obtain ⟨middle, stored, original⟩ := hl.signals signal member
      obtain ⟨next, stored', original'⟩ := hr.signals middle stored
      exact ⟨next, stored', original.trans original'⟩

/-- Stores with the same runs and more signals. -/
theorem onward_of_more {start stop : Database} (runs : stop.workflows.runs = start.workflows.runs)
    (signals : ∀ signal ∈ start.workflows.signals, signal ∈ stop.workflows.signals)
    : Onward start stop := by
  refine ⟨fun run member => ?_, fun signal member => ?_⟩
  · rw [runs]
    exact ⟨run, member, rfl, fun _ => rfl⟩
  · exact ⟨signal, signals signal member, .refl signal⟩

theorem Enqueued.cases {candidate : WorkflowSignalRecord} (h : Enqueued candidate record start stop)
    : stop.workflows.runs = start.workflows.runs
      ∧ record ∈ stop.workflows.signals
      ∧ ∀ signal, signal ∈ stop.workflows.signals ↔
          signal ∈ start.workflows.signals ∨ signal = record := by
  cases h with
  | converged member =>
    refine ⟨rfl, member, fun signal => ⟨.inl, fun either => ?_⟩⟩
    rcases either with stored | same
    · exact stored
    · rw [same]
      exact member
  | appended _ _ _ rows frame =>
    simp only [Keeps, outsideInbox, Prod.mk.injEq] at frame
    have members : ∀ signal, signal ∈ stop.workflows.signals ↔
        signal ∈ start.workflows.signals ∨ signal = record := by
      intro signal
      rw [Table.mem_def, rows, List.mem_append, List.mem_singleton, ← Table.mem_def]
    exact ⟨frame.2.1, (members record).mpr (.inr rfl), members⟩

theorem Progress.onward {event : WorkflowEvent} (h : Progress start event stop)
    : Onward start stop := by
  cases h with
  | idle => exact refl_of Onward start
  | created _ _ created =>
    refine ⟨fun run member => ?_, fun signal member => ?_⟩
    · exact ⟨run, (Table.mem_of_insert? created.runs).mpr (.inl member), rfl, fun _ => rfl⟩
    · rw [created.signals]
      exact ⟨signal, member, .refl signal⟩
  | committed _ _ commit => exact ⟨fun _ => commit.run_kept, fun _ => commit.signal_kept⟩
  | enqueued _ _ _ _ stored =>
    obtain ⟨runs, -, members⟩ := stored.cases
    exact onward_of_more runs (fun signal member => (members signal).mpr (.inl member))

theorem commits_snoc (past : List WorkflowEvent) (event : WorkflowEvent)
    : commits (past ++ [event]) = commits past ++ event.commit?.toList := by
  rw [commits, List.filterMap_append]
  cases h : event.commit? <;> simp [commits, h]

theorem sent_snoc {event : WorkflowEvent} (h : History past start) (onward : Onward start stop)
    (last : ∀ record, event.sent? = some record → record ∈ stop.workflows.signals)
    : ∀ earlier ∈ past ++ [event], ∀ record, earlier.sent? = some record →
        ∃ signal ∈ stop.workflows.signals, Original record signal := by
  intro earlier member record sent
  rcases List.mem_append.mp member with before | final
  · obtain ⟨signal, stored, original⟩ := h.sent earlier before record sent
    obtain ⟨next, stored', original'⟩ := onward.signals signal stored
    exact ⟨next, stored', original.trans original'⟩
  · rw [List.mem_singleton.mp final] at sent
    exact ⟨record, last record sent, .refl record⟩

/-- What committed transitions name is still stored. -/
theorem known_onward (h : History past start) (onward : Onward start stop)
    : ∀ commit ∈ commits past,
        (∃ run ∈ stop.workflows.runs, run.workflowId = commit.workflowId)
        ∧ commit.signalIds.Nodup
        ∧ ∀ id ∈ commit.signalIds, ∃ signal ∈ stop.workflows.signals, signal.signalId = id := by
  intro commit member
  obtain ⟨⟨run, stored, own⟩, distinct, listed⟩ := h.known commit member
  refine ⟨?_, distinct, fun id inside => ?_⟩
  · obtain ⟨next, stored', same, -⟩ := onward.runs run stored
    exact ⟨next, stored', same.trans own⟩
  · obtain ⟨signal, stored', same⟩ := h.known commit member |>.2.2 id inside
    obtain ⟨next, stored'', original⟩ := onward.signals signal stored'
    exact ⟨next, stored'', original.signalId.trans same⟩

theorem listings_snoc (committed : List Commit) (last : Commit) (listed : signalId ∈ last.signalIds)
    : listings signalId (committed ++ [last]) = listings signalId committed ++ [last] := by
  simp [listings, listed]

theorem listings_snoc_other (committed : List Commit) (last : Commit)
    (unlisted : signalId ∉ last.signalIds)
    : listings signalId (committed ++ [last]) = listings signalId committed := by
  simp [listings, unlisted]

theorem committedRevisions_snoc (committed : List Commit) (last : Commit)
    (own : last.workflowId = workflowId)
    : committedRevisions workflowId (committed ++ [last])
      = committedRevisions workflowId committed ++ [last.revision] := by
  simp [committedRevisions, own]

theorem committedRevisions_snoc_other (committed : List Commit)
    (last : Commit) (other : last.workflowId ≠ workflowId)
    : committedRevisions workflowId (committed ++ [last])
      = committedRevisions workflowId committed := by
  simp [committedRevisions, other]

theorem committedRevisions_of_unknown (h : History past start)
    (unknown : ∀ run ∈ start.workflows.runs, run.workflowId ≠ workflowId)
    : committedRevisions workflowId (commits past) = [] := by
  rw [committedRevisions, List.map_eq_nil_iff, List.filter_eq_nil_iff]
  intro commit member own
  obtain ⟨⟨run, stored, same⟩, -⟩ := h.known commit member
  exact unknown run stored (same.trans (eq_of_beq own))

theorem listings_of_unknown (h : History past start)
    (unknown : ∀ signal ∈ start.workflows.signals, signal.signalId ≠ signalId)
    : listings signalId (commits past) = [] := by
  rw [listings, List.filter_eq_nil_iff]
  intro commit member listed
  obtain ⟨-, -, stored⟩ := h.known commit member
  obtain ⟨signal, known, same⟩ := stored signalId (List.contains_iff_mem.mp listed)
  exact unknown signal known same

theorem History.created {event : WorkflowEvent}
    (h : History past start) (uncommitted : event.commit? = none)
    (unsent : event.sent? = none) (created : Created run start stop)
    : History (past ++ [event]) stop := by
  have onward : Onward start stop := Progress.onward (.created uncommitted unsent created)
  have same : commits (past ++ [event]) = commits past := by
    rw [commits_snoc, uncommitted, Option.toList_none, List.append_nil]
  obtain ⟨fresh, -⟩ := Table.insert?_eq_some created.runs
  refine ⟨fun row member => ?_, ?_, ?_, sent_snoc h onward ?_, fun signal member => ?_⟩
  · rw [same]
    rcases (Table.mem_of_insert? created.runs).mp member with old | new
    · exact h.revisions row old
    · rw [committedRevisions_of_unknown h]
      · exact .nil _
      · intro other stored own
        have apart := fresh other stored
        simp [runClash, new, own] at apart
  · rw [same, created.signals]
    exact h.accounted
  · rw [same]
    exact known_onward h onward
  · intro record sent
    rw [unsent] at sent
    cases sent
  · rw [created.signals] at member
    obtain ⟨named, row, stored, own⟩ := h.addressed signal member
    exact ⟨named, row, (Table.mem_of_insert? created.runs).mpr (.inl stored), own⟩

theorem History.enqueued {event : WorkflowEvent}
    {candidate : WorkflowSignalRecord} (h : History past start)
    (uncommitted : event.commit? = none) (sent : event.sent? = some record)
    (named : candidate.deduplicationKey ≠ "")
    (unconsumed : candidate.consumedAt = none ∧ candidate.consumedAtRevision = none)
    (stored : Enqueued candidate record start stop)
    : History (past ++ [event]) stop := by
  have onward : Onward start stop :=
    Progress.onward (.enqueued uncommitted sent named unconsumed stored)
  have same : commits (past ++ [event]) = commits past := by
    rw [commits_snoc, uncommitted, Option.toList_none, List.append_nil]
  obtain ⟨runs, member, members⟩ := stored.cases
  -- a signal after the enqueue was stored before or is the new record
  have signals : ∀ signal ∈ stop.workflows.signals, signal ∈ start.workflows.signals
      ∨ signal = candidate
        ∧ (∃ run ∈ start.workflows.runs, run.workflowId = candidate.workflowId)
        ∧ ∀ other ∈ start.workflows.signals, other.signalId ≠ candidate.signalId := by
    intro signal inside
    cases stored with
    | converged => exact .inl inside
    | appended equal addressed fresh =>
      rcases (members signal).mp inside with old | new
      · exact .inl old
      · refine .inr ⟨new.trans equal, equal ▸ addressed, fun other known clash => ?_⟩
        have apart := fresh other known
        simp [signalClash, equal, clash] at apart
  refine ⟨?_, fun signal inside => ?_, ?_, sent_snoc h onward ?_, fun signal inside => ?_⟩
  · rw [same, runs]
    exact h.revisions
  · rw [same]
    rcases signals signal inside with old | ⟨new, -, unknown⟩
    · exact h.accounted signal old
    · rw [new]
      exact .unconsumed unconsumed.1 unconsumed.2 (listings_of_unknown h unknown)
  · rw [same]
    exact known_onward h onward
  · intro other equal
    rw [sent] at equal
    cases equal
    exact member
  · rw [runs]
    rcases signals signal inside with old | ⟨new, addressed, -⟩
    · exact h.addressed signal old
    · rw [new]
      exact ⟨named, addressed⟩

theorem History.committed {past : List WorkflowEvent} {event : WorkflowEvent}
    {workflowId : Uuid} {plan : WorkflowTransitionPlan} (h : History past start)
    (committed : event.commit?
      = some ⟨workflowId, plan.state.expectedRevision + 1, plan.consumeSignalIds⟩)
    (unsent : event.sent? = none) (commit : Committed workflowId plan event.now start stop)
    : History (past ++ [event]) stop := by
  have onward : Onward start stop := Progress.onward (.committed committed unsent commit)
  have more : commits (past ++ [event]) = commits past
      ++ [⟨workflowId, plan.state.expectedRevision + 1, plan.consumeSignalIds⟩] := by
    rw [commits_snoc, committed, Option.toList_some]
  refine ⟨fun run member => ?_, fun signal member => ?_, ?_, sent_snoc h onward ?_,
    fun signal member => ?_⟩
  · rw [more]
    rcases commit.run_cases member with ⟨row, stored, admissible, replacement⟩ | ⟨old, other⟩
    · have own : run.workflowId = workflowId := by
        rw [replacement]
        exact admissible.workflowId
      have before := h.revisions row stored
      rw [admissible.workflowId, admissible.revision] at before
      rw [own, replacement, committedRevisions_snoc _ ⟨workflowId, _, _⟩ rfl]
      exact before.snoc
    · rw [committedRevisions_snoc_other _ ⟨workflowId, _, _⟩ (Ne.symm other)]
      exact h.revisions run old
  · rw [more]
    rcases commit.signal_cases member with ⟨old, stored, listed, own, fresh, consumed⟩ |
      ⟨old, unlisted⟩
    · have unlisted : listings old.signalId (commits past) = [] := by
        cases h.accounted old stored with
        | unconsumed _ _ unlisted => exact unlisted
        | consumed _ _ used => simp [fresh] at used
      rw [consumed]
      refine .consumed ⟨workflowId, plan.state.expectedRevision + 1, plan.consumeSignalIds⟩
        own.symm rfl rfl ?_
      rw [listings_snoc _ ⟨workflowId, _, plan.consumeSignalIds⟩ listed, unlisted, List.nil_append]
    · have same := listings_snoc_other (commits past)
        ⟨workflowId, plan.state.expectedRevision + 1, plan.consumeSignalIds⟩ unlisted
      cases h.accounted signal old with
      | unconsumed fresh revision none_ => exact .unconsumed fresh revision (same.trans none_)
      | consumed last own used revision listed =>
        exact .consumed last own used revision (same.trans listed)
  · intro last member
    rw [more] at member
    rcases List.mem_append.mp member with before | final
    · exact known_onward h onward last before
    · rw [List.mem_singleton.mp final]
      obtain ⟨row, stored, admissible⟩ := commit.row
      obtain ⟨next, stored', same, -⟩ := onward.runs row stored
      refine ⟨⟨next, stored', same.trans admissible.workflowId⟩, commit.distinct,
        fun id listed => ?_⟩
      obtain ⟨signal, known, equal⟩ := commit.consumable.1 id listed
      obtain ⟨later, known', original⟩ := onward.signals signal known
      exact ⟨later, known', original.signalId.trans equal⟩
  · intro record sent
    rw [unsent] at sent
    cases sent
  · have addressed : ∀ old ∈ start.workflows.signals, old.deduplicationKey ≠ ""
        ∧ ∃ run ∈ stop.workflows.runs, run.workflowId = old.workflowId := by
      intro old stored
      obtain ⟨named, run, known, own⟩ := h.addressed old stored
      obtain ⟨next, known', same, -⟩ := onward.runs run known
      exact ⟨named, next, known', same.trans own⟩
    rcases commit.signal_cases member with ⟨old, stored, -, -, -, consumed⟩ | ⟨old, -⟩
    · rw [consumed]
      exact addressed old stored
    · exact addressed signal old

theorem History.progress {event : WorkflowEvent}
    (h : History past start) (step : Progress start event stop)
    : History (past ++ [event]) stop := by
  cases step with
  | idle uncommitted unsent =>
    have same : commits (past ++ [event]) = commits past := by
      rw [commits_snoc, uncommitted, Option.toList_none, List.append_nil]
    refine ⟨?_, ?_, ?_, sent_snoc h (refl_of Onward start) ?_, h.addressed⟩
    · rw [same]
      exact h.revisions
    · rw [same]
      exact h.accounted
    · rw [same]
      exact h.known
    · intro record sent
      rw [unsent] at sent
      cases sent
  | created uncommitted unsent created => exact h.created uncommitted unsent created
  | committed committed unsent commit => exact h.committed committed unsent commit
  | enqueued uncommitted sent named unconsumed stored =>
    exact h.enqueued uncommitted sent named unconsumed stored

/-- Sending a stored signal again, with an equal payload, returns the stored record. -/
theorem enqueueWorkflowSignal_again
    {payload : WorkflowSignalPayload} (supply : Supply) (createdAt : Timestamp)
    (signalId : Option Uuid) (member : signal ∈ start.workflows.signals)
    (named : signal.deduplicationKey ≠ "")
    (addressed : ∃ run ∈ start.workflows.runs, run.workflowId = signal.workflowId)
    (equal : signal.payload.pyEq payload = true)
    : Returns (enqueueWorkflowSignal supply signal.workflowId signal.deduplicationKey payload
        createdAt signalId) start signal start := by
  obtain ⟨run, stored, own⟩ := addressed
  obtain ⟨found, lookup⟩ := getWorkflowRun_isSome stored
  rw [own] at lookup
  have first : start.workflows.signals.find? (fun other =>
      other.workflowId == signal.workflowId
        && other.deduplicationKey == signal.deduplicationKey) = some signal := by
    refine Table.find?_eq_some member (by simp) (fun other known same => ?_)
    simp only [Bool.and_eq_true, beq_iff_eq] at same
    exact Table.eq_of_clash known member (by simp [signalClash, same]) (by simp [signalClash, same])
  simp only [enqueueWorkflowSignal, returns_bind, returns_raiseIf]
  refine ⟨(), start, ⟨named, rfl⟩, some signal, start, ?_, returns_pure.mpr ⟨rfl, rfl⟩⟩
  simp only [storeSignal, returns_transaction, returns_bind, returns_get, returns_raiseIf]
  refine ⟨start, start, ⟨rfl, rfl⟩, (), start, ⟨?_, rfl⟩, ?_⟩
  · simp [candidateSignal, lookup]
  · simp only [candidateSignal, first]
    simp [existingSignal, equal]

end Runs

variable {events : List WorkflowEvent}

section Concurrency

variable [FactPayloadAdapter] {start stop : Database} {event : WorkflowEvent}

theorem history_of_run {db : Database} (h : Run NoWorkflows WorkflowStep events db)
    : History events db := by
  refine h.history ?_ (fun past start event stop past_ step => past_.progress step.progress)
  intro start empty
  obtain ⟨runs, signals⟩ := empty
  refine ⟨?_, ?_, (fun _ member => nomatch member), (fun _ member => nomatch member), ?_⟩
  · rw [runs]
    exact fun _ member => absurd member Table.not_mem_empty
  · rw [signals]
    exact fun _ member => absurd member Table.not_mem_empty
  · rw [signals]
    exact fun _ member => absurd member Table.not_mem_empty

theorem onward_of_steps (h : Steps WorkflowStep start events stop)
    : Onward start stop :=
  h.related (fun _ _ _ step => step.progress.onward)

/-- An application that raises leaves the whole store as it was. -/
theorem WorkflowStep.refused {raised : Failure} (h : WorkflowStep start event stop)
    (op : event.op = .applyTransitionPlan workflowId plan) (outcome : event.outcome = .error raised)
    : stop = start := by
  obtain ⟨ended, last⟩ := h
  rw [op, WorkflowOp.exec, outcome_map, outcome] at ended
  rw [op, WorkflowOp.exec, final_map] at last
  rcases returns_or_raises
    (applyTransitionPlan event.supply workflowId plan event.now) start with
    ⟨run, returned⟩ | ⟨failure, refused⟩
  · rw [outcome_of_returns returned] at ended
    cases ended
  · rw [last] at refused
    exact applyTransitionPlan_raises refused

/-- The call sends a stored signal's payload again. -/
def Resends (event : WorkflowEvent) (signal : WorkflowSignalRecord) : Prop :=
  ∃ payload signalId, signal.payload.pyEq payload = true
    ∧ event.op = .enqueueSignal signal.workflowId signal.deduplicationKey payload signalId

theorem WorkflowStep.converges (h : WorkflowStep start event stop) (history : History events start)
    (member : signal ∈ start.workflows.signals) (again : Resends event signal)
    : event.outcome = .ok (.enqueued signal) ∧ stop = start := by
  obtain ⟨payload, signalId, equal, op⟩ := again
  obtain ⟨named, addressed⟩ := history.addressed signal member
  have returned := enqueueWorkflowSignal_again event.supply event.now signalId member named
    addressed equal
  obtain ⟨ended, last⟩ := h
  rw [op, WorkflowOp.exec, outcome_map, outcome_of_returns returned] at ended
  rw [op, WorkflowOp.exec, final_map, final_of_returns returned] at last
  exact ⟨ended.symm, last.symm⟩

/-- Optimistic concurrency, for every interleaving of producers and deciders. -/
theorem optimisticConcurrency {events : List WorkflowEvent} {db : Database}
    (run : Run NoWorkflows WorkflowStep events db)
    : -- committed revisions are consecutive and end at the stored one
      (∀ row ∈ db.workflows.runs,
        Consecutive (committedRevisions row.workflowId (commits events)) row.revision)
      -- signals are consumed once, by the transition that lists them
      ∧ ((∀ signal ∈ db.workflows.signals, Accounted (commits events) signal)
        ∧ ∀ commit ∈ commits events, commit.signalIds.Nodup
          ∧ ∀ id ∈ commit.signalIds, ∃ signal ∈ db.workflows.signals, signal.signalId = id)
      -- terminal runs never change
      ∧ (∀ later stop, Steps WorkflowStep db later stop →
        ∀ row ∈ db.workflows.runs, row.status.terminal = true → row ∈ stop.workflows.runs)
      -- a refused transition leaves the store as it was
      ∧ (∀ event stop workflowId plan raised, WorkflowStep db event stop →
        event.op = .applyTransitionPlan workflowId plan → event.outcome = .error raised →
        stop = db)
      -- no sent signal is lost, and sending one again returns the stored record
      ∧ (∀ event ∈ events, ∀ record, event.sent? = some record →
        ∃ signal ∈ db.workflows.signals, Original record signal)
      ∧ ∀ event stop signal, WorkflowStep db event stop → signal ∈ db.workflows.signals →
        Resends event signal → event.outcome = .ok (.enqueued signal) ∧ stop = db := by
  have history := history_of_run run
  refine ⟨history.revisions, ⟨history.accounted, fun commit member => ?_⟩, ?_, ?_,
    history.sent, ?_⟩
  · exact (history.known commit member).2
  · intro later stop steps row member terminal
    obtain ⟨next, stored, -, same⟩ := (onward_of_steps steps).runs row member
    rw [← same terminal]
    exact stored
  · intro event stop workflowId plan raised step op refused
    exact step.refused op refused
  · intro event stop signal step member again
    exact step.converges history member again

end Concurrency

section Delivery

/-- Bodies of facts, in a run whose plans list none. -/
local instance : FactPayloadAdapter := ⟨fun _ _ => none, fun _ => none⟩

/-- A run is created, sent a signal, and its first transition consumes the signal. -/
def delivery : List WorkflowOp :=
  let state : VersionedState := ⟨"static_dag", 1, .nil⟩
  [.createWorkflowRun
      {
        workflowId := 1
        definitionName := "static_dag"
        definitionVersion := 1
        status := .running
        revision := 0
        state := state
        createdAt := 0
        updatedAt := 0
        startedBy := ⟨.user, "owner"⟩
        correlation := { correlationId := 2 }
      } [],
    .enqueueSignal 1 "ticket:t1" (.external "ticket.finished" none .nil) (some 3),
    .applyTransitionPlan 1
      { state := ⟨0, .running, state, none⟩, consumeSignalIds := [3] }]

def afterCalls (calls : List WorkflowOp) (start : Database) : Database :=
  calls.foldl (fun db op => final (op.exec (fun index => ⟨BitVec.ofNat 128 index⟩) 0 db)) start

theorem steps_afterCalls (calls : List WorkflowOp) (start : Database)
    : ∃ events, Steps WorkflowStep start events (afterCalls calls start) := by
  induction calls generalizing start with
  | nil => exact ⟨[], .nil start⟩
  | cons op rest ih =>
    obtain ⟨events, steps⟩ := steps_of_call op (fun index => ⟨BitVec.ofNat 128 index⟩) 0 start
    obtain ⟨more, remaining⟩ := ih (final (op.exec _ 0 start))
    exact ⟨events ++ more, steps.append remaining⟩

theorem optimisticConcurrency_of_delivery
    : ∃ events db, Run NoWorkflows WorkflowStep events db
        ∧ (∃ signal ∈ db.workflows.signals, signal.consumedAtRevision = some 1)
        ∧ ∀ signal ∈ db.workflows.signals, Accounted (commits events) signal := by
  have consumed : (afterCalls delivery { repositoryId := 7 }).workflows.signals.rows.any
      (fun signal => signal.consumedAtRevision == some 1) = true := by
    decide +kernel
  obtain ⟨events, steps⟩ := steps_afterCalls delivery { repositoryId := 7 }
  have run : Run NoWorkflows WorkflowStep events (afterCalls delivery { repositoryId := 7 }) :=
    ⟨_, ⟨rfl, rfl⟩, steps⟩
  obtain ⟨signal, member, revision⟩ := List.any_eq_true.mp consumed
  exact ⟨events, _, run, ⟨signal, member, eq_of_beq revision⟩,
    (optimisticConcurrency run).2.1.1⟩

end Delivery

end Murder.Workflows

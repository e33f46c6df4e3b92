import Murder.Activities.Attempts
import Murder.Activities.Dispatching

/-! The claims a tick grants: their leases, and the outcomes of their executions. -/

namespace Murder.Activities

open Murder.Contracts Murder.Facts Murder.Storage Murder.Workflows Library.Tables
open Library.Transactions Library.Runs

----------------------------------------
-- A held claim
----------------------------------------

/-- The row of a claim in progress, whose lease is not over before the deadline. -/
structure Holds (claim : ActivityClaim) (deadline : Timestamp) (row : ActivityRecord) : Prop where
  own : row.activityId = claim.activityId
  inProgress : row.status.inProgress = true
  attempt : row.attempts = claim.attempt
  owner : row.claimedBy = some claim.owner
  fence : row.claimFence = claim.fence
  lease : ∃ expiry, row.leaseExpiresAt = some expiry ∧ deadline ≤ expiry

/-- The store holds the claim and no result of its attempt. -/
structure Held (claim : ActivityClaim) (deadline : Timestamp) (db : Database) : Prop where
  row : ∃ row ∈ db.activities.records, Holds claim deadline row
  unfinished
    : ∀ result ∈ db.activities.results,
        ¬(result.activityId = claim.activityId ∧ result.attempt = claim.attempt)

/-- The two claims differ at most in their expiry. -/
def SameClaim (left right : ActivityClaim) : Prop :=
  right = { left with expiresAt := right.expiresAt }

variable {where_ : ActivityRecord → Bool} {change : ActivityRecord → ActivityRecord}
  {failure : Failure} {activityId : Uuid} {outcome : ActivityOutcome} {activity : ActivityRecord}

section Store

variable {claim : ActivityClaim} {deadline now : Timestamp} {leaseFor : Duration}
  {start stop : Database} {row : ActivityRecord}

theorem Holds.holdsClaim (holds : Holds claim deadline row) (early : now < deadline)
    : holdsClaim claim now row = true := by
  obtain ⟨expiry, lease, late⟩ := holds.lease
  simp only [Activities.holdsClaim, holds.own, holds.attempt, holds.owner, holds.fence, lease,
    Option.any_some, beq_self_eq_true, Bool.true_and, decide_eq_true_eq]
  exact early.trans_le late

theorem Held.renamed {next : ActivityClaim} (same : SameClaim claim next)
    (held : Held claim deadline start)
    : Held next deadline start := by
  rw [same]
  obtain ⟨row, member, holds⟩ := held.row
  exact ⟨⟨row, member, holds.own, holds.inProgress, holds.attempt, holds.owner, holds.fence,
    holds.lease⟩, held.unfinished⟩

theorem count_one (member : row ∈ start.activities.records) (selected : where_ row = true)
    (own : ∀ other, where_ other = true → other.activityId = row.activityId)
    : start.activities.records.count where_ = 1 := by
  have most : (start.activities.records.select where_).length ≤ 1 := by
    refine Table.select_length_le_one _ (fun left right hl hr => ?_)
    simp [activityClash, own left hl, own right hr]
  have least : 0 < (start.activities.records.select where_).length :=
    List.length_pos_of_mem (Table.mem_select.mpr ⟨member, selected⟩)
  show (start.activities.records.select where_).length = 1
  omega

theorem updateActivities_raises {keeps : Table.KeepsKeys activityClash change}
    : ¬Raises (updateActivities where_ change keeps) start failure stop := by
  intro h
  cases h

theorem requireActivity_raises
    (member : row ∈ start.activities.records) (own : row.activityId = activityId)
    : ¬Raises (requireActivity activityId) start failure stop := by
  intro h
  subst own
  have reads := requireActivity_returns.mpr ⟨getActivity_of_mem member, rfl⟩
  rw [Raises, reads] at h
  cases h

theorem Held.update
    {keeps : Table.KeepsKeys activityClash change} (held : Held claim deadline start)
    (kept : ∀ row, Holds claim deadline row → Holds claim deadline (change row))
    (store : OnlyFacts (updated start where_ change keeps) stop)
    : Held claim deadline stop := by
  obtain ⟨row, member, holds⟩ := held.row
  constructor
  · refine ⟨if where_ row then change row else row, ?_, ?_⟩
    · rw [store.activities]
      exact Table.mem_update_row keeps member
    · split
      · exact kept row holds
      · exact holds
  · rw [store.activities]
    exact held.unfinished

theorem recordedChange_raises {keeps : Table.KeepsKeys activityClash change}
    {operation : String} {refusal : Failure}
    (member : row ∈ start.activities.records) (own : row.activityId = claim.activityId)
    (selected : where_ row = true) (named : (change row).activityId = row.activityId)
    (only : ∀ other, where_ other = true → other.activityId = row.activityId)
    (h : Raises (do
      let updated ← updateActivities where_ change keeps
      raiseIf (updated ≠ 1) refusal
      let activity ← requireActivity claim.activityId
      appendActivityInput activity operation now) start failure stop)
    : Clash failure := by
  rcases raises_bind.mp h with h | ⟨count, _, hu, h⟩
  · exact absurd h updateActivities_raises
  obtain ⟨same, rfl⟩ := updateActivities_returns.mp hu
  rw [count_one member selected only] at same
  rcases raises_bind.mp h with h | ⟨_, _, hr, h⟩
  · exact absurd same.symm (raises_raiseIf h).1
  obtain ⟨-, rfl⟩ := returns_raiseIf.mp hr
  rcases raises_bind.mp h with h | ⟨activity, _, ha, h⟩
  · have stored := Table.mem_update_of keeps member selected
    exact absurd h (requireActivity_raises stored (named.trans own))
  obtain ⟨-, rfl⟩ := requireActivity_returns.mp ha
  exact appendActivityInput_clash _ _ _ _ _ _ h

/-- Within the deadline a renewal moves the expiry, unless an id clashes. -/
theorem Held.renew (held : Held claim deadline start) (early : now < deadline)
    (longer : deadline ≤ now + leaseFor) (positive : 0 < leaseFor)
    : (∃ next stop, Returns (renewActivityClaim claim leaseFor now) start next stop
          ∧ SameClaim claim next ∧ Held claim deadline stop)
      ∨ ∃ failure, Raises (renewActivityClaim claim leaseFor now) start failure start
          ∧ Clash failure := by
  obtain ⟨row, member, holds⟩ := held.row
  rcases returns_or_raises (renewActivityClaim claim leaseFor now) start
    with ⟨next, returned⟩ | ⟨failure, raised⟩
  · refine .inl ⟨next, _, returned, ?_⟩
    obtain ⟨_, _, hv, h⟩ := returns_bind.mp returned
    obtain ⟨-, rfl⟩ := returns_raiseIf.mp hv
    obtain ⟨_, _, ht, h⟩ := returns_bind.mp h
    obtain ⟨rfl, last⟩ := returns_pure.mp h
    obtain ⟨_, _, hu, h⟩ := returns_bind.mp (returns_transaction.mp ht)
    obtain ⟨-, rfl⟩ := updateActivities_returns.mp hu
    obtain ⟨_, _, hr, h⟩ := returns_bind.mp h
    obtain ⟨-, rfl⟩ := returns_raiseIf.mp hr
    refine ⟨rfl, ?_⟩
    rw [← last]
    have facts := recorded h
    refine held.update (fun row holds => ?_) facts
    exact ⟨holds.own, holds.inProgress, holds.attempt, holds.owner, holds.fence, _, rfl, longer⟩
  · refine .inr ⟨failure, ?_⟩
    rcases raises_bind.mp raised with h | ⟨_, _, hv, h⟩
    · have short := (raises_raiseIf h).1
      exact absurd positive (not_lt.mpr short)
    · obtain ⟨-, rfl⟩ := returns_raiseIf.mp hv
      rcases raises_bind.mp h with h | ⟨_, _, -, h⟩
      · have same := raises_transaction h
        rw [same] at raised
        refine ⟨raised, ?_⟩
        obtain ⟨last, body⟩ := raises_of_transaction h
        refine recordedChange_raises member holds.own ?_ rfl ?_ body
        · simp [holds.inProgress, holds.holdsClaim early]
        · intro other selected
          simp only [Activities.holdsClaim, Bool.and_eq_true, beq_iff_eq] at selected
          exact selected.2.1.1.1.1.trans holds.own.symm
      · exact absurd h raises_pure

def Persisted (claim : ActivityClaim) (outcome : ActivityOutcome) (db : Database) : Prop :=
  ∃ result ∈ db.activities.results,
    result.activityId = claim.activityId ∧ result.attempt = claim.attempt
    ∧ result.outcome = outcome

theorem Persisted.renamed {next : ActivityClaim}
    (same : SameClaim claim next) (persisted : Persisted next outcome start)
    : Persisted claim outcome start := by
  obtain ⟨result, member, own, attempt, kept⟩ := persisted
  rw [same] at own attempt
  exact ⟨result, member, own, attempt, kept⟩

theorem finish_value {supply : Supply} {value : Completion}
    (h : Returns (finish supply activity claim outcome now) start value stop)
    : ∃ result workflowId retrying, value = .stored result workflowId retrying := by
  obtain ⟨_, _, -, h⟩ := returns_bind.mp h
  obtain ⟨_, _, -, h⟩ := returns_bind.mp h
  obtain ⟨_, _, -, h⟩ := returns_bind.mp h
  obtain ⟨_, _, -, h⟩ := returns_bind.mp h
  obtain ⟨_, _, -, h⟩ := returns_bind.mp h
  obtain ⟨_, _, -, h⟩ := returns_bind.mp h
  split at h
  · exact ⟨_, _, _, (returns_pure.mp h).1.symm⟩
  · obtain ⟨_, _, -, h⟩ := returns_bind.mp h
    exact ⟨_, _, _, (returns_pure.mp h).1.symm⟩

theorem Stored.persisted {supply : Supply}
    (stored : Stored supply activity claim outcome now start stop)
    : Persisted claim outcome stop := by
  obtain ⟨results, middle, inserted, store, rest⟩ := stored.store
  have same : middle.activities.results = results := by
    rw [store.activities]
    rfl
  have added : completion supply claim outcome now ∈ results :=
    (Table.mem_of_insert? inserted).mpr (.inr rfl)
  refine ⟨completion supply claim outcome now, ?_, rfl, rfl, rfl⟩
  split at rest
  · rw [rest, same]
    exact added
  · rw [rest.activities, same]
    exact added

theorem worker_valid {owner : String} (named : 1 ≤ owner.length ∧ owner.length ≤ 500)
    : FactActor.valid { kind := "activity_worker", id := owner } = true := by
  have kind : "activity_worker".length = 15 := by decide
  simp [FactActor.valid, kind, named.1, named.2]

theorem finish_raises {supply : Supply}
    (member : row ∈ start.activities.records) (holds : Holds claim deadline row)
    (early : now < deadline) (named : 1 ≤ claim.owner.length ∧ claim.owner.length ≤ 500)
    (h : Raises (finish supply row claim outcome now) start failure stop)
    : Clash failure := by
  rcases raises_bind.mp h with h | ⟨_, _, hc, h⟩
  · have current : (row.status.inProgress && Activities.holdsClaim claim now row) = true := by
      simp [holds.inProgress, holds.holdsClaim early]
    exact absurd current (raises_raiseIf h).1
  obtain ⟨-, rfl⟩ := returns_raiseIf.mp hc
  rcases raises_bind.mp h with h | ⟨_, _, hi, h⟩
  · exact insertInto_clash _ _ _ _ h
  obtain ⟨results, -, hm⟩ := Option.bind_eq_some_iff.mp (returns_insertInto.mp hi)
  cases hm
  rcases raises_bind.mp h with h | ⟨_, _, hu, h⟩
  · exact absurd h updateActivities_raises
  obtain ⟨-, rfl⟩ := updateActivities_returns.mp hu
  rcases raises_bind.mp h with h | ⟨_, _, hm, h⟩
  · cases h
  obtain rfl := returns_modify.mp hm
  rcases raises_bind.mp h with h | ⟨_, _, hd, h⟩
  · cases h
  obtain rfl := returns_modify.mp hd
  rcases raises_bind.mp h with h | ⟨_, _, -, h⟩
  · rcases raises_bind.mp h with h | ⟨run, _, hr, h⟩
    · exact requireWorkflowRun_clash _ _ _ _ h
    obtain ⟨-, rfl⟩ := requireWorkflowRun_returns.mp hr
    rcases raises_bind.mp h with h | ⟨current, _, ha, h⟩
    · have stored (status : ActivityStatus)
          : Activities.completed status now row
            ∈ start.activities.records.update (byId claim.activityId)
                (Activities.completed status now) ⟨fun _ _ => rfl, fun _ _ => rfl⟩ :=
        Table.mem_update_of _ member (beq_iff_eq.mpr holds.own)
      exact absurd h (requireActivity_raises (stored _) rfl)
    · refine RaisesOnly.bind (appendFact_clash ?_ _ _) (fun _ => .pure _) _ _ _ h
      exact worker_valid named
  · split at h
    · exact absurd h raises_pure
    · refine RaisesOnly.bind (enqueueWorkflowSignal_clash ?_) (fun _ => .pure _) _ _ _ h
      intro empty
      have length := congrArg String.length empty
      simp at length

/-- Within the deadline the transaction of a completion stores the outcome, unless an id
clashes.
-/
theorem Held.storeCompletion (held : Held claim deadline start) (early : now < deadline)
    (named : 1 ≤ claim.owner.length ∧ claim.owner.length ≤ 500) (supply : Supply)
    (outcome : ActivityOutcome)
    : (∃ result workflowId retrying stop,
          Returns (storeCompletion supply claim outcome now) start
            (.stored result workflowId retrying) stop
          ∧ Persisted claim outcome stop)
      ∨ ∃ failure, Raises (storeCompletion supply claim outcome now) start failure start
          ∧ Clash failure := by
  obtain ⟨row, member, holds⟩ := held.row
  have found : getActivity start.activities claim.activityId = some row := by
    rw [← holds.own]
    exact getActivity_of_mem member
  have unfinished
      : start.activities.results.find? (fun result =>
          result.activityId == claim.activityId && result.attempt == claim.attempt) = none := by
    refine Table.find?_eq_none.mpr (fun result stored => ?_)
    have other := held.unfinished result stored
    simpa using other
  have current : row.status.inProgress = true ∧ Activities.holdsClaim claim now row = true :=
    ⟨holds.inProgress, holds.holdsClaim early⟩
  rcases returns_or_raises (Activities.storeCompletion supply claim outcome now) start
    with ⟨value, returned⟩ | ⟨failure, raised⟩
  · refine .inl ?_
    obtain ⟨activity, _, ha, h⟩ := returns_bind.mp (returns_transaction.mp returned)
    obtain ⟨same, rfl⟩ := requireActivity_returns.mp ha
    rw [found] at same
    cases same
    obtain ⟨_, _, hg, h⟩ := returns_bind.mp h
    obtain ⟨rfl, rfl⟩ := returns_get.mp hg
    rw [unfinished] at h
    obtain ⟨result, workflowId, retrying, rfl⟩ := finish_value h
    exact ⟨result, workflowId, retrying, _, returned, (finish_returns h).persisted⟩
  · refine .inr ⟨failure, ?_⟩
    have same := raises_transaction raised
    rw [same] at raised
    refine ⟨raised, ?_⟩
    obtain ⟨last, body⟩ := raises_of_transaction raised
    rcases raises_bind.mp body with h | ⟨activity, _, ha, h⟩
    · exact absurd h (requireActivity_raises member holds.own)
    obtain ⟨same, rfl⟩ := requireActivity_returns.mp ha
    rw [found] at same
    cases same
    rcases raises_bind.mp h with h | ⟨_, _, hg, h⟩
    · cases h
    obtain ⟨rfl, rfl⟩ := returns_get.mp hg
    rw [unfinished] at h
    exact finish_raises member holds early named h

end Store

theorem renewActivityClaim_same {claim next : ActivityClaim} {leaseFor : Duration}
    {now : Timestamp} {start stop : Database}
    (h : Returns (renewActivityClaim claim leaseFor now) start next stop)
    : SameClaim claim next := by
  obtain ⟨_, _, hv, h⟩ := returns_bind.mp h
  obtain ⟨_, _, ht, h⟩ := returns_bind.mp h
  obtain ⟨rfl, -⟩ := returns_pure.mp h
  rfl

theorem renewActivityClaim_raises {claim : ActivityClaim} {leaseFor : Duration}
    {now : Timestamp} {start stop : Database}
    (h : Raises (renewActivityClaim claim leaseFor now) start failure stop)
    : stop = start := by
  rcases raises_bind.mp h with h | ⟨_, _, hv, h⟩
  · exact (raises_raiseIf h).2
  · obtain ⟨-, rfl⟩ := returns_raiseIf.mp hv
    rcases raises_bind.mp h with h | ⟨_, _, -, h⟩
    · exact raises_transaction h
    · exact absurd h raises_pure

variable {α : Type} {program : Sql α}

section Tick

variable [PyRepr] [StaticDagAdapter] [FactPayloadAdapter]

/-- Within the deadline a completion stores its outcome, unless an id clashes. -/
theorem Held.completeActivity {claim : ActivityClaim} {deadline now : Timestamp} {start : Database}
    (held : Held claim deadline start) (early : now < deadline)
    (named : 1 ≤ claim.owner.length ∧ claim.owner.length ≤ 500) (supply : Supply)
    (outcome : ActivityOutcome)
    : (∃ result stop, Returns (completeActivity supply claim outcome now) start result stop
          ∧ Persisted claim outcome stop)
      ∨ ∃ failure, Raises (completeActivity supply claim outcome now) start failure start
          ∧ Clash failure := by
  rcases held.storeCompletion early named supply outcome with stored | refused
  · obtain ⟨result, workflowId, retrying, middle, stored, persisted⟩ := stored
    refine .inl ⟨result, ?_⟩
    cases retrying with
    | true =>
      exact ⟨middle, returns_bind.mpr ⟨_, _, stored, returns_pure.mpr ⟨rfl, rfl⟩⟩, persisted⟩
    | false =>
      let stop := final (bestEffortWake (supply.drop 3) workflowId now middle)
      have woken : SameResults middle stop :=
        decided_sameResults (decideOnce_decided _ _ _ _ _ middle)
      have same : stop.activities.results = middle.activities.results := woken
      have wake : Returns (bestEffortWake (supply.drop 3) workflowId now) middle () stop := rfl
      refine ⟨stop, returns_bind.mpr ⟨_, _, stored, returns_bind.mpr ⟨(), stop, wake, ?_⟩⟩, ?_⟩
      · exact returns_pure.mpr ⟨rfl, rfl⟩
      · rw [Persisted, same]
        exact persisted
  · obtain ⟨failure, raised, clash⟩ := refused
    exact .inr ⟨failure, raises_bind.mpr (.inl raised), clash⟩

theorem completeActivity_accounted (supply : Supply) (claim : ActivityClaim)
    (outcome : ActivityOutcome) (now : Timestamp)
    : Relates (Preserves Accounted) (completeActivity supply claim outcome now) := by
  intro start accounted
  obtain ⟨events, steps⟩ := completeActivity_steps supply claim outcome now start
  exact steps.invariant (fun _ _ _ accounted step => step.accounted accounted) accounted

theorem persistAdmission_accounted (supply : Supply) (activityId : Uuid)
    (decision : AdmissionDecision) (now : Timestamp)
    : Relates (Preserves Accounted) (persistAdmission supply activityId decision now) := by
  intro start accounted
  obtain ⟨events, steps⟩ := persistAdmission_steps supply activityId decision now start
  exact steps.invariant (fun _ _ _ accounted step => step.accounted accounted) accounted

/-- An operation whose transaction is the whole of it keeps the results accounted. -/
theorem accounted_of_exec (op : ActivityOp) (supply : Supply)
    (now : Timestamp) (label : α → Reply) (same : op.exec supply now = label <$> program)
    : Relates (Preserves Accounted) program := by
  intro start
  have accounted := exec_accounted op supply now start
  rwa [same, final_map] at accounted

end Tick

----------------------------------------
-- One execution
----------------------------------------

/-- What renewals leave behind: time passes, the claim keeps its identity, and within its
deadline it stays held, with only clashes to break the heartbeat.
-/
structure Renewed (leaseFor : Duration) (claim next : ActivityClaim)
    (broken broken' : Option Failure) (start stop : TickState) : Prop where
  same : SameClaim claim next
  clock : start.clock ≤ stop.clock
  grants : stop.grants = start.grants
  accounted : Accounted start.db → Accounted stop.db
  held
    : ∀ deadline,
        stop.clock < deadline
        → deadline ≤ start.clock + leaseFor
        → 0 < leaseFor
        → Held claim deadline start.db
        → (∀ failure, broken = some failure → Clash failure)
        → Held next deadline stop.db ∧ ∀ failure, broken' = some failure → Clash failure

variable {db : Database} {state : TickState}

section Execution

variable {leaseFor : Duration} {claim next last : ActivityClaim}
  {broken middle_ broken' : Option Failure} {start middle stop : TickState}

theorem Renewed.trans (first : Renewed leaseFor claim next broken middle_ start middle)
    (rest : Renewed leaseFor next last middle_ broken' middle stop)
    : Renewed leaseFor claim last broken broken' start stop := by
  have forward := first.clock
  have onward := rest.clock
  constructor
  · have early := first.same
    have late := rest.same
    rw [SameClaim] at *
    rw [late, early]
  · exact Int.le_trans forward onward
  · exact rest.grants.trans first.grants
  · exact fun accounted => rest.accounted (first.accounted accounted)
  · intro deadline early longer positive held clashes
    obtain ⟨held, clashes⟩ :=
      first.held deadline (Int.lt_of_le_of_lt onward early) longer positive held clashes
    have further := Int.le_trans longer (Int.add_le_add_right forward leaseFor)
    exact rest.held deadline early further positive held clashes

/-- Time passes and nothing else. -/
theorem Renewed.pass (elapsed : Nat)
    : Renewed leaseFor claim claim broken broken start
        { start with clock := start.clock + elapsed } := by
  refine ⟨rfl, ?_, rfl, id, fun _ _ _ _ held clashes => ⟨held, clashes⟩⟩
  exact Int.le_add_of_nonneg_right (Int.natCast_nonneg elapsed)

theorem Renewed.returned
    (h : Returns (renewActivityClaim claim leaseFor start.clock) start.db next db)
    : Renewed leaseFor claim next broken broken start { start with db := db } := by
  refine ⟨renewActivityClaim_same h, Int.le_refl _, rfl, fun accounted => ?_, ?_⟩
  · have effect := (renewActivityClaim_effect {} start.clock claim leaseFor).returns h
    exact accounted.step (.activity effect)
      (SameResults.accounted ((renewActivityClaim_sameResults claim leaseFor).returns h))
  · intro deadline early longer positive held clashes
    refine ⟨?_, clashes⟩
    rcases held.renew early longer positive with renewed | refused
    · obtain ⟨_, _, again, same, kept⟩ := renewed
      rw [Returns, h] at again
      cases again
      exact kept.renamed same
    · obtain ⟨_, raised, -⟩ := refused
      rw [Raises, h] at raised
      cases raised

theorem Renewed.refused (heartbeat : Bool)
    (h : Raises (renewActivityClaim claim leaseFor start.clock) start.db failure db)
    : Renewed leaseFor claim claim broken (if heartbeat then some failure else broken) start
        { start with db := db } := by
  have same := renewActivityClaim_raises h
  subst same
  refine ⟨rfl, Int.le_refl _, rfl, id, ?_⟩
  intro deadline early longer positive held clashes
  refine ⟨held, ?_⟩
  rcases held.renew early longer positive with renewed | refused
  · obtain ⟨_, _, again, -⟩ := renewed
    rw [Raises, again] at h
    cases h
  · obtain ⟨other, raised, clash⟩ := refused
    rw [Raises, h] at raised
    cases raised
    intro found stored
    cases heartbeat with
    | true =>
      cases stored
      exact clash
    | false => exact clashes found stored

theorem returns_onStore {value : α} (h : Returns program state.db value db)
    : Returns (onStore program) state value { state with db := db } := by
  unfold Returns onStore
  rw [h]

theorem raises_onStore (h : Raises program state.db failure db)
    : Raises (onStore program) state failure { state with db := db } := by
  unfold Raises onStore
  rw [h]

theorem returns_attempt {value : α} (h : Returns program state.db value db)
    : Returns (attempt (onStore program)) state (.ok value) { state with db := db } := by
  have returned : onStore program state = _ := returns_onStore h
  unfold Returns attempt
  rw [returned]

theorem raises_attempt (h : Raises program state.db failure db)
    : Returns (attempt (onStore program)) state (.error failure) { state with db := db } := by
  have raised : onStore program state = _ := raises_onStore h
  unfold Returns attempt
  rw [raised]

/-- The renewals of an execution always end, by induction over them. -/
theorem renewAll_renewed (settings : DispatchSettings) (renewals : List Renewal)
    (claim : ActivityClaim) (broken : Option Failure) (start : TickState)
    : ∃ next broken' stop,
        Returns (renewAll settings renewals claim broken) start (next, broken') stop
        ∧ Renewed settings.leaseFor claim next broken broken' start stop := by
  induction renewals generalizing claim broken start with
  | nil =>
    refine ⟨claim, broken, start, returns_pure.mpr ⟨rfl, rfl⟩, ?_⟩
    exact ⟨rfl, Int.le_refl _, rfl, id, fun _ _ _ _ held clashes => ⟨held, clashes⟩⟩
  | cons renewal rest ih =>
    let later : TickState := { start with clock := start.clock + renewal.elapsed }
    have passed : Renewed settings.leaseFor claim claim broken broken start later :=
      .pass renewal.elapsed
    have passes : Returns (pass renewal.elapsed) start () later := rfl
    by_cases stopped : renewal.heartbeat = true ∧ broken.isSome = true
    · obtain ⟨next, broken', stop, returned, renewed⟩ := ih claim broken later
      refine ⟨next, broken', stop, returns_bind.mpr ⟨(), later, passes, ?_⟩,
        passed.trans renewed⟩
      rw [if_pos stopped]
      exact returned
    · have read : Returns (get : Ticking TickState) later later later := rfl
      rcases returns_or_raises (renewActivityClaim claim settings.leaseFor later.clock) later.db
        with ⟨value, h⟩ | ⟨failure, h⟩
      · obtain ⟨next, broken', stop, returned, renewed⟩ := ih value broken _
        refine ⟨next, broken', stop, returns_bind.mpr ⟨(), later, passes, ?_⟩,
          (passed.trans (.returned h)).trans renewed⟩
        rw [if_neg stopped]
        exact returns_bind.mpr ⟨later, later, read, returns_bind.mpr
          ⟨_, _, returns_attempt h, returned⟩⟩
      · obtain ⟨next, broken', stop, returned, renewed⟩ :=
          ih claim (if renewal.heartbeat then some failure else broken) _
        refine ⟨next, broken', stop, returns_bind.mpr ⟨(), later, passes, ?_⟩,
          (passed.trans (.refused renewal.heartbeat h)).trans renewed⟩
        rw [if_neg stopped]
        exact returns_bind.mpr ⟨later, later, read, returns_bind.mpr
          ⟨_, _, raises_attempt h, returned⟩⟩

end Execution

section Executions

variable [PyRepr] [StaticDagAdapter] [FactPayloadAdapter]

/-- The outcome of an execution was stored, or an id clashed. -/
def Accepted (claim : ActivityClaim) (ending : Ending) : Prop :=
  (∃ result, ending.reply = .ok result) ∧ Persisted claim ending.outcome ending.after
  ∨ ∃ failure, ending.reply = .error failure ∧ Clash failure

/-- How an execution leaves the tick. -/
structure Executed (settings : DispatchSettings) (claim : ActivityClaim) (ending : Ending)
    (start stop : TickState) : Prop where
  clock : start.clock ≤ stop.clock
  grants : stop.grants = start.grants
  accounted : Accounted start.db → Accounted stop.db
  accepted
    : ∀ deadline,
        ending.returnedAt < deadline
        → deadline ≤ start.clock + settings.leaseFor
        → 0 < settings.leaseFor
        → 1 ≤ claim.owner.length ∧ claim.owner.length ≤ 500
        → Held claim deadline start.db
        → Accepted claim ending

/-- An execution ends, whatever its executor does. -/
theorem execute_executed (settings : DispatchSettings) (activity : ActivityRecord)
    (claim : ActivityClaim) (turn : Turn) (start : TickState)
    : ∃ ending stop, Returns (execute settings activity claim turn) start ending stop
        ∧ Executed settings claim ending start stop := by
  obtain ⟨next, broken, renewed_, renewing, renewed⟩ :=
    renewAll_renewed settings turn.execution.renewals claim none start
  let later : TickState := { renewed_ with clock := renewed_.clock + turn.execution.elapsed }
  let outcome := executionOutcome activity next turn.execution.result
  have passes : Returns (pass turn.execution.elapsed) renewed_ () later := rfl
  have onward : renewed_.clock ≤ later.clock :=
    Int.le_add_of_nonneg_right (Int.natCast_nonneg _)
  have forward := Int.le_trans renewed.clock onward
  cases broken with
  | some failure =>
    refine ⟨⟨later.clock, outcome, .error failure, later.db⟩, later, ?_, ?_⟩
    · exact returns_bind.mpr ⟨_, _, renewing, returns_bind.mpr ⟨_, _, passes, rfl⟩⟩
    · refine ⟨forward, renewed.grants, renewed.accounted, ?_⟩
      intro deadline early longer positive _ held
      have before := Int.lt_of_le_of_lt onward early
      have clashes := (renewed.held deadline before longer positive held (by simp)).2
      exact .inr ⟨failure, rfl, clashes failure rfl⟩
  | none =>
    rcases returns_or_raises
        (completeActivity turn.completionIds next outcome later.clock) later.db
      with ⟨result, h⟩ | ⟨failure, h⟩
    · refine ⟨⟨later.clock, outcome, .ok result, _⟩, _, returns_bind.mpr ⟨_, _, renewing,
        returns_bind.mpr ⟨_, _, passes, returns_bind.mpr ⟨later, later, rfl,
          returns_bind.mpr ⟨_, _, returns_attempt h, rfl⟩⟩⟩⟩, ?_⟩
      refine ⟨forward, renewed.grants, fun accounted => ?_, ?_⟩
      · exact (completeActivity_accounted _ _ _ _).returns h (renewed.accounted accounted)
      · intro deadline early longer positive named held
        have before := Int.lt_of_le_of_lt onward early
        have still := (renewed.held deadline before longer positive held (by simp)).1
        have same := renewed.same
        have owner : next.owner = claim.owner := by rw [same]
        rw [← owner] at named
        refine .inl ⟨⟨result, rfl⟩, ?_⟩
        rcases still.completeActivity early named turn.completionIds outcome with stored | refused
        · obtain ⟨_, _, again, persisted⟩ := stored
          rw [Returns, h] at again
          cases again
          exact persisted.renamed same
        · obtain ⟨_, raised, -⟩ := refused
          rw [Raises, h] at raised
          cases raised
    · refine ⟨⟨later.clock, outcome, .error failure, _⟩, _, returns_bind.mpr ⟨_, _, renewing,
        returns_bind.mpr ⟨_, _, passes, returns_bind.mpr ⟨later, later, rfl,
          returns_bind.mpr ⟨_, _, raises_attempt h, rfl⟩⟩⟩⟩, ?_⟩
      refine ⟨forward, renewed.grants, fun accounted => ?_, ?_⟩
      · exact (completeActivity_accounted _ _ _ _).raises h (renewed.accounted accounted)
      · intro deadline early longer positive named held
        have before := Int.lt_of_le_of_lt onward early
        have still := (renewed.held deadline before longer positive held (by simp)).1
        have owner : next.owner = claim.owner := by rw [renewed.same]
        rw [← owner] at named
        rcases still.completeActivity early named turn.completionIds outcome with stored | refused
        · obtain ⟨_, _, again, -⟩ := stored
          rw [Raises, again] at h
          cases h
        · obtain ⟨other, raised, clash⟩ := refused
          rw [Raises, h] at raised
          have one : failure = other := (EStateM.Result.error.inj raised).1
          exact .inr ⟨failure, rfl, one ▸ clash⟩

end Executions

----------------------------------------
-- The course of a tick
----------------------------------------

section Course

/-- A claim of a tick that began at `now`: its lease counts from there, and an outcome within
it is accepted.
-/
structure Grant.Sound (settings : DispatchSettings) (now : Timestamp) (grant : Grant)
    : Prop where
  expires : grant.claim.expiresAt = now + settings.leaseFor
  accepted
    : ∀ ending,
        grant.ending = some ending
        → ending.returnedAt < now + settings.leaseFor
        → Accepted grant.claim ending

structure TickState.Sound (settings : DispatchSettings) (now : Timestamp) (state : TickState)
    : Prop where
  accounted : Accounted state.db
  clock : now ≤ state.clock
  grants : ∀ grant ∈ state.grants, grant.Sound settings now

abbrev KeepsSound (settings : DispatchSettings) (now : Timestamp)
    : TickState → TickState → Prop :=
  Preserves (TickState.Sound settings now)

variable {settings : DispatchSettings} {now : Timestamp}

theorem onStore_sound (accounted : Relates (Preserves Accounted) program)
    : Relates (KeepsSound settings now) (onStore program) := by
  intro start sound
  have kept := accounted start.db sound.accounted
  unfold onStore
  cases h : program start.db with
  | ok value db =>
    rw [h] at kept
    exact ⟨kept, sound.clock, sound.grants⟩
  | error failure db =>
    rw [h] at kept
    exact ⟨kept, sound.clock, sound.grants⟩

theorem pass_sound (elapsed : Nat) : Relates (KeepsSound settings now) (pass elapsed) := by
  intro start sound
  have forward : start.clock ≤ start.clock + (elapsed : Int) :=
    Int.le_add_of_nonneg_right (Int.natCast_nonneg elapsed)
  exact ⟨sound.accounted, Int.le_trans sound.clock forward, sound.grants⟩

theorem tally_sound (change : DispatchReport → DispatchReport)
    : Relates (KeepsSound settings now) (tally change) :=
  fun _ sound => ⟨sound.accounted, sound.clock, sound.grants⟩

theorem attempt_sound {body : Ticking α} (h : Relates (KeepsSound settings now) body)
    : Relates (KeepsSound settings now) (attempt body) := by
  intro start sound
  have kept := h start sound
  unfold attempt
  cases hb : body start with
  | ok value stop =>
    rw [hb] at kept
    exact kept
  | error failure stop =>
    rw [hb] at kept
    exact kept

theorem TickState.Sound.note {grant : Grant}
    (sound : state.Sound settings now) (one : grant.Sound settings now)
    : ({ state with grants := state.grants ++ [grant] } : TickState).Sound settings now := by
  refine ⟨sound.accounted, sound.clock, fun other member => ?_⟩
  rcases List.mem_append.mp member with old | new
  · exact sound.grants other old
  · rw [List.mem_singleton.mp new]
    exact one

/-- A granted claim is held: no result is stored for its attempt. -/
theorem Granted.held {claim : ActivityClaim} {owner : String}
    {leaseFor : Duration} {start stop : Database}
    (granted : Granted activityId owner leaseFor now claim activity start stop)
    (accounted : Accounted start)
    : Held claim (now + leaseFor) stop := by
  have own := granted.own
  have store := granted.store
  have selected : byId activityId activity = true := beq_iff_eq.mpr own
  have keeps : Table.KeepsKeys activityClash (claimed (nextClaim activity owner leaseFor now)) :=
    ⟨fun _ _ => rfl, fun _ _ => rfl⟩
  rw [granted.next]
  constructor
  · refine ⟨claimed (nextClaim activity owner leaseFor now) activity, ?_, ?_⟩
    · rw [store.activities]
      exact Table.mem_update_of keeps granted.member selected
    · exact ⟨rfl, rfl, rfl, rfl, rfl, now + leaseFor, rfl, Int.le_refl _⟩
  · intro result member same
    rw [store.activities] at member
    obtain ⟨row, stored, ids, within⟩ := accounted result member
    have one : row = activity :=
      activity_eq_of_id stored granted.member (ids.trans same.1)
    have next : result.attempt = activity.attempts + 1 := same.2
    rw [one] at within
    omega

theorem startActivity_held {claim : ActivityClaim} {deadline : Timestamp} {start stop : Database}
    (held : Held claim deadline start) (h : Returns (startActivity claim now) start activity stop)
    : Held claim deadline stop := by
  obtain ⟨_, _, hu, h⟩ := returns_bind.mp (returns_transaction.mp h)
  obtain ⟨-, rfl⟩ := updateActivities_returns.mp hu
  obtain ⟨_, _, hr, h⟩ := returns_bind.mp h
  obtain ⟨-, rfl⟩ := returns_raiseIf.mp hr
  have facts := recorded_returned h
  refine held.update (fun row holds => ?_) facts
  exact ⟨holds.own, rfl, holds.attempt, holds.owner, holds.fence, holds.lease⟩

theorem claimActivity_owner {owner : String} {leaseFor : Duration}
    {capabilityRevision : Nat} {claim : ActivityClaim} {start stop : Database}
    (h : Returns (claimActivity activityId owner leaseFor capabilityRevision now) start claim stop)
    : 1 ≤ owner.length := by
  obtain ⟨_, _, hv, -⟩ := returns_bind.mp h
  obtain ⟨valid, -⟩ := returns_raiseIf.mp hv
  by_contra short
  refine valid (.inl ?_)
  have none_ : owner.length = 0 := by omega
  simpa using none_

variable [PyRepr] [StaticDagAdapter] [FactPayloadAdapter]

/-- A granted claim counts its lease from the start of the tick. -/
theorem grantClaim_sound (named : settings.workerId.length ≤ 500) (activity : ActivityRecord)
    (turn : Turn)
    : Relates (KeepsSound settings now) (grantClaim settings now activity turn) := by
  refine Relates.bind (.orRaise _ _) (fun route => ?_)
  intro start sound
  have claims := accounted_of_exec (.claimActivity activity.activityId settings.workerId
    settings.leaseFor route.capabilityRevision) turn.completionIds now Reply.claim rfl
  rcases returns_or_raises (claimActivity activity.activityId settings.workerId
      settings.leaseFor route.capabilityRevision now) start.db with ⟨claim, h⟩ | ⟨failure, h⟩
  · obtain ⟨row, granted⟩ := claimActivity_returns h
    have held := granted.held sound.accounted
    have owned : claim.owner = settings.workerId := by rw [granted.next]; rfl
    have owner : 1 ≤ claim.owner.length ∧ claim.owner.length ≤ 500 := by
      rw [owned]
      exact ⟨claimActivity_owner h, named⟩
    have expires : claim.expiresAt = now + settings.leaseFor := by rw [granted.next]; rfl
    generalize final (claimActivity activity.activityId settings.workerId settings.leaseFor
      route.capabilityRevision now start.db) = db at h held granted
    let middle : TickState := { start with db := db }
    have claimed_ : Returns (onStore (claimActivity activity.activityId settings.workerId
        settings.leaseFor route.capabilityRevision now)) start claim middle :=
      returns_onStore h
    have here : middle.Sound settings now :=
      ⟨claims.returns h sound.accounted, sound.clock, sound.grants⟩
    have read : Returns (get : Ticking TickState) middle middle middle := rfl
    rw [final_bind_of_returns claimed_, final_bind_of_returns read]
    have starts :=
      accounted_of_exec (.startActivity claim) turn.completionIds now Reply.activity rfl
    rcases returns_or_raises (startActivity claim now) middle.db with ⟨started, h⟩ | ⟨failure, h⟩
    · have running := startActivity_held held h
      rw [final_bind_of_returns (returns_attempt h)]
      obtain ⟨ending, stop, executing, executed⟩ := execute_executed settings started claim turn
        { middle with db := final (startActivity claim now middle.db) }
      have still : stop.Sound settings now := by
        refine ⟨executed.accounted (starts.returns h here.accounted), ?_, ?_⟩
        · exact Int.le_trans here.clock executed.clock
        · rw [executed.grants]
          exact here.grants
      have one : ({ claim := claim, grantedAt := middle.clock, ending := some ending }
          : Grant).Sound settings now := by
        refine ⟨expires, fun other same early => ?_⟩
        cases same
        refine executed.accepted _ early ?_ granted.positive owner running
        exact Int.add_le_add_right here.clock settings.leaseFor
      show TickState.Sound settings now (final ((execute settings started claim turn >>= _) _))
      rw [final_bind_of_returns executing]
      have noted := still.note one
      cases ending.reply with
      | ok result => exact ⟨noted.accounted, noted.clock, noted.grants⟩
      | error failure => exact noted
    · rw [final_bind_of_returns (raises_attempt h)]
      have kept := starts.raises h here.accounted
      have there : ({ middle with db := final (startActivity claim now middle.db) }
          : TickState).Sound settings now := ⟨kept, here.clock, here.grants⟩
      refine there.note ⟨expires, fun ending same => ?_⟩
      cases same
  · have refused : Raises (onStore (claimActivity activity.activityId settings.workerId
        settings.leaseFor route.capabilityRevision now)) start failure
        { start with db := final (claimActivity activity.activityId settings.workerId
          settings.leaseFor route.capabilityRevision now start.db) } :=
      raises_onStore h
    rw [final_bind_of_raises refused]
    exact ⟨claims.raises h sound.accounted, sound.clock, sound.grants⟩

theorem routeCandidate_sound (candidate : ActivityRecord) (turn : Turn)
    : Relates (KeepsSound settings now) (routeCandidate now candidate turn) := by
  have routes (route : ExecutionRoute) :=
    accounted_of_exec (.persistRoute candidate.activityId route) turn.completionIds now
      Reply.activity rfl
  unfold routeCandidate
  split
  · refine Relates.bind (.fromExcept _) (fun route => ?_)
    cases route with
    | none => exact .bind (tally_sound _) (fun _ => .pure _)
    | some route =>
      refine Relates.bind (onStore_sound (routes route)) (fun activity => ?_)
      exact .bind (tally_sound _) (fun _ => .pure _)
  · exact .pure _

theorem admitCandidate_sound (activity : ActivityRecord) (turn : Turn)
    : Relates (KeepsSound settings now) (admitCandidate now activity turn) := by
  refine Relates.bind (.fromExcept _) (fun decision => ?_)
  refine Relates.bind (pass_sound _) (fun _ => ?_)
  exact .bind (onStore_sound (persistAdmission_accounted _ _ _ _)) (fun _ => .pure _)

theorem dispatchOne_sound (named : settings.workerId.length ≤ 500) (candidate : ActivityRecord)
    (turn : Turn)
    : Relates (KeepsSound settings now) (dispatchOne settings now candidate turn) := by
  refine Relates.bind (routeCandidate_sound _ _) (fun routed => ?_)
  cases routed with
  | none => exact .pure _
  | some activity =>
    refine Relates.bind (admitCandidate_sound _ _) (fun admitted => ?_)
    obtain ⟨activity, decision⟩ := admitted
    dsimp only
    split
    · exact tally_sound _
    · cases decision with
      | admitted admitted =>
        exact .bind (tally_sound _) (fun _ => grantClaim_sound named activity turn)
      | deferred reasons retryAt => exact tally_sound _
      | rejected reasons => exact tally_sound _

/-- Every candidate keeps the grants of the tick sound, by induction over the candidates. -/
theorem dispatchAll_sound (named : settings.workerId.length ≤ 500)
    (turn : ActivityRecord → Turn) (candidates : List ActivityRecord)
    : Relates (KeepsSound settings now) (dispatchAll settings now turn candidates) := by
  induction candidates with
  | nil => exact .pure _
  | cons candidate rest ih =>
    refine Relates.bind (attempt_sound (dispatchOne_sound named candidate _)) (fun reply => ?_)
    cases reply with
    | ok _ => exact ih
    | error _ => exact .bind (tally_sound _) (fun _ => ih)

theorem tick_sound (settings : DispatchSettings) (named : settings.workerId.length ≤ 500)
    (turn : ActivityRecord → Turn) (limit : Int) (now : Timestamp) (accounted : Accounted db)
    : (final (tick settings turn limit { clock := now, db := db })).Sound settings now := by
  let start : TickState := { clock := now, db := db }
  have sound : start.Sound settings now :=
    ⟨accounted, Int.le_refl now, fun _ member => absurd member List.not_mem_nil⟩
  have claims := accounted_of_exec .reapExpiredClaims (fun _ => 0) now Reply.count rfl
  have reservations :=
    accounted_of_exec .reapExpiredReservations (fun _ => 0) now Reply.count rfl
  show TickState.Sound settings now (final ((raiseIf (limit < 1) _ >>= _) start))
  by_cases positive : limit < 1
  · have refused : Raises (raiseIf (limit < 1) (Failure.valueError "limit must be positive")) start
        (Failure.valueError "limit must be positive") start := by
      rw [Raises, raiseIf, if_pos positive]
      rfl
    rw [final_bind_of_raises refused]
    exact sound
  · have passed : Returns (raiseIf (limit < 1) (Failure.valueError "limit must be positive"))
        start () start := by
      rw [Returns, raiseIf, if_neg positive]
      rfl
    rw [final_bind_of_returns passed]
    have read : Returns (get : Ticking TickState) start start start := rfl
    rw [final_bind_of_returns read]
    have reaps : Relates (KeepsSound settings now) (onStore (reapExpiredClaims now)) :=
      onStore_sound claims
    refine related_bind (reaps start) (fun reapedClaims => ?_) sound
    refine Relates.bind (onStore_sound reservations) (fun reapedReservations => ?_)
    refine Relates.bind (tally_sound _) (fun _ => ?_)
    refine Relates.bind .get (fun reaped => ?_)
    refine Relates.bind (dispatchAll_sound named turn _) (fun _ => ?_)
    exact .bind .get (fun _ => .pure _)

/-- The lease of a granted claim counts from its grant, and an outcome within it is accepted. -/
structure Grant.Live (leaseFor : Duration) (grant : Grant) : Prop where
  expires : grant.claim.expiresAt = grant.grantedAt + leaseFor
  accepted
    : ∀ ending,
        grant.ending = some ending
        → ending.returnedAt < grant.grantedAt + leaseFor
        → Accepted grant.claim ending

/-- The claims a tick grants are live if and only if no time passed in it before a grant. -/
theorem grants_live_iff (settings : DispatchSettings) {events : List Event} {db : Database}
    (reached : Run Fresh Step events db) (named : settings.workerId.length ≤ 500)
    (turn : ActivityRecord → Turn) (limit : Int) (now : Timestamp)
    : (∀ grant ∈ (final (tick settings turn limit { clock := now, db := db })).grants,
          grant.Live settings.leaseFor)
      ↔ ∀ grant ∈ (final (tick settings turn limit { clock := now, db := db })).grants,
          grant.grantedAt = now := by
  have sound := tick_sound settings named turn limit now (accounted_of_run reached)
  constructor
  · intro live grant member
    have expires := (live grant member).expires
    rw [(sound.grants grant member).expires] at expires
    exact (add_right_cancel expires).symm
  · intro onTime grant member
    obtain ⟨expires, accepted⟩ := sound.grants grant member
    have same := onTime grant member
    constructor
    · rw [same]
      exact expires
    · rw [same]
      exact accepted

end Course

section LateGrant

open Scenario

def twoPending : List Call :=
  [call 0 100 (.createWorkflowRun workflow []),
    call 0 200 (.applyTransitionPlan 1 (request [10, 11] 2))]

def settings : DispatchSettings := { workerId := "dispatcher", leaseFor := seconds 120 }

/-- The first executor takes 100 seconds, the second one minute; a heartbeat renews every 40
seconds.
-/
def turn (activity : ActivityRecord) : Turn :=
  let first : Bool := activity.activityId = 10
  let beat : Renewal := { elapsed := 40000000, heartbeat := true }
  {
    route := .ok (some route)
    decision := .ok (admission (if first then 30 else 31) [] 0 (seconds 600))
    deciding := 0
    execution := {
      renewals := if first then [beat, beat] else [beat]
      elapsed := 20000000
      result := .ok (.success .nil)
    }
    admissionIds := fun index => ⟨BitVec.ofNat 128 (1000 + index)⟩
    completionIds := fun index => ⟨BitVec.ofNat 128 ((if first then 2000 else 3000) + index)⟩
  }

def grantsOf (db : Database) : List Grant :=
  (final (tick settings turn 100 { clock := seconds 10, db := db })).grants

/-- The outcome of an executor that returned within the lease behind its grant is refused. -/
def lost (grant : Grant) : Bool :=
  grant.claim.expiresAt < grant.grantedAt + seconds 120
    && grant.ending.any (fun ending =>
      ending.returnedAt < grant.grantedAt + seconds 120
        && decide (ending.reply
          = .error (.activityLifecycle "activity claim is stale or expired")))

theorem lost_reached
    : ∃ events db, Run Fresh Step events db ∧ ∃ grant ∈ grantsOf db, lost grant = true := by
  have reached : reaches (fun _ _ => true) twoPending (fun state =>
      (grantsOf state.db).any lost) = true := by
    decide +kernel
  obtain ⟨events, state, run, found⟩ := run_of_reaches_any reached
  exact ⟨events, state.db, run_of_timed run, List.any_eq_true.mp found⟩

theorem grants_live_two
    : ∃ db,
        (∃ grant, grant ∈ grantsOf db)
        ∧ ((∀ grant ∈ grantsOf db, grant.Live (seconds 120))
          ↔ ∀ grant ∈ grantsOf db, grant.grantedAt = seconds 10) := by
  obtain ⟨events, db, run, grant, member, -⟩ := lost_reached
  exact ⟨db, ⟨grant, member⟩,
    grants_live_iff settings run (by decide) turn 100 (seconds 10)⟩

/-- The second executor returns a minute after its grant and its outcome is lost: the lease of
two minutes counts from the start of the tick.
-/
theorem lateGrant_lost
    : ∃ events db, Run Fresh Step events db ∧ ∃ grant ∈ grantsOf db, lost grant = true :=
  lost_reached

end LateGrant

end Murder.Activities

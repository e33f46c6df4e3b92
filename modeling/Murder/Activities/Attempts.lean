import Murder.Activities.Runs

/-! Stored results never run ahead of the attempts of their activity; what the appends and
enqueues of an activity operation may raise.
-/

namespace Murder.Activities

open Murder.Contracts Murder.Facts Murder.Storage Murder.Workflows Library.Tables
open Library.Transactions Library.Runs

/-- Every result is of an activity that is stored, and of one of its attempts so far. -/
def Accounted (db : Database) : Prop :=
  ∀ result ∈ db.activities.results, ∃ row ∈ db.activities.records,
    row.activityId = result.activityId ∧ result.attempt ≤ row.attempts

def ResultsAccounted (start stop : Database) : Prop :=
  ∀ result ∈ stop.activities.results,
    result ∈ start.activities.results
    ∨ ∃ row ∈ start.activities.records,
        row.activityId = result.activityId ∧ result.attempt ≤ row.attempts

abbrev SameResults : Database → Database → Prop := Keeps (fun db => db.activities.results)

section Pieces

variable {may : Powers} {now : Timestamp} {start stop : Database}

theorem SameResults.accounted (h : SameResults start stop) : ResultsAccounted start stop := by
  intro result member
  have same : stop.activities.results = start.activities.results := h
  rw [same] at member
  exact .inl member

theorem resultsAccounted_insert {results : Table ActivityResultRecord resultClash}
    {added : ActivityResultRecord} {activity : ActivityRecord}
    (member : activity ∈ start.activities.records) (own : activity.activityId = added.activityId)
    (attempt : added.attempt ≤ activity.attempts)
    (inserted : start.activities.results.insert? added = some results)
    (same : stop.activities.results = results)
    : ResultsAccounted start stop := by
  intro result stored
  rw [same] at stored
  rcases (Table.mem_of_insert? inserted).mp stored with old | new
  · exact .inl old
  · subst new
    exact .inr ⟨activity, member, own, attempt⟩

/-- Rows keep their ids and lose no attempt, so results stay accounted. -/
theorem Accounted.step (accounted : Accounted start) (step : StoreStep may now start stop)
    (results : ResultsAccounted start stop)
    : Accounted stop := by
  have forward {row : ActivityRecord} (member : row ∈ start.activities.records)
      {attempt : Nat} (within : attempt ≤ row.attempts)
      : ∃ next ∈ stop.activities.records,
          next.activityId = row.activityId ∧ attempt ≤ next.attempts := by
    obtain ⟨next, stored, moved⟩ := step.moved.forward row member
    exact ⟨next, stored, moved.same.activityId, within.trans moved.monotone.1⟩
  intro result member
  rcases results result member with old | new
  · obtain ⟨row, stored, own, within⟩ := accounted result old
    obtain ⟨next, moved, same, within⟩ := forward stored within
    exact ⟨next, moved, same.trans own, within⟩
  · obtain ⟨row, stored, own, within⟩ := new
    obtain ⟨next, moved, same, within⟩ := forward stored within
    exact ⟨next, moved, same.trans own, within⟩

theorem sameResults_transaction {α : Type} {body : Sql α}
    (committed
      : ∀ start value stop,
          Returns body start value stop
          → stop.activities.results = start.activities.results)
    : Relates SameResults (transaction body) :=
  Relates.transaction committed

theorem persistRoute_sameResults (activityId : Uuid) (route : ExecutionRoute)
    : Relates SameResults (persistRoute activityId route now) := by
  refine sameResults_transaction (fun start value stop h => ?_)
  obtain ⟨_, _, hu, h⟩ := returns_bind.mp h
  obtain ⟨-, rfl⟩ := updateActivities_returns.mp hu
  obtain ⟨_, _, hr, h⟩ := returns_bind.mp h
  obtain ⟨-, rfl⟩ := returns_raiseIf.mp hr
  rw [(recorded_returned h).activities]
  rfl

theorem claimActivity_sameResults (activityId : Uuid) (owner : String) (leaseFor : Duration)
    (capabilityRevision : Nat)
    : Relates SameResults (claimActivity activityId owner leaseFor capabilityRevision now) := by
  apply Relates.intro
  · intro start claim stop h
    obtain ⟨activity, granted⟩ := claimActivity_returns h
    show stop.activities.results = start.activities.results
    rw [granted.store.activities]
    rfl
  · intro start raised stop h
    rcases raises_bind.mp h with h | ⟨_, _, hv, h⟩
    · obtain ⟨-, rfl⟩ := raises_raiseIf h
      rfl
    · obtain ⟨-, rfl⟩ := returns_raiseIf.mp hv
      rw [raises_transaction h]
      rfl

theorem startActivity_sameResults (claim : ActivityClaim)
    : Relates SameResults (startActivity claim now) := by
  refine sameResults_transaction (fun start value stop h => ?_)
  obtain ⟨_, _, hu, h⟩ := returns_bind.mp h
  obtain ⟨-, rfl⟩ := updateActivities_returns.mp hu
  obtain ⟨_, _, hr, h⟩ := returns_bind.mp h
  obtain ⟨-, rfl⟩ := returns_raiseIf.mp hr
  rw [(recorded_returned h).activities]
  rfl

theorem renewActivityClaim_sameResults (claim : ActivityClaim) (leaseFor : Duration)
    : Relates SameResults (renewActivityClaim claim leaseFor now) := by
  refine Relates.bind (.raiseIf _ _) (fun _ => .bind ?_ (fun _ => .pure _))
  refine sameResults_transaction (fun start value stop h => ?_)
  obtain ⟨_, _, hu, h⟩ := returns_bind.mp h
  obtain ⟨-, rfl⟩ := updateActivities_returns.mp hu
  obtain ⟨_, _, hr, h⟩ := returns_bind.mp h
  obtain ⟨-, rfl⟩ := returns_raiseIf.mp hr
  rw [(recorded h).activities]
  rfl

theorem reapExpiredClaims_sameResults : Relates SameResults (reapExpiredClaims now) := by
  refine sameResults_transaction (fun start value stop h => ?_)
  obtain ⟨_, _, hg, h⟩ := returns_bind.mp h
  obtain ⟨rfl, rfl⟩ := returns_get.mp hg
  obtain ⟨_, _, hu, h⟩ := returns_bind.mp h
  obtain ⟨-, rfl⟩ := updateActivities_returns.mp hu
  obtain ⟨_, _, hf, h⟩ := returns_bind.mp h
  obtain ⟨-, rfl⟩ := returns_pure.mp h
  have facts (activityId : Uuid) : Relates OnlyFacts (do
      let activity ← requireActivity activityId
      appendActivityInput activity "claim_reaped" now) :=
    .bind (.bind .get (fun _ => .orRaise _ _)) (fun _ => appendActivityInput_onlyFacts _ _ _)
  have facts := (Relates.forM facts).returns hf
  rw [facts.activities]
  rfl

theorem reapExpiredReservations_sameResults
    : Relates SameResults (reapExpiredReservations now) :=
  sameResults_transaction (fun start _ _ h => by
    rw [releaseExpiredReservations_returns h]
    exact (@expiredReleased_same start now).2.2.2)

theorem storeAdmission_resultsAccounted (supply : Supply) (activityId : Uuid)
    (decision : AdmissionDecision)
    : Relates ResultsAccounted (storeAdmission supply activityId decision now) := by
  apply Relates.intro
  · intro start value stop h
    obtain ⟨current, _, hc, h⟩ := returns_bind.mp (returns_transaction.mp h)
    obtain ⟨found, rfl⟩ := requireActivity_returns.mp hc
    obtain ⟨member, rfl⟩ := getActivity_mem found
    obtain ⟨_, _, hw, h⟩ := returns_bind.mp h
    obtain ⟨-, rfl⟩ := returns_raiseIf.mp hw
    cases decision with
    | admitted admitted =>
      obtain ⟨_, _, hr, h⟩ := returns_bind.mp h
      obtain ⟨-, rfl⟩ := returns_pure.mp h
      obtain ⟨reserved, -, -⟩ := reserve_returns hr
      exact SameResults.accounted
        (reserved.results.trans (@expiredReleased_same _ now).2.2.2)
    | rejected reasons =>
      obtain ⟨_, _, hr, h⟩ := returns_bind.mp h
      obtain ⟨-, rfl⟩ := returns_pure.mp h
      obtain ⟨results, middle, stored, store, signalled⟩ := reject_returns hr
      refine resultsAccounted_insert member rfl (Nat.zero_le _) stored ?_
      rw [signalled.activities, store.activities]
      rfl
    | deferred reasons retryAt =>
      obtain ⟨-, rfl⟩ := returns_pure.mp h
      exact SameResults.accounted rfl
  · intro start raised stop h
    rw [raises_transaction h]
    exact SameResults.accounted rfl

/-- The results behind a completion: one more, of the attempt that holds the claim. -/
theorem Stored.resultsAccounted {supply : Supply} {activity : ActivityRecord}
    {claim : ActivityClaim} {outcome : ActivityOutcome}
    (member : activity ∈ start.activities.records)
    (stored : Stored supply activity claim outcome now start stop)
    : ResultsAccounted start stop := by
  obtain ⟨results, middle, inserted, store, rest⟩ := stored.store
  have holds := stored.holds
  simp only [holdsClaim, Bool.and_eq_true, beq_iff_eq] at holds
  have same : middle.activities.results = results := by
    rw [store.activities]
    rfl
  refine resultsAccounted_insert member holds.1.1.1.1 holds.1.1.1.2.ge inserted ?_
  split at rest
  · rw [rest, same]
  · rw [rest.activities, same]

theorem storeCompletion_resultsAccounted (supply : Supply) (claim : ActivityClaim)
    (outcome : ActivityOutcome)
    : Relates ResultsAccounted (storeCompletion supply claim outcome now) := by
  apply Relates.intro
  · intro start value stop h
    rcases storeCompletion_returns h with rfl | ⟨activity, member, -, stored⟩
    · exact SameResults.accounted rfl
    · exact stored.resultsAccounted member
  · intro start raised stop h
    rw [raises_transaction h]
    exact SameResults.accounted rfl

theorem decided_sameResults {workflowId : Uuid} (decided : Decided workflowId start stop)
    : SameResults start stop := by
  cases decided with
  | nothing => rfl
  | committed commit =>
    have requested : Requested start.activities stop.activities := commit.installed.activities
    exact requested.results

end Pieces

section Runs

variable [PyRepr] [StaticDagAdapter] [FactPayloadAdapter]

theorem exec_resultsAccounted (op : ActivityOp) (supply : Supply) (now : Timestamp)
    : Relates ResultsAccounted (op.exec supply now) := by
  have same {α : Type} {program : Sql α} (h : Relates SameResults program)
      : Relates ResultsAccounted program :=
    h.imp SameResults.accounted
  cases op with
  | createWorkflowRun run waits =>
    apply Relates.map
    apply Relates.intro
    · intro start value stop h
      exact SameResults.accounted
        (congrArg ActivityTables.results (createWorkflowRun_created h).activities)
    · intro start raised stop h
      rw [createWorkflowRun_raises h]
      exact SameResults.accounted rfl
  | applyTransitionPlan workflowId plan =>
    exact Relates.map _
      ((applyTransitionPlan_decided _ _ _ _).imp (fun h => (decided_sameResults h).accounted))
  | persistRoute activityId route =>
    exact Relates.map _ (same (persistRoute_sameResults _ _))
  | persistAdmission activityId decision =>
    exact Relates.map _ (storeAdmission_resultsAccounted _ _ _)
  | claimActivity activityId owner leaseFor capabilityRevision =>
    exact Relates.map _ (same (claimActivity_sameResults _ _ _ _))
  | startActivity claim => exact Relates.map _ (same (startActivity_sameResults _))
  | renewActivityClaim claim leaseFor =>
    exact Relates.map _ (same (renewActivityClaim_sameResults _ _))
  | reapExpiredClaims => exact Relates.map _ (same reapExpiredClaims_sameResults)
  | reapExpiredReservations => exact Relates.map _ (same reapExpiredReservations_sameResults)
  | completeActivity claim outcome =>
    exact Relates.map _ (storeCompletion_resultsAccounted _ _ _)
  | wake workflowId =>
    exact Relates.map _ ((Relates.bestEffort (decideOnce_decided _ _ _ _ _)).imp
      (fun h => (decided_sameResults h).accounted))

theorem exec_accounted (op : ActivityOp) (supply : Supply) (now : Timestamp)
    : Relates (Preserves Accounted) (op.exec supply now) :=
  fun start accounted =>
    accounted.step (exec_storeStep op supply now start) (exec_resultsAccounted op supply now start)

theorem Step.accounted {start stop : Database} {event : Event} (step : Step start event stop)
    (accounted : Accounted start)
    : Accounted stop :=
  Library.Calls.Step.related (fun op supply now => exec_accounted op supply now) step accounted

theorem accounted_of_run {events : List Event} {db : Database} (run : Run Fresh Step events db)
    : Accounted db := by
  refine run.invariant (fun db fresh => ?_) (fun _ _ _ accounted step => step.accounted accounted)
  obtain ⟨repositoryId, rfl⟩ := fresh
  intro result member
  exact absurd member Table.not_mem_empty

end Runs

/-- The failures that say nothing about a claim. -/
inductive Clash : Failure → Prop
  | integrity : Clash .integrityError
  | fact (message : String) : Clash (.factIdentityConflict message)
  | signal (key : String) : Clash (.signalDeduplicationConflict key)
  | workflow (message : String) : Clash (.workflowNotFound message)

theorem insertInto_clash (insert : Database → Option Database)
    : RaisesOnly Clash (insertInto insert) := by
  intro start raised stop h
  unfold Raises insertInto at h
  cases hi : insert start with
  | some next => rw [hi] at h; cases h
  | none =>
    rw [hi] at h
    cases h
    exact .integrity

theorem retainFact_clash (draft : RetainedFactDraft) (recordedAt : Timestamp)
    : RaisesOnly Clash (retainFact draft recordedAt) := by
  refine RaisesOnly.bind .get (fun db => ?_)
  split
  · refine RaisesOnly.bind .get (fun _ => ?_)
    exact .bind (insertInto_clash _) (fun _ => .pure _)
  · exact .bind (.raiseIf _ (.fact _)) (fun _ => .pure _)

theorem appendFact_clash {draft : RetainedFactDraft} (valid : draft.actor.valid = true)
    (inputs : List ProjectionInputDraft) (recordedAt : Timestamp)
    : RaisesOnly Clash (appendFact draft inputs recordedAt) := by
  refine RaisesOnly.transaction ?_
  refine RaisesOnly.bind (fun start raised stop h => ?_) (fun _ => ?_)
  · exact absurd valid (raises_raiseIf h).1
  · refine RaisesOnly.bind (retainFact_clash draft recordedAt) (fun _ => ?_)
    refine RaisesOnly.bind (RaisesOnly.forM (fun _ => .modify _)) (fun _ => ?_)
    exact .bind .get (fun _ => .pure _)

theorem requireWorkflowRun_clash (workflowId : Uuid)
    : RaisesOnly Clash (requireWorkflowRun workflowId) :=
  .bind .get (fun _ => .orRaise _ (.workflow _))

theorem hexDigits_length (value count : Nat) : (Uuid.hexDigits value count).length = count := by
  induction count generalizing value with
  | zero => rfl
  | succ count ih => simp [Uuid.hexDigits, ih]

theorem uuid_str_length (id : Uuid) : id.str.length = 36 := by
  simp only [Uuid.str, String.length_ofList, List.length_append, List.length_cons,
    List.length_take, List.length_drop, hexDigits_length]
  decide

theorem appendActivityInput_clash (activity : ActivityRecord) (operation : String)
    (timestamp : Timestamp)
    : RaisesOnly Clash (appendActivityInput activity operation timestamp) := by
  refine RaisesOnly.bind (requireWorkflowRun_clash _) (fun run => ?_)
  have valid (correlation : Correlation)
      : (activityStateFact activity operation correlation timestamp).actor.valid = true := by
    simp [activityStateFact, FactActor.valid, uuid_str_length]
    decide
  exact .bind (appendFact_clash (valid _) _ _) (fun _ => .pure _)

theorem storeSignal_clash (record : WorkflowSignalRecord)
    : RaisesOnly Clash (storeSignal record) := by
  refine RaisesOnly.transaction (RaisesOnly.bind .get (fun db => ?_))
  refine RaisesOnly.bind (.raiseIf _ (.workflow _)) (fun _ => ?_)
  split
  · refine RaisesOnly.bind ?_ (fun _ => .pure _)
    exact .bind (.raiseIf _ (.signal _)) (fun _ => .pure _)
  · refine RaisesOnly.bind (insertInto_clash _) (fun _ => ?_)
    refine RaisesOnly.bind (RaisesOnly.bind .get (fun _ => RaisesOnly.forM (fun wait => ?_)))
      (fun _ => .pure _)
    split
    · exact .modify _
    · exact .pure _

theorem enqueueWorkflowSignal_clash {supply : Supply} {workflowId : Uuid}
    {deduplicationKey : String} {payload : WorkflowSignalPayload} {createdAt : Timestamp}
    (named : deduplicationKey ≠ "")
    : RaisesOnly Clash
        (enqueueWorkflowSignal supply workflowId deduplicationKey payload createdAt) := by
  intro start raised stop h
  rcases raises_bind.mp h with hr | ⟨_, _, hr, h⟩
  · exact absurd (raises_raiseIf hr).1 named
  obtain ⟨-, rfl⟩ := returns_raiseIf.mp hr
  rcases raises_bind.mp h with hs | ⟨existing, middle, hs, h⟩
  · exact storeSignal_clash _ _ _ _ hs
  cases existing with
  | some original => exact absurd h raises_pure
  | none =>
    obtain ⟨-, member⟩ := storeSignal_returns hs
    rcases raises_bind.mp h with hg | ⟨db, _, hg, h⟩
    · cases hg
    obtain ⟨rfl, rfl⟩ := returns_get.mp hg
    rw [getWorkflowSignal_of_mem member] at h
    cases h

end Murder.Activities

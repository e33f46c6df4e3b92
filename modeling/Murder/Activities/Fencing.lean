import Murder.Activities.Runs

/-! The fenced lifecycle of activities over whole runs, under any clock readings.
Nothing an activity reached is undone, claims of one activity carry ever larger fences, a
result is stored for the current claim only, and a finished activity left one signal.
-/

namespace Murder.Activities

open Murder.Contracts Murder.Facts Murder.Storage Murder.Workflows Library.Tables
open Library.Transactions Library.Runs

/-- A later row of an activity: counters did not decrease, and a finished row is the same. -/
structure LaterRow (row next : ActivityRecord) : Prop where
  activityId : next.activityId = row.activityId
  attempts : row.attempts ≤ next.attempts
  claimFence : row.claimFence ≤ next.claimFence
  absorbing : row.status.terminal = true → next = row

variable {row : ActivityRecord}

theorem LaterRow.trans {middle next : ActivityRecord} (hl : LaterRow row middle)
    (hr : LaterRow middle next)
    : LaterRow row next where
  activityId := hr.activityId.trans hl.activityId
  attempts := hl.attempts.trans hr.attempts
  claimFence := hl.claimFence.trans hr.claimFence
  absorbing finished := by
    obtain rfl := hl.absorbing finished
    exact hr.absorbing finished

theorem RowStep.laterRow {may : Powers} {now : Timestamp} {next : ActivityRecord}
    (h : RowStep may now row next)
    : LaterRow row next :=
  ⟨h.same.activityId, h.monotone.1, h.monotone.2, h.absorbing⟩

/-- Every activity of the earlier store has a later row in the later one. -/
def NeverUndone (start stop : Database) : Prop :=
  ∀ row ∈ start.activities.records, ∃ next ∈ stop.activities.records, LaterRow row next

instance : IsPreorder Database NeverUndone where
  refl _ row member := ⟨row, member, rfl, le_rfl, le_rfl, fun _ => rfl⟩
  trans _ _ _ hl hr row member := by
    obtain ⟨middle, stored, later⟩ := hl row member
    obtain ⟨next, stored', later'⟩ := hr middle stored
    exact ⟨next, stored', later.trans later'⟩

variable {claim : ActivityClaim} {activity : ActivityRecord}

/-- A grant raises the fence of the row it finds by one and stores it. -/
theorem Granted.fence {activityId : Uuid} {owner : String} {leaseFor : Duration} {now : Timestamp}
    {start stop : Database} (h : Granted activityId owner leaseFor now claim activity start stop)
    : claim.fence = activity.claimFence + 1
      ∧ ∃ next ∈ stop.activities.records,
          next.activityId = activityId ∧ next.claimFence = claim.fence := by
  refine ⟨by rw [h.next]; rfl, ?_⟩
  have keeps : Table.KeepsKeys activityClash (claimed (nextClaim activity owner leaseFor now)) :=
    ⟨fun _ _ => rfl, fun _ _ => rfl⟩
  have selected : byId activityId activity = true := beq_iff_eq.mpr h.own
  have stored := Table.mem_update_of keeps h.member selected
  rw [h.store.activities]
  refine ⟨_, stored, h.own, ?_⟩
  rw [h.next]
  rfl

/-- The claim is the one the activity carries, and its lease is not over. -/
structure CurrentClaim (claim : ActivityClaim) (now : Timestamp) (activity : ActivityRecord)
    : Prop where
  activityId : activity.activityId = claim.activityId
  inProgress : activity.status.inProgress = true
  attempt : activity.attempts = claim.attempt
  owner : activity.claimedBy = some claim.owner
  fence : activity.claimFence = claim.fence
  unexpired : ∃ expiry, activity.leaseExpiresAt = some expiry ∧ now < expiry

def OneResultEach (db : Database) : Prop :=
  ∀ left ∈ db.activities.results, ∀ right ∈ db.activities.results,
    left.activityId = right.activityId → left.attempt = right.attempt → left = right

theorem oneResultEach (db : Database) : OneResultEach db := by
  intro left hl right hr activity attempt
  exact Table.eq_of_clash hl hr (by simp [resultClash, activity, attempt])
    (by simp [resultClash, activity, attempt])

theorem currentClaim_of_holds {now : Timestamp} (inProgress : activity.status.inProgress = true)
    (holds : holdsClaim claim now activity = true)
    : CurrentClaim claim now activity := by
  simp only [holdsClaim, Bool.and_eq_true, beq_iff_eq, Option.any_eq_true,
    decide_eq_true_eq] at holds
  obtain ⟨⟨⟨⟨activityId, attempt⟩, owner⟩, fence⟩, expiry, lease, unexpired⟩ := holds
  exact ⟨activityId, inProgress, attempt, owner, fence, expiry, lease, unexpired⟩

theorem Stored.results {supply : Supply}
    {outcome : ActivityOutcome} {now : Timestamp} {start stop : Database}
    (h : Stored supply activity claim outcome now start stop)
    : ∀ result ∈ stop.activities.results, result ∈ start.activities.results
        ∨ result = completion supply claim outcome now := by
  obtain ⟨-, -, results, middle, inserted, store, rest⟩ := h
  have same : stop.activities.results = results := by
    split at rest
    · rw [rest, store.activities]
      rfl
    · rw [rest.activities, store.activities]
      rfl
  intro result member
  rw [same] at member
  exact (Table.mem_of_insert? inserted).mp member

/-- The workflow and the activity that a signal says is finished. -/
def announcement (signal : WorkflowSignalRecord) : Option (Uuid × Uuid) :=
  match signal.payload with
  | .activityFinished activityId _ => some (signal.workflowId, activityId)
  | _ => none

def announcements (tables : WorkflowTables) : List (Uuid × Uuid) :=
  tables.signals.rows.filterMap announcement

def Finished (records : Table ActivityRecord activityClash) (entry : Uuid × Uuid) : Prop :=
  ∃ row ∈ records,
    row.workflowId = entry.1 ∧ row.activityId = entry.2 ∧ row.status.terminal = true

/-- The inboxes announce the finished activities, each once. -/
structure Announced (db : Database) : Prop where
  exact : ∀ entry, entry ∈ announcements db.workflows ↔ Finished db.activities.records entry
  once : (announcements db.workflows).Nodup

variable {change : ActivityRecord → ActivityRecord}

variable (keeps : Table.KeepsKeys activityClash change)

section Announcements

variable {now : Timestamp} {start middle stop : Database} {may : Powers}

theorem Announced.of_same (h : Announced start)
    (finished : ∀ entry,
      Finished stop.activities.records entry ↔ Finished start.activities.records entry)
    (signals : announcements stop.workflows = announcements start.workflows)
    : Announced stop := by
  refine ⟨fun entry => ?_, ?_⟩
  · rw [signals, finished]
    exact h.exact entry
  · rw [signals]
    exact h.once

theorem Announced.add {entry : Uuid × Uuid} (h : Announced start)
    (unfinished : ¬ Finished start.activities.records entry)
    (finished : ∀ other, Finished stop.activities.records other
      ↔ Finished start.activities.records other ∨ other = entry)
    (signals : announcements stop.workflows = announcements start.workflows ++ [entry])
    : Announced stop := by
  refine ⟨fun other => ?_, ?_⟩
  · rw [signals, finished, ← h.exact, List.mem_append, List.mem_singleton]
  · rw [signals, List.nodup_append]
    refine ⟨h.once, List.nodup_singleton _, ?_⟩
    intro other member last hl same
    rw [List.mem_singleton.mp hl] at same
    rw [same] at member
    exact unfinished ((h.exact entry).mp member)

theorem finished_update {records : Table ActivityRecord activityClash}
    {where_ : ActivityRecord → Bool}
    (rows : ∀ row ∈ records, where_ row = true →
      SameActivity row (change row) ∧ (change row).status.terminal = row.status.terminal)
    (entry : Uuid × Uuid)
    : Finished (records.update where_ change keeps) entry ↔ Finished records entry := by
  have same : ∀ row ∈ records,
      let next := if where_ row then change row else row
      next.workflowId = row.workflowId ∧ next.activityId = row.activityId
        ∧ next.status.terminal = row.status.terminal := by
    intro row member
    dsimp only
    split
    · next selected =>
        obtain ⟨own, terminal⟩ := rows row member selected
        exact ⟨own.workflowId, own.activityId, terminal⟩
    · exact ⟨rfl, rfl, rfl⟩
  constructor
  · rintro ⟨next, member, workflow, own, terminal⟩
    obtain ⟨row, stored, rfl⟩ := Table.mem_update.mp member
    obtain ⟨sameWorkflow, sameActivity, sameStatus⟩ := same row stored
    exact ⟨row, stored, sameWorkflow.symm.trans workflow, sameActivity.symm.trans own,
      sameStatus.symm.trans terminal⟩
  · rintro ⟨row, stored, workflow, own, terminal⟩
    obtain ⟨sameWorkflow, sameActivity, sameStatus⟩ := same row stored
    exact ⟨_, Table.mem_update_row keeps stored, sameWorkflow.trans workflow,
      sameActivity.trans own, sameStatus.trans terminal⟩

theorem finished_finish {records : Table ActivityRecord activityClash}
    (member : activity ∈ records) (finish : Finish now activity (change activity))
    (entry : Uuid × Uuid)
    : Finished (records.update (byId activity.activityId) change keeps) entry
      ↔ Finished records entry ∨ entry = (activity.workflowId, activity.activityId) := by
  constructor
  · rintro ⟨next, stored, workflow, own, terminal⟩
    obtain ⟨row, known, rfl⟩ := Table.mem_update.mp stored
    split at workflow
    · next selected =>
        obtain rfl := activity_eq_of_id known member (eq_of_beq selected)
        rw [if_pos selected] at own
        exact .inr (Prod.ext (workflow.symm.trans finish.same.workflowId)
          (own.symm.trans finish.same.activityId))
    · next other =>
        rw [if_neg other] at own terminal
        exact .inl ⟨row, known, workflow, own, terminal⟩
  · rintro (⟨row, known, workflow, own, terminal⟩ | rfl)
    · refine ⟨_, Table.mem_update_row keeps known, ?_⟩
      by_cases selected : byId activity.activityId row = true
      · obtain rfl := activity_eq_of_id known member (eq_of_beq selected)
        simp [finish.terminal.1] at terminal
      · rw [if_neg selected]
        exact ⟨workflow, own, terminal⟩
    · refine ⟨_, Table.mem_update_row keeps member, ?_⟩
      rw [if_pos (beq_self_eq_true _)]
      exact ⟨finish.same.workflowId, finish.same.activityId, finish.terminal.2⟩

theorem not_finished (member : activity ∈ start.activities.records)
    (unfinished : activity.status.terminal = false)
    : ¬ Finished start.activities.records (activity.workflowId, activity.activityId) := by
  rintro ⟨row, stored, -, own, terminal⟩
  rw [activity_eq_of_id stored member own, unfinished] at terminal
  cases terminal

theorem eq_of_pyEq_activityFinished {payload : WorkflowSignalPayload} {activityId resultId : Uuid}
    (h : payload.pyEq (.activityFinished activityId resultId) = true)
    : payload = .activityFinished activityId resultId := by
  cases payload with
  | external => cases h
  | _ => exact eq_of_beq h

/-- The signal of a newly finished activity is appended: no stored one names it yet. -/
theorem Signalled.announcements {result : ActivityResultRecord}
    (h : Signalled activity result middle stop)
    (unannounced : (activity.workflowId, activity.activityId) ∉ announcements middle.workflows)
    : Activities.announcements stop.workflows
        = Activities.announcements middle.workflows
          ++ [(activity.workflowId, activity.activityId)] := by
  obtain ⟨candidate, record, workflow, payload, enqueued⟩ := h
  cases enqueued with
  | converged member same _ equal =>
    rw [payload] at equal
    refine absurd (List.mem_filterMap.mpr ⟨record, member, ?_⟩) unannounced
    rw [announcement, eq_of_pyEq_activityFinished equal, same, workflow]
  | appended same _ _ rows _ =>
    unfold Activities.announcements
    rw [rows, List.filterMap_append, same]
    simp [announcement, payload, workflow]

theorem Announced.finish {result : ActivityResultRecord}
    (h : Announced start) (member : activity ∈ start.activities.records)
    (finish : Finish now activity (change activity))
    (records : middle.activities.records
      = start.activities.records.update (byId activity.activityId) change keeps)
    (workflows : middle.workflows = start.workflows)
    (signalled : Signalled activity result middle stop)
    : Announced stop := by
  have unfinished := not_finished member finish.terminal.1
  refine h.add unfinished ?_ ?_
  · rw [signalled.activities, records]
    exact finished_finish keeps member finish
  · rw [signalled.announcements, workflows]
    rw [workflows, h.exact]
    exact unfinished

theorem Announced.update {where_ : ActivityRecord → Bool} (h : Announced start)
    (rows : ∀ row ∈ start.activities.records, where_ row = true →
      SameActivity row (change row) ∧ row.status.terminal = false
        ∧ (change row).status.terminal = false)
    (records : stop.activities.records = start.activities.records.update where_ change keeps)
    (workflows : stop.workflows = start.workflows)
    : Announced stop := by
  refine h.of_same ?_ (by rw [workflows])
  rw [records]
  refine finished_update keeps (fun row member selected => ?_)
  obtain ⟨same, before, after⟩ := rows row member selected
  exact ⟨same, after.trans before.symm⟩

theorem Effect.announced (h : Announced start) (effect : Effect may now start stop)
    : Announced stop := by
  cases effect with
  | nothing => exact h
  | @upkeep _ _ _ keeps rows store =>
    refine h.update keeps (fun row member selected => ?_) (by rw [store.activities]; rfl)
      store.workflows
    have step := rows row member selected
    exact ⟨step.same, step.nonterminal⟩
  | @claimed _ activity _ owner leaseFor _ member _ _ _ idle _ store =>
    have keeps : Table.KeepsKeys activityClash
        (Activities.claimed (nextClaim activity owner leaseFor now)) :=
      ⟨fun _ _ => rfl, fun _ _ => rfl⟩
    refine h.update keeps (fun row stored selected => ?_) (by rw [store.activities]; rfl)
      store.workflows
    obtain rfl := activity_eq_of_id stored member (eq_of_beq selected)
    exact ⟨⟨rfl, rfl, rfl⟩, not_terminal_of_idle idle, rfl⟩
  | reaped _ store =>
    have keeps : Table.KeepsKeys activityClash (Activities.reaped now) :=
      ⟨fun _ _ => rfl, fun _ _ => rfl⟩
    refine h.update keeps (fun row _ selected => ?_) (by rw [store.activities]; rfl)
      store.workflows
    simp only [Bool.and_eq_true] at selected
    exact ⟨⟨rfl, rfl, rfl⟩, not_terminal_of_inProgress selected.1, rfl⟩
  | @admitted _ activity _ _ member waiting reserved workflows _ =>
    have keeps : Table.KeepsKeys activityClash (touched now) :=
      ⟨fun _ _ => rfl, fun _ _ => rfl⟩
    refine h.update keeps (fun row stored selected => ?_)
      (by rw [reserved.records, expiredReleased_same.2.2.1]) workflows
    obtain rfl := activity_eq_of_id stored member (eq_of_beq selected)
    have step : Upkeep now row (touched now row) := .admitted waiting
    exact ⟨step.same, step.nonterminal⟩
  | released _ store =>
    obtain ⟨workflows, -, records, -⟩ := @expiredReleased_same start now
    rw [store]
    exact h.of_same (by rw [records]; exact fun _ => Iff.rfl) (by rw [workflows])
  | rejected result member waiting _ store signalled =>
    have keeps : Table.KeepsKeys activityClash (cancelledBy now) :=
      ⟨fun _ _ => rfl, fun _ _ => rfl⟩
    exact h.finish keeps member (.rejected waiting) (by rw [store.activities]; rfl)
      store.workflows signalled
  | retried result member inProgress _ _ _ store =>
    have keeps : Table.KeepsKeys activityClash (Activities.completed .waitingAdmission now) :=
      ⟨fun _ _ => rfl, fun _ _ => rfl⟩
    refine h.update keeps (fun row stored selected => ?_) (by rw [store.activities]; rfl)
      store.workflows
    obtain rfl := activity_eq_of_id stored member (eq_of_beq selected)
    exact ⟨⟨rfl, rfl, rfl⟩, not_terminal_of_inProgress inProgress, rfl⟩
  | @completed _ _ _ _ outcome _ result member inProgress holds last _ store signalled =>
    have keeps : Table.KeepsKeys activityClash
        (Activities.completed (outcomeStatus outcome) now) :=
      ⟨fun _ _ => rfl, fun _ _ => rfl⟩
    exact h.finish keeps member (.completed inProgress holds last)
      (by rw [store.activities]; rfl) store.workflows signalled

/-- A transition marks signals consumed and adds pristine activities: it announces nothing. -/
theorem announced_of_decided {workflowId : Uuid} (h : Announced start)
    (decided : Decided workflowId start stop)
    : Announced stop := by
  cases decided with
  | nothing => exact h
  | @committed plan at_ _ commit =>
    have requested : Requested start.activities stop.activities := commit.installed.activities
    refine h.of_same (fun entry => ⟨?_, ?_⟩) ?_
    · rintro ⟨row, member, workflow, own, terminal⟩
      rcases requested.cases member with stored | ⟨pristine, -⟩
      · exact ⟨row, stored, workflow, own, terminal⟩
      · simp [pristine.status, ActivityStatus.terminal] at terminal
    · rintro ⟨row, member, finished⟩
      exact ⟨row, requested.mem member, finished⟩
    · unfold announcements
      rw [commit.installed.signals]
      simp only [replaceRun, markConsumed, Table.update, List.filterMap_map]
      congr 1
      funext signal
      simp only [Function.comp_apply]
      cases plan.consumeSignalIds.contains signal.signalId <;> rfl

theorem StoreStep.announced (h : Announced start) (step : StoreStep may now start stop)
    : Announced stop := by
  cases step with
  | activity effect => exact effect.announced h
  | created created =>
    refine h.of_same ?_ ?_
    · rw [created.activities]
      exact fun _ => Iff.rfl
    · rw [announcements, created.signals]
      rfl
  | decided decided => exact announced_of_decided h decided

/-- An activity is finished iff exactly one signal in its workflow's inbox says so. -/
def FinishedOnce (db : Database) : Prop :=
  ∀ activity ∈ db.activities.records,
    activity.status.terminal = true
      ↔ db.workflows.signals.count (fun signal =>
          announcement signal == some (activity.workflowId, activity.activityId)) = 1

theorem Announced.finishedOnce {db : Database} (h : Announced db) : FinishedOnce db := by
  intro activity member
  let entry := (activity.workflowId, activity.activityId)
  have finished : Finished db.activities.records entry ↔ activity.status.terminal = true := by
    constructor
    · rintro ⟨row, stored, -, own, terminal⟩
      rwa [activity_eq_of_id stored member own] at terminal
    · intro terminal
      exact ⟨activity, member, rfl, rfl, terminal⟩
  have counted : db.workflows.signals.count (fun signal => announcement signal == some entry)
      = (announcements db.workflows).count entry := by
    rw [announcements, List.count, List.countP_filterMap, Table.count, Table.select,
      ← List.countP_eq_length_filter]
    congr 1
    funext signal
    cases announcement signal <;> rfl
  rw [counted, ← finished, ← h.exact]
  constructor
  · exact List.count_eq_one_of_mem h.once
  · intro one
    exact List.count_pos_iff.mp (by omega)

end Announcements

variable {event : Event} {events : List Event}

section Runs

variable [PyRepr] [StaticDagAdapter] [FactPayloadAdapter]

theorem Step.neverUndone {start stop : Database} (h : Step start event stop)
    : NeverUndone start stop := by
  intro row member
  obtain ⟨next, stored, step⟩ := (storeStep_of_step h).moved.forward row member
  exact ⟨next, stored, step.laterRow⟩

theorem neverUndone_of_steps {start stop : Database} (h : Steps Step start events stop)
    : NeverUndone start stop :=
  h.related (fun _ _ _ step => step.neverUndone)

/-- The event is a call of `claim_activity` that returned the claim. -/
def Event.grants (event : Event) (claim : ActivityClaim) : Prop :=
  event.outcome = .ok (.claim claim)
    ∧ ∃ activityId owner leaseFor revision,
        event.op = .claimActivity activityId owner leaseFor revision

/-- Claims of one activity that the two events grant carry increasing fences. -/
def FencesGrow (earlier later : Event) : Prop :=
  ∀ old new, earlier.grants old → later.grants new → old.activityId = new.activityId →
    old.fence < new.fence

theorem Step.granted {start stop : Database}
    (h : Step start event stop) (grants : event.grants claim)
    : ∃ activity owner leaseFor,
        Granted claim.activityId owner leaseFor event.now claim activity start stop := by
  obtain ⟨granted, activityId, owner, leaseFor, revision, op⟩ := grants
  have returned := outcome_eq_ok.mp (h.1.trans granted)
  rw [h.2, op, ActivityOp.exec, returns_map] at returned
  obtain ⟨value, returned, same⟩ := returned
  cases same
  obtain ⟨activity, granted⟩ := claimActivity_returns returned
  have own : claim.activityId = activityId := by
    rw [granted.next]
    exact granted.own
  rw [own]
  exact ⟨activity, owner, leaseFor, granted⟩

/-- A claim granted later carries a larger fence than any row of its activity now. -/
theorem fence_above {start stop : Database} (h : Steps Step start events stop)
    (member : row ∈ start.activities.records) (granting : event ∈ events)
    (grants : event.grants claim) (same : claim.activityId = row.activityId)
    : row.claimFence < claim.fence := by
  induction h generalizing row with
  | nil => cases granting
  | cons first _ ih =>
    rcases List.mem_cons.mp granting with rfl | rest
    · obtain ⟨activity, owner, leaseFor, granted⟩ := first.granted grants
      have known := activity_eq_of_id granted.member member (granted.own.trans same)
      rw [granted.fence.1, known]
      exact Nat.lt_succ_self _
    · obtain ⟨next, stored, later⟩ := first.neverUndone row member
      exact lt_of_le_of_lt later.claimFence
        (ih stored rest (same.trans later.activityId.symm))

theorem fencesGrow_of_steps {start stop : Database} (h : Steps Step start events stop)
    : events.Pairwise FencesGrow := by
  induction h with
  | nil => exact .nil
  | cons first rest ih =>
    refine List.pairwise_cons.mpr ⟨fun later member old new hold hnew same => ?_, ih⟩
    obtain ⟨activity, owner, leaseFor, granted⟩ := first.granted hold
    obtain ⟨next, stored, own, fence⟩ := granted.fence.2
    rw [← fence]
    exact fence_above rest stored member hnew (same.symm.trans own.symm)

def StoresForCurrent (start : Database) (event : Event) (stop : Database) : Prop :=
  ∀ claim outcome, event.op = .completeActivity claim outcome →
    ∀ result ∈ stop.activities.results, result ∉ start.activities.results →
      result.activityId = claim.activityId ∧ result.attempt = claim.attempt
        ∧ ∃ activity ∈ start.activities.records, CurrentClaim claim event.now activity

theorem Step.storesForCurrent {start stop : Database} (h : Step start event stop)
    : StoresForCurrent start event stop := by
  intro claim outcome op result member fresh
  have last := h.2
  rw [op, ActivityOp.exec, final_map] at last
  rcases returns_or_raises (storeCompletion event.supply claim outcome event.now) start with
    ⟨value, returned⟩ | ⟨failure, raised⟩
  · rw [last] at returned
    rcases storeCompletion_returns returned with rfl | ⟨activity, known, same, stored⟩
    · exact absurd member fresh
    · rcases stored.results result member with old | rfl
      · exact absurd old fresh
      · exact ⟨rfl, rfl, activity, known, currentClaim_of_holds stored.inProgress stored.holds⟩
  · rw [last] at raised
    obtain rfl := raises_transaction raised
    exact absurd member fresh

theorem announced_of_run {db : Database} (h : Run Fresh Step events db)
    : Announced db := by
  refine h.invariant ?_ (fun _ _ _ announced step =>
    (storeStep_of_step step).announced announced)
  rintro _ ⟨repositoryId, rfl⟩
  exact ⟨fun entry => ⟨fun h => (List.not_mem_nil h).elim,
    fun ⟨_, member, _⟩ => absurd member Table.not_mem_empty⟩, List.nodup_nil⟩

/-- The fenced lifecycle, for any interleaving, any claims and any clock readings. -/
theorem fencedLifecycle {events : List Event} {db : Database} (run : Run Fresh Step events db)
    : (∀ later stop, Steps Step db later stop → NeverUndone db stop)
      ∧ events.Pairwise FencesGrow
      ∧ (OneResultEach db ∧ ∀ event stop, Step db event stop → StoresForCurrent db event stop)
      ∧ FinishedOnce db := by
  refine ⟨fun _ _ => neverUndone_of_steps, ?_, ⟨oneResultEach db, fun _ _ => ?_⟩,
    (announced_of_run run).finishedOnce⟩
  · obtain ⟨start, -, steps⟩ := run
    exact fencesGrow_of_steps steps
  · exact Step.storesForCurrent

end Runs

section Rejection

open Scenario

/-- An activity is requested and routed, and its admission rejected. -/
def rejected : List Call :=
  [call 0 100 (.createWorkflowRun workflow []),
    call 0 200 (.applyTransitionPlan 1 (request [10] 2)),
    call 0 300 (.persistRoute 10 route),
    call 0 400 (.persistAdmission 10 (.rejected ["no capacity"]))]

theorem fencedLifecycle_of_rejected
    : ∃ db, (∃ activity ∈ db.activities.records, activity.status.terminal = true)
        ∧ (∀ later stop, Steps Step db later stop → NeverUndone db stop) ∧ FinishedOnce db := by
  have reached : reaches (fun _ _ => true) rejected (fun state =>
      state.db.activities.records.rows.any (fun activity => activity.status.terminal)) = true := by
    decide +kernel
  obtain ⟨events, state, run, finished⟩ := run_of_reaches_any reached
  have lifecycle := fencedLifecycle (run_of_timed run)
  exact ⟨state.db, List.any_eq_true.mp finished, lifecycle.1, lifecycle.2.2.2⟩

end Rejection

end Murder.Activities

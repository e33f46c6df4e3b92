import Murder.Activities.Runs

/-! The attempt budget of activities.
Only a completion consults it, so it holds as long as no expired claim on the last attempt is
given back or taken over.
-/

namespace Murder.Activities

open Murder.Contracts Murder.Facts Murder.Storage Murder.Workflows Library.Tables
open Library.Transactions Library.Runs

/-- Every activity used at most the attempts it has. -/
def WithinBudget (db : Database) : Prop :=
  ∀ activity ∈ db.activities.records, activity.attempts ≤ activity.maxAttempts

/-- A row within its budget that has an attempt left while it waits for a claim. -/
structure Budgeted (row : ActivityRecord) : Prop where
  within : row.attempts ≤ row.maxAttempts
  left : row.status.routable = true → row.attempts < row.maxAttempts

section Rows

variable {now : Timestamp} {row next : ActivityRecord}

theorem Pristine.budgeted (h : Pristine row) : Budgeted row := by
  have positive := row.positive
  exact ⟨by rw [h.attempts]; omega, fun _ => by rw [h.attempts]; omega⟩

theorem Upkeep.budgeted (step : Upkeep now row next) (h : Budgeted row) : Budgeted next := by
  cases step with
  | routed routable => exact ⟨h.within, fun _ => h.left routable⟩
  | admitted => exact ⟨h.within, h.left⟩
  | renewed => exact ⟨h.within, h.left⟩
  | started => exact ⟨h.within, fun routable => nomatch routable⟩

theorem Finish.budgeted (step : Finish now row next) (h : Budgeted row) : Budgeted next := by
  have terminal := step.terminal.2
  refine ⟨by rw [step.counters.1, step.same.maxAttempts]; exact h.within, fun routable => ?_⟩
  rw [not_terminal_of_routable routable] at terminal
  cases terminal

theorem budgeted_claimed {owner : String} {leaseFor : Duration}
    (left : row.attempts < row.maxAttempts)
    : Budgeted (claimed (nextClaim row owner leaseFor now) row) :=
  ⟨left, fun routable => nomatch routable⟩

/-- A retry is granted only before the last attempt. -/
theorem budgeted_retried {claim : ActivityClaim} {outcome : ActivityOutcome} (h : Budgeted row)
    (holds : holdsClaim claim now row = true) (again : retries claim outcome row = true)
    : Budgeted (completed .waitingAdmission now row) := by
  refine ⟨h.within, fun _ => ?_⟩
  simp only [holdsClaim, Bool.and_eq_true, beq_iff_eq] at holds
  obtain ⟨⟨⟨⟨-, attempt⟩, -⟩, -⟩, -⟩ := holds
  cases outcome with
  | failure code message retryable details =>
    simp only [retries, Bool.and_eq_true, decide_eq_true_eq] at again
    exact attempt ▸ again.2
  | success => cases again
  | cancelled => cases again

end Rows

/-- The claim of the row is over and the row has no attempt left. -/
def exhausted (now : Timestamp) (row : ActivityRecord) : Bool :=
  row.status.inProgress && !liveAt now row && row.maxAttempts ≤ row.attempts

/-- The call gives back or takes over no expired claim on the last attempt. -/
def sparesExhausted (db : Database) (call : Call) : Bool :=
  match call.op with
  | .reapExpiredClaims => !db.activities.records.rows.any (exhausted call.now)
  | .claimActivity activityId .. =>
    !db.activities.records.rows.any (fun row =>
      row.activityId == activityId && exhausted call.now row)
  | _ => true

theorem attempt_left {now : Timestamp} {row : ActivityRecord}
    (inProgress : row.status.inProgress = true) (ended : liveAt now row = false)
    (spared : exhausted now row = false)
    : row.attempts < row.maxAttempts := by
  simpa [exhausted, inProgress, ended] using spared

theorem not_liveAt_of_leaseOver {now : Timestamp} {row : ActivityRecord}
    (ended : leaseOver now row = true)
    : liveAt now row = false := by
  simp only [leaseOver, Option.any_eq_true, decide_eq_true_eq] at ended
  obtain ⟨expiry, lease, ended⟩ := ended
  simp [liveAt, lease, ended]

theorem spared {db : Database} {call : Call} (h : sparesExhausted db call = true)
    {row : ActivityRecord} (member : row ∈ db.activities.records)
    (acts : call.op.powers.reap = true ∨ call.op.powers.claim row.activityId = true)
    : exhausted call.now row = false := by
  obtain ⟨op, now, supply⟩ := call
  cases op with
  | reapExpiredClaims =>
    simp only [sparesExhausted, Bool.not_eq_true', List.any_eq_false] at h
    simpa using h row member
  | claimActivity activityId owner leaseFor revision =>
    simp only [sparesExhausted, Bool.not_eq_true', List.any_eq_false, Bool.and_eq_true,
      beq_iff_eq, not_and] at h
    simpa using h row member (eq_of_beq (acts.resolve_left (fun none_ => nomatch none_)))
  | _ => exact (acts.elim (fun none_ => nomatch none_) (fun none_ => nomatch none_))

theorem RowStep.budgeted {may : Powers} {now : Timestamp} {row next : ActivityRecord}
    (step : RowStep may now row next) (h : Budgeted row)
    (spared : may.reap = true ∨ may.claim row.activityId = true → exhausted now row = false)
    : Budgeted next := by
  cases step with
  | unchanged => exact h
  | upkeep step => exact step.budgeted h
  | claimed allowed idle =>
    refine budgeted_claimed ?_
    rcases idle with waiting | ⟨claimed, ended⟩
    · exact h.left (by rw [waiting]; rfl)
    · exact attempt_left (by rw [claimed]; rfl) ended (spared (.inr allowed))
  | reaped allowed inProgress ended =>
    have left := attempt_left inProgress (not_liveAt_of_leaseOver ended) (spared (.inl allowed))
    exact ⟨h.within, fun _ => left⟩
  | retried _ holds again => exact budgeted_retried h holds again
  | finished step => exact step.budgeted h

def AllBudgeted (db : Database) : Prop := ∀ row ∈ db.activities.records, Budgeted row

/-- While exhausted claims are spared, no activity uses more attempts than it has. -/
theorem withinBudget_of_sparesExhausted [PyRepr] [StaticDagAdapter] [FactPayloadAdapter]
    {events : List Event} {db : Database}
    (run : Run Fresh (GuardedStep sparesExhausted) events db)
    : WithinBudget db := by
  have budgeted : AllBudgeted db := by
    refine run.invariant ?_ (fun start event stop before step next member => ?_)
    · rintro _ ⟨repositoryId, rfl⟩ row member
      exact absurd member Table.not_mem_empty
    · have moved := (storeStep_of_step step.step).moved
      rcases moved.backward next member with ⟨pristine, -⟩ | ⟨row, stored, moved⟩
      · exact pristine.budgeted
      · exact moved.budgeted (before row stored) (spared step.passes stored)
  exact fun row member => (budgeted row member).within

section LastAttempt

open Scenario

def onlyAttempt : List Call :=
  [call 0 100 (.createWorkflowRun workflow []),
    call 0 200 (.applyTransitionPlan 1 (request [10] 0)),
    call 0 300 (.persistRoute 10 route),
    call 0 400 (.persistAdmission 10 (admission 30 [] (seconds 0) (seconds 60))),
    call 0 500 (.claimActivity 10 "first" (seconds 1) 1)]

/-- Its claim expires, and the reaped activity is claimed once more. -/
def secondAttempt : List Call :=
  [call 2 600 .reapExpiredClaims, call 2 700 (.claimActivity 10 "second" (seconds 1) 1)]

/-- The first attempt passes the guard, and the second exceeds the budget. -/
theorem attempts_reached
    : reaches sparesExhausted onlyAttempt (fun state =>
        state.db.activities.records.rows.any (fun activity => activity.attempts == 1)) = true
      ∧ reaches (fun _ _ => true) (onlyAttempt ++ secondAttempt) (fun state =>
        state.db.activities.records.rows.any (fun activity =>
          activity.maxAttempts < activity.attempts)) = true :=
  Library.Calls.reaches_append (by decide +kernel)

theorem withinBudget_of_onlyAttempt
    : ∃ db, (∃ activity ∈ db.activities.records, activity.attempts = 1) ∧ WithinBudget db := by
  obtain ⟨events, state, run, used⟩ := run_of_reaches attempts_reached.1
  have used := List.any_eq_true.mp used
  simp only [beq_iff_eq] at used
  exact ⟨state.db, used, withinBudget_of_sparesExhausted (run_of_timed run)⟩

theorem withinBudget_broken
    : ∃ events db, Run Fresh Step events db ∧ ¬ WithinBudget db := by
  obtain ⟨events, state, run, ended⟩ := run_of_reaches_any attempts_reached.2
  obtain ⟨activity, member, ended⟩ := List.any_eq_true.mp ended
  refine ⟨events, state.db, run_of_timed run, fun within => ?_⟩
  exact absurd (within activity member) (not_le.mpr (of_decide_eq_true ended))

end LastAttempt

end Murder.Activities

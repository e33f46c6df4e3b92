import Murder.Activities.Lifecycle

/-! The lifecycle of one activity as a state machine, and what each of its steps keeps.
The operations of the store move every row by such a step.
-/

namespace Murder.Activities

open Murder.Contracts Murder.Storage

/-- The claim of an in-progress activity whose lease is not over. -/
def liveAt (now : Timestamp) (row : ActivityRecord) : Bool :=
  row.status.inProgress && row.leaseExpiresAt.any (fun expiry => now < expiry)

/-- A step that neither claims nor ends a claim: it may route, record an admission, renew or
start. -/
inductive Upkeep (now : Timestamp) (row : ActivityRecord) : ActivityRecord → Prop
  | routed {route} (routable : row.status.routable = true)
    : Upkeep now row (routed route now row)
  | admitted (waiting : row.status = .waitingAdmission) : Upkeep now row (touched now row)
  | renewed {claim expires} (inProgress : row.status.inProgress = true)
    (holds : holdsClaim claim now row = true) : Upkeep now row (renewed expires now row)
  | started {claim} (waiting : row.status = .claimed) (holds : holdsClaim claim now row = true)
    : Upkeep now row (started now row)

/-- A step that leaves the activity finished for good. -/
inductive Finish (now : Timestamp) (row : ActivityRecord) : ActivityRecord → Prop
  | rejected (waiting : row.status = .waitingAdmission) : Finish now row (cancelledBy now row)
  | completed {claim outcome} (inProgress : row.status.inProgress = true)
    (holds : holdsClaim claim now row = true) (last : retries claim outcome row = false)
    : Finish now row (completed (outcomeStatus outcome) now row)

/-- What an operation may do besides upkeep: release expired reservations in the stores it
starts from, claim some activities, and reap expired claims.
-/
structure Powers where
  release : Database → Bool := fun _ => false
  claim : Uuid → Bool := fun _ => false
  reap : Bool := false

/-- A step of one activity by an operation of some powers. -/
inductive RowStep (may : Powers) (now : Timestamp) (row : ActivityRecord)
    : ActivityRecord → Prop
  | unchanged : RowStep may now row row
  | upkeep {next} (step : Upkeep now row next) : RowStep may now row next
  | claimed {owner leaseFor} (allowed : may.claim row.activityId = true)
    (idle : row.status = .waitingAdmission ∨ row.status = .claimed ∧ liveAt now row = false)
    (positive : 0 < leaseFor)
    : RowStep may now row (claimed (nextClaim row owner leaseFor now) row)
  | reaped (allowed : may.reap = true) (inProgress : row.status.inProgress = true)
    (ended : leaseOver now row = true)
    : RowStep may now row (reaped now row)
  | retried {claim outcome} (inProgress : row.status.inProgress = true)
    (holds : holdsClaim claim now row = true) (again : retries claim outcome row = true)
    : RowStep may now row (completed .waitingAdmission now row)
  | finished {next} (step : Finish now row next) : RowStep may now row next

section Steps

variable {may : Powers} {now : Timestamp} {row next : ActivityRecord}

theorem outcomeStatus_terminal (outcome : ActivityOutcome)
    : (outcomeStatus outcome).terminal = true := by
  cases outcome <;> rfl

theorem not_terminal_of_inProgress {status : ActivityStatus} (h : status.inProgress = true)
    : status.terminal = false := by
  cases status <;> simp_all [ActivityStatus.inProgress, ActivityStatus.terminal]

theorem not_terminal_of_routable {status : ActivityStatus} (h : status.routable = true)
    : status.terminal = false := by
  cases status <;> simp_all [ActivityStatus.routable, ActivityStatus.terminal]

/-- What no step changes of an activity. -/
structure SameActivity (row next : ActivityRecord) : Prop where
  activityId : next.activityId = row.activityId
  workflowId : next.workflowId = row.workflowId
  maxAttempts : next.maxAttempts = row.maxAttempts

theorem Upkeep.same (h : Upkeep now row next) : SameActivity row next := by
  cases h <;> exact ⟨rfl, rfl, rfl⟩

theorem Finish.same (h : Finish now row next) : SameActivity row next := by
  cases h <;> exact ⟨rfl, rfl, rfl⟩

theorem RowStep.same (h : RowStep may now row next) : SameActivity row next := by
  cases h with
  | upkeep step => exact step.same
  | finished step => exact step.same
  | _ => exact ⟨rfl, rfl, rfl⟩

theorem Upkeep.counters (h : Upkeep now row next)
    : next.attempts = row.attempts ∧ next.claimFence = row.claimFence := by
  cases h <;> exact ⟨rfl, rfl⟩

theorem Finish.counters (h : Finish now row next)
    : next.attempts = row.attempts ∧ next.claimFence = row.claimFence := by
  cases h <;> exact ⟨rfl, rfl⟩

/-- Fences and attempts never decrease. -/
theorem RowStep.monotone (h : RowStep may now row next)
    : row.attempts ≤ next.attempts ∧ row.claimFence ≤ next.claimFence := by
  cases h with
  | upkeep step => exact ⟨step.counters.1.ge, step.counters.2.ge⟩
  | finished step => exact ⟨step.counters.1.ge, step.counters.2.ge⟩
  | claimed => exact ⟨Nat.le_succ _, Nat.le_succ _⟩
  | _ => exact ⟨le_rfl, le_rfl⟩

theorem Upkeep.nonterminal (h : Upkeep now row next)
    : row.status.terminal = false ∧ next.status.terminal = false := by
  cases h with
  | routed routable => exact ⟨not_terminal_of_routable routable, rfl⟩
  | admitted waiting => exact ⟨by rw [waiting]; rfl, by simp [touched, waiting]; rfl⟩
  | renewed inProgress =>
    exact ⟨not_terminal_of_inProgress inProgress, not_terminal_of_inProgress inProgress⟩
  | started waiting => exact ⟨by rw [waiting]; rfl, rfl⟩

theorem Finish.terminal (h : Finish now row next)
    : row.status.terminal = false ∧ next.status.terminal = true := by
  cases h with
  | rejected waiting => exact ⟨by rw [waiting]; rfl, rfl⟩
  | completed inProgress =>
    exact ⟨not_terminal_of_inProgress inProgress, outcomeStatus_terminal _⟩

theorem not_terminal_of_idle
    (h : row.status = .waitingAdmission ∨ row.status = .claimed ∧ liveAt now row = false)
    : row.status.terminal = false := by
  rcases h with waiting | ⟨claimed, -⟩
  · rw [waiting]
    rfl
  · rw [claimed]
    rfl

/-- A finished activity takes no step but the empty one. -/
theorem RowStep.absorbing (h : RowStep may now row next) (finished : row.status.terminal = true)
    : next = row := by
  cases h with
  | unchanged => rfl
  | upkeep step => simp [step.nonterminal.1] at finished
  | claimed _ idle => simp [not_terminal_of_idle idle] at finished
  | reaped _ inProgress => simp [not_terminal_of_inProgress inProgress] at finished
  | retried inProgress => simp [not_terminal_of_inProgress inProgress] at finished
  | finished step => simp [step.terminal.1] at finished

theorem Upkeep.liveBefore (h : Upkeep now row next) (live : liveAt now next = true)
    : liveAt now row = true := by
  cases h with
  | routed => simp [liveAt, Activities.routed, ActivityStatus.inProgress] at live
  | admitted => exact live
  | renewed inProgress holds =>
    simp only [holdsClaim, Bool.and_eq_true] at holds
    simp [liveAt, inProgress, holds.2]
  | started waiting holds =>
    simp only [holdsClaim, Bool.and_eq_true] at holds
    simp [liveAt, waiting, ActivityStatus.inProgress, holds.2]

theorem liveAt_earlier {earlier later : Timestamp} (h : earlier ≤ later)
    (live : liveAt later row = true)
    : liveAt earlier row = true := by
  simp only [liveAt, Bool.and_eq_true, Option.any_eq_true, decide_eq_true_eq] at live ⊢
  obtain ⟨inProgress, expiry, lease, unexpired⟩ := live
  exact ⟨inProgress, expiry, lease, lt_of_le_of_lt h unexpired⟩

end Steps

end Murder.Activities

import Murder.Activities.Machine

/-! What each operation on activities does to the store when its transaction commits.
A raise leaves the store as it was, so an operation has one of few effects.
-/

namespace Murder.Activities

open Murder.Contracts Murder.Facts Murder.Storage Murder.Workflows Library.Tables
open Library.Transactions

/-- The rows of the store after `change` hit the rows that satisfy `where_`. -/
abbrev updated (start : Database) (where_ : ActivityRecord → Bool)
    (change : ActivityRecord → ActivityRecord) (keeps : Table.KeepsKeys activityClash change)
    : Database :=
  withRecords start (start.activities.records.update where_ change keeps)

abbrev byId (activityId : Uuid) (row : ActivityRecord) : Bool := row.activityId == activityId

abbrev claimOver (now : Timestamp) (row : ActivityRecord) : Bool :=
  row.status.inProgress && leaseOver now row

def reservationRow (db : Database) (activityId : Uuid) (decision : Admitted) (now : Timestamp)
    : ReservationRow :=
  {
    repositoryId := .id db.repositoryId
    reservationId := decision.reservationId
    activityId := activityId
    reservationKeys := decision.reservationKeys
    admittedAt := now
    expiresAt := decision.reservationExpiresAt
    releasedAt := none
  }

theorem reservation_eq_of_id {tables : ActivityTables} {left right : ReservationRow}
    (hl : left ∈ tables.reservations) (hr : right ∈ tables.reservations)
    (same : left.activityId = right.activityId)
    : left = right :=
  Table.eq_of_clash hl hr (by simp [reservationClash, same]) (by simp [reservationClash, same])

/-- The store with the locks of expired reservations dropped, if there are any. -/
def expiredReleased (now : Timestamp) (db : Database) : Database :=
  if expiredReservations db now = [] then db else released (expiredReservations db now) now db

/-- The tables an admission replaced: its own reservation and locks, on top of the store
with expired reservations released.
-/
structure Reserved (activityId : Uuid) (decision : Admitted) (now : Timestamp)
    (freed stop : ActivityTables) (row : ReservationRow) : Prop where
  reservations : (freed.reservations.delete (fun old => old.activityId == activityId)).insert? row
    = some stop.reservations
  locks : (freed.locks.delete (fun lock => lock.activityId == activityId)).insertAll?
    (lockRows activityId decision) = some stop.locks
  records : stop.records = freed.records.update (byId activityId) (touched now)
  results : stop.results = freed.results

/-- The store with a completed claim's reservation released and its locks dropped. -/
def claimFreed (activityId : Uuid) (now : Timestamp) (db : Database) : Database :=
  dropLocks activityId (releaseReservation activityId now db)

def withResults (db : Database) (results : Table ActivityResultRecord resultClash) : Database :=
  { db with activities := { db.activities with results := results } }

/-- The signal that an activity finished reached its workflow's inbox. -/
structure Signalled (activity : ActivityRecord) (result : ActivityResultRecord)
    (middle stop : Database) : Prop where
  signal : ∃ candidate record, candidate.workflowId = activity.workflowId
    ∧ candidate.payload = .activityFinished activity.activityId result.resultId
    ∧ Enqueued candidate record middle stop

variable {activity : ActivityRecord}

theorem Signalled.activities {result : ActivityResultRecord}
    {middle stop : Database} (h : Signalled activity result middle stop)
    : stop.activities = middle.activities := by
  obtain ⟨candidate, record, -, -, enqueued⟩ := h
  cases enqueued with
  | converged => rfl
  | appended _ _ _ _ frame =>
    simp only [Keeps, outsideInbox, Prod.mk.injEq] at frame
    exact frame.2.2.2.1

/-- The effect of an operation on activities at `now`. -/
inductive Effect (may : Powers) (now : Timestamp) (start : Database) : Database → Prop
  | nothing : Effect may now start start
  | upkeep {stop where_ change keeps}
    (rows : ∀ row ∈ start.activities.records, where_ row = true → Upkeep now row (change row))
    (store : OnlyFacts (updated start where_ change keeps) stop)
    : Effect may now start stop
  | claimed {stop activity reservation owner leaseFor}
    (allowed : may.claim activity.activityId = true)
    (member : activity ∈ start.activities.records)
    (reserved : reservation ∈ start.activities.reservations)
    (own : reservation.activityId = activity.activityId)
    (active : reservation.releasedAt = none ∧ now < reservation.expiresAt)
    (idle : activity.status = .waitingAdmission
      ∨ activity.status = .claimed ∧ liveAt now activity = false)
    (positive : 0 < leaseFor)
    (store : OnlyFacts
      (updated start (byId activity.activityId)
        (claimed (nextClaim activity owner leaseFor now)) ⟨fun _ _ => rfl, fun _ _ => rfl⟩) stop)
    : Effect may now start stop
  | admitted {stop activity decision} (release : may.release start = true)
    (member : activity ∈ start.activities.records)
    (waiting : activity.status = .waitingAdmission)
    (reserved : Reserved activity.activityId decision now (expiredReleased now start).activities
      stop.activities (reservationRow start activity.activityId decision now))
    (workflows : stop.workflows = start.workflows)
    (repository : stop.repositoryId = start.repositoryId)
    : Effect may now start stop
  | released {stop} (release : may.release start = true)
    (store : stop = expiredReleased now start)
    : Effect may now start stop
  | rejected {middle stop activity results} (result : ActivityResultRecord)
    (member : activity ∈ start.activities.records)
    (waiting : activity.status = .waitingAdmission)
    (stored : start.activities.results.insert? result = some results)
    (store : OnlyFacts
      (updated (withResults start results) (byId activity.activityId) (cancelledBy now)
        ⟨fun _ _ => rfl, fun _ _ => rfl⟩) middle)
    (signalled : Signalled activity result middle stop)
    : Effect may now start stop
  | reaped {stop} (allowed : may.reap = true)
    (store : OnlyFacts
      (updated start (claimOver now) (reaped now) ⟨fun _ _ => rfl, fun _ _ => rfl⟩) stop)
    : Effect may now start stop
  | retried {stop activity claim outcome results} (result : ActivityResultRecord)
    (member : activity ∈ start.activities.records)
    (inProgress : activity.status.inProgress = true)
    (holds : holdsClaim claim now activity = true)
    (again : retries claim outcome activity = true)
    (stored : start.activities.results.insert? result = some results)
    (store : OnlyFacts
      (claimFreed activity.activityId now
        (updated (withResults start results) (byId activity.activityId)
          (completed .waitingAdmission now) ⟨fun _ _ => rfl, fun _ _ => rfl⟩)) stop)
    : Effect may now start stop
  | completed {middle stop activity claim outcome results} (result : ActivityResultRecord)
    (member : activity ∈ start.activities.records)
    (inProgress : activity.status.inProgress = true)
    (holds : holdsClaim claim now activity = true)
    (last : retries claim outcome activity = false)
    (stored : start.activities.results.insert? result = some results)
    (store : OnlyFacts
      (claimFreed activity.activityId now
        (updated (withResults start results) (byId activity.activityId)
          (completed (outcomeStatus outcome) now) ⟨fun _ _ => rfl, fun _ _ => rfl⟩)) middle)
    (signalled : Signalled activity result middle stop)
    : Effect may now start stop

variable {activityId : Uuid} {result : Unit} {decision : Admitted} {claim : ActivityClaim}
  {supply : Supply} {outcome : ActivityOutcome}

section Pieces

variable {start stop : Database} {now : Timestamp} {may : Powers}

theorem updateActivities_returns {where_ : ActivityRecord → Bool}
    {change : ActivityRecord → ActivityRecord} {keeps : Table.KeepsKeys activityClash change}
    {count : Nat}
    : Returns (updateActivities where_ change keeps) start count stop
      ↔ start.activities.records.count where_ = count ∧ updated start where_ change keeps = stop
    := by
  simp only [updateActivities, returns_bind, returns_get, returns_set, returns_pure]
  constructor
  · rintro ⟨_, _, ⟨rfl, rfl⟩, _, _, rfl, rfl, rfl⟩
    exact ⟨rfl, rfl⟩
  · rintro ⟨rfl, rfl⟩
    exact ⟨start, start, ⟨rfl, rfl⟩, ⟨⟩, _, rfl, rfl, rfl⟩

/-- The activity of a row update is read back and its change recorded as a fact. -/
theorem recorded {operation : String}
    (h : Returns (do
      let activity ← requireActivity activityId
      appendActivityInput activity operation now) start result stop)
    : OnlyFacts start stop := by
  obtain ⟨activity, _, hr, h⟩ := returns_bind.mp h
  obtain ⟨-, rfl⟩ := requireActivity_returns.mp hr
  exact (appendActivityInput_onlyFacts _ _ _).returns h

/-- A program that reads its activity back, records its change and returns it. -/
theorem recorded_returned {operation : String}
    (h : Returns (do
      let activity ← requireActivity activityId
      appendActivityInput activity operation now
      pure activity) start activity stop)
    : OnlyFacts start stop := by
  obtain ⟨current, _, hr, h⟩ := returns_bind.mp h
  obtain ⟨-, rfl⟩ := requireActivity_returns.mp hr
  obtain ⟨_, _, ha, h⟩ := returns_bind.mp h
  obtain ⟨-, rfl⟩ := returns_pure.mp h
  exact (appendActivityInput_onlyFacts _ _ _).returns ha

theorem releaseExpiredReservations_returns {count : Nat}
    (h : Returns (releaseExpiredReservations now) start count stop)
    : stop = expiredReleased now start := by
  obtain ⟨_, _, hg, h⟩ := returns_bind.mp h
  obtain ⟨rfl, rfl⟩ := returns_get.mp hg
  unfold expiredReleased
  dsimp only at h
  split at h
  · rw [if_pos ‹_›]
    exact (returns_pure.mp h).2.symm
  · obtain ⟨_, _, hm, h⟩ := returns_bind.mp h
    obtain rfl := returns_modify.mp hm
    rw [if_neg ‹_›]
    exact (returns_pure.mp h).2.symm

theorem expiredReleased_same
    : (expiredReleased now start).workflows = start.workflows
      ∧ (expiredReleased now start).repositoryId = start.repositoryId
      ∧ (expiredReleased now start).activities.records = start.activities.records
      ∧ (expiredReleased now start).activities.results = start.activities.results := by
  unfold expiredReleased released
  split <;> exact ⟨rfl, rfl, rfl, rfl⟩

theorem upsertReservation_returns
    (h : Returns (upsertReservation activityId decision now) start result stop)
    : ∃ reservations,
        (start.activities.reservations.delete (fun old => old.activityId == activityId)).insert?
            (reservationRow start activityId decision now) = some reservations
        ∧ stop = { start with activities := {
            start.activities with reservations := reservations } } := by
  obtain ⟨reservations, hi, hm⟩ := Option.bind_eq_some_iff.mp (returns_insertInto.mp h)
  cases hm
  exact ⟨reservations, hi, rfl⟩

theorem insertLocks_returns (h : Returns (insertLocks activityId decision) start result stop)
    : ∃ locks, start.activities.locks.insertAll? (lockRows activityId decision) = some locks
        ∧ stop = { start with activities := { start.activities with locks := locks } } := by
  simp only [insertLocks, returns_bind, returns_get, returns_orRaise, returns_set] at h
  obtain ⟨_, _, ⟨rfl, rfl⟩, locks, _, ⟨hi, rfl⟩, rfl⟩ := h
  exact ⟨locks, hi, rfl⟩

/-- An admission releases what expired, then replaces its own reservation and locks. -/
theorem reserve_returns (h : Returns (reserve activityId decision now) start result stop)
    : Reserved activityId decision now (expiredReleased now start).activities stop.activities
        (reservationRow start activityId decision now)
      ∧ stop.workflows = start.workflows ∧ stop.repositoryId = start.repositoryId := by
  obtain ⟨_, freed, hf, h⟩ := returns_bind.mp h
  obtain rfl := releaseExpiredReservations_returns hf
  obtain ⟨workflows, repository, -, -⟩ := @expiredReleased_same start now
  obtain ⟨_, _, hr, h⟩ := returns_bind.mp h
  obtain ⟨reservations, inserted, rfl⟩ := upsertReservation_returns hr
  obtain ⟨_, _, hd, h⟩ := returns_bind.mp h
  obtain rfl := returns_modify.mp hd
  obtain ⟨_, _, hl, h⟩ := returns_bind.mp h
  obtain ⟨locks, locked, rfl⟩ := insertLocks_returns hl
  obtain ⟨_, _, hu, h⟩ := returns_bind.mp h
  obtain ⟨-, rfl⟩ := updateActivities_returns.mp hu
  have facts := recorded h
  have same : reservationRow (expiredReleased now start) activityId decision now
      = reservationRow start activityId decision now := by
    simp [reservationRow, repository]
  refine ⟨?_, facts.workflows.trans workflows, ?_⟩
  · rw [facts.activities]
    exact ⟨by rw [← same]; exact inserted, locked, rfl, rfl⟩
  · rw [facts]
    exact repository

theorem appendCompletionFact_onlyFacts (supply : Supply) (activity : ActivityRecord)
    (result : ActivityResultRecord) (retrying : Bool) (actor : FactActor)
    : Relates OnlyFacts (appendCompletionFact supply activity result retrying actor) := by
  refine Relates.bind (.bind .get (fun _ => .orRaise _ _)) (fun run => ?_)
  refine Relates.bind (.bind .get (fun _ => .orRaise _ _)) (fun current => ?_)
  exact .bind (appendFact_onlyFacts _ _ _) (fun _ => .pure _)

/-- The activity a claim finds, with its unreleased and unexpired reservation. -/
theorem activeReservation_returns
    (h : Returns (activeReservation activityId now) start activity stop)
    : start = stop ∧ activity ∈ start.activities.records ∧ activity.activityId = activityId
      ∧ ∃ reservation ∈ start.activities.reservations, reservation.activityId = activityId
          ∧ reservation.releasedAt = none ∧ now < reservation.expiresAt := by
  simp only [activeReservation, returns_bind, returns_get, returns_orRaise, returns_raiseIf,
    returns_pure, not_or, not_le, Option.not_isSome_iff_eq_none] at h
  obtain ⟨_, _, ⟨rfl, rfl⟩, _, _, ⟨found, rfl⟩, reservation, _, ⟨stored, rfl⟩, _, _,
    ⟨active, rfl⟩, rfl, rfl⟩ := h
  obtain ⟨member, same⟩ := getActivity_mem found
  obtain ⟨reserved, own⟩ := Table.mem_of_find? stored
  simp only [Bool.and_eq_true, beq_iff_eq] at own
  exact ⟨rfl, member, same, reservation, reserved, own.1, active⟩

/-- A granted claim: the next one of an activity under an active reservation. -/
structure Granted (activityId : Uuid) (owner : String) (leaseFor : Duration) (now : Timestamp)
    (claim : ActivityClaim) (activity : ActivityRecord) (start stop : Database) : Prop where
  positive : 0 < leaseFor
  member : activity ∈ start.activities.records
  own : activity.activityId = activityId
  next : claim = nextClaim activity owner leaseFor now
  reserved : ∃ reservation ∈ start.activities.reservations,
    reservation.activityId = activityId ∧ reservation.releasedAt = none
      ∧ now < reservation.expiresAt
  idle : activity.status = .waitingAdmission
    ∨ activity.status = .claimed ∧ liveAt now activity = false
  store : OnlyFacts
    (updated start (byId activityId) (claimed (nextClaim activity owner leaseFor now))
      ⟨fun _ _ => rfl, fun _ _ => rfl⟩) stop

theorem claim_recorded {value : ActivityClaim}
    (h : ∃ activity middle,
      Returns (requireActivity activityId) start activity middle
      ∧ ∃ result last, Returns (appendActivityInput activity "claimed" now) middle result last
          ∧ value = claim ∧ last = stop)
    : value = claim ∧ OnlyFacts start stop := by
  obtain ⟨activity, _, hr, _, last, ha, same, rfl⟩ := h
  obtain ⟨-, rfl⟩ := requireActivity_returns.mp hr
  exact ⟨same, (appendActivityInput_onlyFacts _ _ _).returns ha⟩

theorem claimActivity_returns {owner : String} {leaseFor : Duration} {capabilityRevision : Nat}
    (h : Returns (claimActivity activityId owner leaseFor capabilityRevision now) start claim stop)
    : ∃ activity, Granted activityId owner leaseFor now claim activity start stop := by
  obtain ⟨_, _, hv, h⟩ := returns_bind.mp h
  obtain ⟨valid, rfl⟩ := returns_raiseIf.mp hv
  obtain ⟨activity, _, ha, h⟩ := returns_bind.mp (returns_transaction.mp h)
  obtain ⟨rfl, member, own, reserved⟩ := activeReservation_returns ha
  simp only [returns_bind, returns_raiseIf, returns_pure, updateActivities_returns] at h
  obtain ⟨_, _, ⟨claimable, rfl⟩, _, _, ⟨idle, rfl⟩, _, _, ⟨-, rfl⟩, _, _, ⟨-, rfl⟩, h⟩ := h
  obtain ⟨same, store⟩ := claim_recorded h
  have positive : 0 < leaseFor := not_le.mp (fun short => valid (.inr short))
  refine ⟨activity, positive, member, own, same.symm, reserved, ?_, store⟩
  rw [liveAt]
  by_cases waiting : activity.status = .waitingAdmission
  · exact .inl waiting
  · have claimed : activity.status = .claimed := by
      by_contra other
      exact claimable ⟨waiting, other⟩
    refine .inr ⟨claimed, ?_⟩
    simpa [claimed, ActivityStatus.inProgress] using idle

/-- A completion that stored a result: the claim was the current one, and the activity is
back in admission, or finished with a signal.
-/
structure Stored (supply : Supply) (activity : ActivityRecord) (claim : ActivityClaim)
    (outcome : ActivityOutcome) (now : Timestamp) (start stop : Database) : Prop where
  inProgress : activity.status.inProgress = true
  holds : holdsClaim claim now activity = true
  store : ∃ results middle,
    start.activities.results.insert? (completion supply claim outcome now) = some results
    ∧ OnlyFacts
        (claimFreed claim.activityId now
          (updated (withResults start results) (byId claim.activityId)
            (completed (if retries claim outcome activity then .waitingAdmission
              else outcomeStatus outcome) now) ⟨fun _ _ => rfl, fun _ _ => rfl⟩)) middle
    ∧ if retries claim outcome activity then stop = middle
      else Signalled activity (completion supply claim outcome now) middle stop

theorem finish_returns {value : Completion}
    (h : Returns (finish supply activity claim outcome now) start value stop)
    : Stored supply activity claim outcome now start stop := by
  obtain ⟨_, _, hc, h⟩ := returns_bind.mp h
  obtain ⟨current, rfl⟩ := returns_raiseIf.mp hc
  simp only [not_not, Bool.and_eq_true] at current
  obtain ⟨_, _, hi, h⟩ := returns_bind.mp h
  obtain ⟨results, inserted, hm⟩ := Option.bind_eq_some_iff.mp (returns_insertInto.mp hi)
  cases hm
  obtain ⟨_, _, hu, h⟩ := returns_bind.mp h
  obtain ⟨-, rfl⟩ := updateActivities_returns.mp hu
  obtain ⟨_, _, hm, h⟩ := returns_bind.mp h
  obtain rfl := returns_modify.mp hm
  obtain ⟨_, _, hd, h⟩ := returns_bind.mp h
  obtain rfl := returns_modify.mp hd
  obtain ⟨_, middle, hf, h⟩ := returns_bind.mp h
  have facts := (appendCompletionFact_onlyFacts _ _ _ _ _).returns hf
  refine ⟨current.1, current.2, results, middle, inserted, facts, ?_⟩
  split at h
  · next again =>
      obtain ⟨-, rfl⟩ := returns_pure.mp h
      rw [if_pos again]
  · next last =>
      obtain ⟨record, _, he, h⟩ := returns_bind.mp h
      obtain ⟨-, rfl⟩ := returns_pure.mp h
      rw [if_neg last]
      exact ⟨⟨_, record, rfl, rfl, (enqueueWorkflowSignal_returns he).2⟩⟩

/-- A stored completion retries or finishes. -/
theorem Stored.effect (member : activity ∈ start.activities.records)
    (same : activity.activityId = claim.activityId)
    (h : Stored supply activity claim outcome now start stop)
    : Effect may now start stop := by
  obtain ⟨inProgress, holds, results, middle, inserted, store, rest⟩ := h
  rw [← same] at store
  split at rest
  · next again =>
      rw [rest]
      simp only [again, if_true] at store
      exact .retried _ member inProgress holds again inserted store
  · next last =>
      simp only [last] at store
      exact .completed _ member inProgress holds (Bool.not_eq_true _ ▸ last) inserted store rest

/-- A rejection records the cancellation, finishes the activity and leaves its signal. -/
theorem reject_returns {current : ActivityRecord} {reasons : List String}
    (h : Returns (reject supply current reasons now) start result stop)
    : ∃ results middle,
        start.activities.results.insert? (rejection supply current.activityId reasons now)
          = some results
        ∧ OnlyFacts
            (updated (withResults start results) (byId current.activityId) (cancelledBy now)
              ⟨fun _ _ => rfl, fun _ _ => rfl⟩) middle
        ∧ Signalled current (rejection supply current.activityId reasons now) middle stop := by
  obtain ⟨_, _, hi, h⟩ := returns_bind.mp h
  obtain ⟨results, inserted, hm⟩ := Option.bind_eq_some_iff.mp (returns_insertInto.mp hi)
  cases hm
  obtain ⟨_, _, hu, h⟩ := returns_bind.mp h
  obtain ⟨-, rfl⟩ := updateActivities_returns.mp hu
  obtain ⟨_, middle, hf, h⟩ := returns_bind.mp h
  obtain ⟨record, last, he, h⟩ := returns_bind.mp h
  obtain ⟨-, rfl⟩ := returns_pure.mp h
  exact ⟨results, middle, inserted, (appendCompletionFact_onlyFacts _ _ _ _ _).returns hf,
    ⟨⟨_, record, rfl, rfl, (enqueueWorkflowSignal_returns he).2⟩⟩⟩

end Pieces

theorem effect_of_transaction {α : Type} {may : Powers} {now : Timestamp}
    {body : Sql α}
    (committed : ∀ start value stop, Returns body start value stop → Effect may now start stop)
    : Relates (Effect may now) (transaction body) := by
  apply Relates.intro
  · intro start value stop h
    exact committed start value stop (returns_transaction.mp h)
  · intro start raised stop h
    rw [raises_transaction h]
    exact .nothing

theorem effect_after_check {α : Type} {may : Powers} {now : Timestamp}
    {condition : Prop} [Decidable condition] {raised : Failure} {rest : Sql α}
    (h : Relates (Effect may now) rest)
    : Relates (Effect may now) (raiseIf condition raised >>= fun _ => rest) :=
  .after (fun _ => .nothing) (.raiseIf _ _) (fun _ => h)

section Operations

variable (may : Powers) (now : Timestamp)

theorem persistRoute_effect (activityId : Uuid) (route : ExecutionRoute)
    : Relates (Effect may now) (persistRoute activityId route now) := by
  refine effect_of_transaction (fun start value stop h => ?_)
  obtain ⟨_, _, hu, h⟩ := returns_bind.mp h
  obtain ⟨-, rfl⟩ := updateActivities_returns.mp hu
  obtain ⟨_, _, hr, h⟩ := returns_bind.mp h
  obtain ⟨-, rfl⟩ := returns_raiseIf.mp hr
  refine .upkeep (fun row _ selected => ?_) (recorded_returned h)
  simp only [Bool.and_eq_true] at selected
  exact .routed selected.2

def admits (activityId : Uuid) (decision : AdmissionDecision) (db : Database) : Bool :=
  match decision with
  | .admitted _ =>
    (getActivity db.activities activityId).any (fun activity =>
      activity.status == .waitingAdmission)
  | _ => false

theorem storeAdmission_effect (supply : Supply) (activityId : Uuid) (decision : AdmissionDecision)
    (allowed : ∀ db, admits activityId decision db = true → may.release db = true)
    : Relates (Effect may now) (storeAdmission supply activityId decision now) := by
  refine effect_of_transaction (fun start value stop h => ?_)
  obtain ⟨current, _, hc, h⟩ := returns_bind.mp h
  obtain ⟨found, rfl⟩ := requireActivity_returns.mp hc
  obtain ⟨member, rfl⟩ := getActivity_mem found
  obtain ⟨_, _, hw, h⟩ := returns_bind.mp h
  obtain ⟨waiting, rfl⟩ := returns_raiseIf.mp hw
  rw [not_not] at waiting
  cases decision with
  | admitted admitted =>
    obtain ⟨_, _, hr, h⟩ := returns_bind.mp h
    obtain ⟨-, rfl⟩ := returns_pure.mp h
    obtain ⟨reserved, workflows, repository⟩ := reserve_returns hr
    exact .admitted (allowed _ (by simp [admits, found, waiting])) member waiting reserved
      workflows repository
  | rejected reasons =>
    obtain ⟨_, _, hr, h⟩ := returns_bind.mp h
    obtain ⟨-, rfl⟩ := returns_pure.mp h
    obtain ⟨results, middle, stored, store, signalled⟩ := reject_returns hr
    exact .rejected _ member waiting stored store signalled
  | deferred reasons retryAt =>
    obtain ⟨-, rfl⟩ := returns_pure.mp h
    exact .nothing

theorem claimActivity_effect (activityId : Uuid) (owner : String) (leaseFor : Duration)
    (capabilityRevision : Nat) (allowed : may.claim activityId = true)
    : Relates (Effect may now)
        (claimActivity activityId owner leaseFor capabilityRevision now) := by
  apply Relates.intro
  · intro start claim stop h
    obtain ⟨activity, granted⟩ := claimActivity_returns h
    obtain ⟨positive, member, rfl, next, reserved, idle, store⟩ := granted
    obtain ⟨reservation, stored, own, active⟩ := reserved
    exact .claimed allowed member stored own active idle positive store
  · intro start raised stop h
    rcases raises_bind.mp h with h | ⟨_, _, hv, h⟩
    · obtain ⟨-, rfl⟩ := raises_raiseIf h
      exact .nothing
    · obtain ⟨-, rfl⟩ := returns_raiseIf.mp hv
      rw [raises_transaction h]
      exact .nothing

theorem renewActivityClaim_effect (claim : ActivityClaim) (leaseFor : Duration)
    : Relates (Effect may now) (renewActivityClaim claim leaseFor now) := by
  refine effect_after_check ?_
  apply Relates.intro
  · intro start value stop h
    obtain ⟨_, _, ht, h⟩ := returns_bind.mp h
    obtain ⟨-, rfl⟩ := returns_pure.mp h
    obtain ⟨_, _, hu, h⟩ := returns_bind.mp (returns_transaction.mp ht)
    obtain ⟨-, rfl⟩ := updateActivities_returns.mp hu
    obtain ⟨_, _, hr, h⟩ := returns_bind.mp h
    obtain ⟨-, rfl⟩ := returns_raiseIf.mp hr
    refine .upkeep (fun row _ selected => ?_) (recorded h)
    simp only [Bool.and_eq_true] at selected
    exact .renewed selected.1 selected.2
  · intro start raised stop h
    rcases raises_bind.mp h with h | ⟨_, _, -, h⟩
    · rw [raises_transaction h]
      exact .nothing
    · exact absurd h raises_pure

theorem startActivity_effect (claim : ActivityClaim)
    : Relates (Effect may now) (startActivity claim now) := by
  refine effect_of_transaction (fun start value stop h => ?_)
  obtain ⟨_, _, hu, h⟩ := returns_bind.mp h
  obtain ⟨-, rfl⟩ := updateActivities_returns.mp hu
  obtain ⟨_, _, hr, h⟩ := returns_bind.mp h
  obtain ⟨-, rfl⟩ := returns_raiseIf.mp hr
  refine .upkeep (fun row _ selected => ?_) (recorded_returned h)
  simp only [Bool.and_eq_true, beq_iff_eq] at selected
  exact .started selected.1 selected.2

theorem reapExpiredClaims_effect (allowed : may.reap = true)
    : Relates (Effect may now) (reapExpiredClaims now) := by
  refine effect_of_transaction (fun start value stop h => ?_)
  obtain ⟨_, _, hg, h⟩ := returns_bind.mp h
  obtain ⟨rfl, rfl⟩ := returns_get.mp hg
  obtain ⟨_, _, hu, h⟩ := returns_bind.mp h
  obtain ⟨-, rfl⟩ := updateActivities_returns.mp hu
  obtain ⟨_, _, hf, h⟩ := returns_bind.mp h
  obtain ⟨-, rfl⟩ := returns_pure.mp h
  refine .reaped allowed (Relates.returns (Relates.forM (fun activityId => ?_)) hf)
  exact .bind (.bind .get (fun _ => .orRaise _ _))
    (fun _ => appendActivityInput_onlyFacts _ _ _)

theorem reapExpiredReservations_effect (allowed : ∀ db, may.release db = true)
    : Relates (Effect may now) (reapExpiredReservations now) :=
  effect_of_transaction (fun _ _ _ h =>
    .released (allowed _) (releaseExpiredReservations_returns h))

/-- A completion found a stored result and wrote nothing, or stored a new one. -/
theorem storeCompletion_returns {now : Timestamp} {start stop : Database} {value : Completion}
    (h : Returns (storeCompletion supply claim outcome now) start value stop)
    : stop = start
      ∨ ∃ activity ∈ start.activities.records, activity.activityId = claim.activityId
          ∧ Stored supply activity claim outcome now start stop := by
  obtain ⟨activity, _, ha, h⟩ := returns_bind.mp (returns_transaction.mp h)
  obtain ⟨found, rfl⟩ := requireActivity_returns.mp ha
  obtain ⟨member, same⟩ := getActivity_mem found
  obtain ⟨_, _, hg, h⟩ := returns_bind.mp h
  obtain ⟨rfl, rfl⟩ := returns_get.mp hg
  split at h
  · obtain ⟨_, _, hr, h⟩ := returns_bind.mp h
    obtain ⟨-, rfl⟩ := returns_raiseIf.mp hr
    obtain ⟨-, rfl⟩ := returns_pure.mp h
    exact .inl rfl
  · exact .inr ⟨activity, member, same, finish_returns h⟩

theorem storeCompletion_effect (supply : Supply) (claim : ActivityClaim)
    (outcome : ActivityOutcome)
    : Relates (Effect may now) (storeCompletion supply claim outcome now) := by
  apply Relates.intro
  · intro start value stop h
    rcases storeCompletion_returns h with rfl | ⟨activity, member, same, stored⟩
    · exact .nothing
    · exact stored.effect member same
  · intro start raised stop h
    rw [raises_transaction h]
    exact .nothing

end Operations

end Murder.Activities

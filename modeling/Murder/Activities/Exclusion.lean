import Murder.Activities.Runs

/-! Resource locks and the mutual exclusion they give to live claims.
The lock table keeps one holder for each key; a live claim excludes the others for as long
as the keys of its reservation stay locked.
-/

namespace Murder.Activities

open Murder.Contracts Murder.Facts Murder.Storage Murder.Workflows Library.Tables
open Library.Transactions Library.Runs

def Covered (tables : ActivityTables) (row : ReservationRow) : Prop :=
  ∀ key ∈ row.reservationKeys, ∃ lock ∈ tables.locks,
    lock.resourceKey = key ∧ lock.activityId = row.activityId

/-- Which reservations are covered at a time: the active ones, and those of live claims. -/
structure Locked (clock : Timestamp) (db : Database) : Prop where
  home : ∀ row ∈ db.activities.reservations, row.repositoryId = .id db.repositoryId
  active : ∀ row ∈ db.activities.reservations, row.releasedAt = none → clock < row.expiresAt →
    Covered db.activities row
  live : ∀ row ∈ db.activities.reservations, ∀ activity ∈ db.activities.records,
    activity.activityId = row.activityId → liveAt clock activity = true →
    Covered db.activities row

/-- No two live claims hold reservations that share a key. -/
def MutualExclusion (state : Timed) : Prop :=
  ∀ left ∈ state.db.activities.records, ∀ right ∈ state.db.activities.records,
    left.activityId ≠ right.activityId →
    liveAt state.clock left = true → liveAt state.clock right = true →
    ∀ held ∈ state.db.activities.reservations, held.activityId = left.activityId →
    ∀ wanted ∈ state.db.activities.reservations, wanted.activityId = right.activityId →
    ∀ key ∈ held.reservationKeys, key ∉ wanted.reservationKeys

/-- Covered reservations exclude each other: a key has one lock row. -/
theorem Locked.exclusion {state : Timed} (h : Locked state.clock state.db)
    : MutualExclusion state := by
  intro left hl right hr apart liveLeft liveRight held hh ownLeft wanted hw ownRight key hk hk'
  obtain ⟨lock, stored, resource, holder⟩ := h.live held hh left hl ownLeft.symm liveLeft key hk
  obtain ⟨lock', stored', resource', holder'⟩ :=
    h.live wanted hw right hr ownRight.symm liveRight key hk'
  have same : lock = lock' := Table.eq_of_clash stored stored'
    (by simp [lockClash, resource, resource']) (by simp [lockClash, resource, resource'])
  exact apart (by rw [← ownLeft, ← ownRight, ← holder, ← holder', same])

variable {activity : ActivityRecord}

section Steps

variable {clock now : Timestamp} {start stop : Database}

/-- Time passing only makes the invariant weaker. -/
theorem Locked.later (h : Locked clock start) (later : clock ≤ now) : Locked now start where
  home := h.home
  active row member unreleased unexpired :=
    h.active row member unreleased (lt_of_le_of_lt later unexpired)
  live row member activity stored own live :=
    h.live row member activity stored own (liveAt_earlier later live)

/-- A row that is live after the step was live before it, or was claimed under an active
reservation.
-/
def LiveBefore (now : Timestamp) (start : Database) (next : ActivityRecord) : Prop :=
  (∃ row ∈ start.activities.records, row.activityId = next.activityId ∧ liveAt now row = true)
  ∨ ∃ reservation ∈ start.activities.reservations, reservation.activityId = next.activityId
      ∧ reservation.releasedAt = none ∧ now < reservation.expiresAt

theorem Locked.same_locks (h : Locked now start)
    (reservations : stop.activities.reservations = start.activities.reservations)
    (locks : stop.activities.locks = start.activities.locks)
    (repository : stop.repositoryId = start.repositoryId)
    (before : ∀ next ∈ stop.activities.records, liveAt now next = true →
      LiveBefore now start next)
    : Locked now stop := by
  have covered : ∀ row, Covered start.activities row → Covered stop.activities row := by
    intro row cover
    unfold Covered
    rw [locks]
    exact cover
  refine ⟨?_, ?_, ?_⟩
  · rw [reservations, repository]
    exact h.home
  · rw [reservations]
    intro row member unreleased unexpired
    exact covered row (h.active row member unreleased unexpired)
  · rw [reservations]
    intro row member next stored own live
    rcases before next stored live with ⟨old, known, same, wasLive⟩ | ⟨reservation, known, same,
      unreleased, unexpired⟩
    · exact covered row (h.live row member old known (same.trans own) wasLive)
    · obtain rfl := reservation_eq_of_id known member (same.trans own)
      exact covered _ (h.active _ known unreleased unexpired)

theorem liveBefore_of_update {records : Table ActivityRecord activityClash}
    {where_ : ActivityRecord → Bool} {change : ActivityRecord → ActivityRecord}
    (keeps : Table.KeepsKeys activityClash change)
    (same : start.activities.records = records)
    (rows : ∀ row ∈ records, where_ row = true → liveAt now (change row) = true →
      LiveBefore now start (change row))
    : ∀ next ∈ records.update where_ change keeps, liveAt now next = true →
      LiveBefore now start next := by
  intro next member live
  obtain ⟨row, stored, rfl⟩ := Table.mem_update.mp member
  split at live
  · next selected =>
      rw [if_pos selected]
      exact rows row stored selected live
  · next other =>
      rw [if_neg other]
      exact .inl ⟨row, by rw [same]; exact stored, rfl, live⟩

/-- Dropping locks keeps the invariant when neither an active reservation nor the keys of a
live claim lose theirs.
-/
theorem Locked.dropped (gone : Uuid → Bool) (h : Locked now start)
    (repository : stop.repositoryId = start.repositoryId)
    (reservations : ∀ row ∈ stop.activities.reservations,
      ∃ old ∈ start.activities.reservations, old.activityId = row.activityId
        ∧ old.repositoryId = row.repositoryId ∧ old.reservationKeys = row.reservationKeys
        ∧ (row.releasedAt = none → row = old ∧ (now < old.expiresAt → gone old.activityId = false)))
    (locks : ∀ lock ∈ start.activities.locks, gone lock.activityId = false →
      lock ∈ stop.activities.locks)
    (live : ∀ next ∈ stop.activities.records, liveAt now next = true →
      next ∈ start.activities.records
      ∧ ((∃ lock ∈ start.activities.locks, lock.activityId = next.activityId) →
          gone next.activityId = false))
    : Locked now stop := by
  refine ⟨?_, ?_, ?_⟩
  · intro row member
    obtain ⟨old, stored, -, home, -⟩ := reservations row member
    rw [← home, repository]
    exact h.home old stored
  · intro row member unreleased unexpired key hk
    obtain ⟨old, stored, -, -, -, untouched⟩ := reservations row member
    obtain ⟨rfl, kept⟩ := untouched unreleased
    obtain ⟨lock, held, resource, holder⟩ := h.active row stored unreleased unexpired key hk
    exact ⟨lock, locks lock held (by rw [holder]; exact kept unexpired), resource, holder⟩
  · intro row member next stored own isLive key hk
    obtain ⟨old, known, same, -, keys, -⟩ := reservations row member
    obtain ⟨before, kept⟩ := live next stored isLive
    obtain ⟨lock, held, resource, holder⟩ :=
      h.live old known next before (own.trans same.symm) isLive key (by rw [keys]; exact hk)
    have holder' : lock.activityId = next.activityId := by rw [holder, same, own]
    exact ⟨lock, locks lock held (by rw [holder']; exact kept ⟨lock, held, holder'⟩), resource,
      by rw [holder, same]⟩

def dropsLive (now : Timestamp) (db : Database) : Bool :=
  db.activities.locks.rows.any (fun lock =>
    (expiredReservations db now).contains lock.activityId
      && db.activities.records.rows.any (fun activity =>
        activity.activityId == lock.activityId && liveAt now activity))

theorem mem_expiredReservations {id : Uuid}
    : id ∈ expiredReservations start now ↔ ∃ row ∈ start.activities.reservations,
        row.repositoryId = .id start.repositoryId ∧ row.releasedAt = none
        ∧ row.expiresAt ≤ now ∧ row.activityId = id := by
  simp [expiredReservations, and_assoc, and_left_comm]

/-- Releasing expired reservations drops no lock of an active one, nor of a live claim when
the release drops none of these.
-/
theorem Locked.expiredReleased (h : Locked now start) (safe : dropsLive now start = false)
    : Locked now (expiredReleased now start) := by
  unfold Activities.expiredReleased
  split
  · exact h
  · refine Locked.dropped (expiredReservations start now).contains h rfl ?_ ?_ ?_
    · intro row member
      simp only [released, Table.mem_update] at member
      obtain ⟨old, stored, rfl⟩ := member
      refine ⟨old, stored, ?_⟩
      split
      · refine ⟨rfl, rfl, rfl, fun unreleased => ?_⟩
        cases unreleased
      · refine ⟨rfl, rfl, rfl, fun unreleased => ⟨rfl, fun unexpired => ?_⟩⟩
        rw [Bool.eq_false_iff]
        intro listed
        obtain ⟨other, known, -, -, ended, same⟩ :=
          mem_expiredReservations.mp (List.contains_iff_mem.mp listed)
        rw [reservation_eq_of_id known stored same] at ended
        exact absurd unexpired (not_lt.mpr ended)
    · intro lock stored kept
      exact Table.mem_delete.mpr ⟨stored, kept⟩
    · intro next stored isLive
      refine ⟨stored, ?_⟩
      rintro ⟨lock, held, holder⟩
      rw [Bool.eq_false_iff]
      intro listed
      have drops : dropsLive now start = true := by
        simp only [dropsLive, List.any_eq_true, Bool.and_eq_true, beq_iff_eq]
        exact ⟨lock, held, by rw [holder]; exact listed, next, stored, holder.symm, isLive⟩
      rw [safe] at drops
      cases drops

theorem Locked.claimFreed {status : ActivityStatus}
    {results : Table ActivityResultRecord resultClash} (h : Locked now start)
    : Locked now (claimFreed activity.activityId now
        (updated (withResults start results) (byId activity.activityId)
          (completed status now) ⟨fun _ _ => rfl, fun _ _ => rfl⟩)) := by
  refine Locked.dropped (fun id => id == activity.activityId) h rfl ?_ ?_ ?_
  · intro row member
    simp only [Activities.claimFreed, dropLocks, releaseReservation, Table.mem_update] at member
    obtain ⟨old, stored, rfl⟩ := member
    refine ⟨old, stored, ?_⟩
    split
    · refine ⟨rfl, rfl, rfl, fun unreleased => ?_⟩
      cases unreleased
    · next other =>
        refine ⟨rfl, rfl, rfl, fun _ => ⟨rfl, fun _ => ?_⟩⟩
        have home : old.repositoryId = .id start.repositoryId := h.home old stored
        simpa [updated, withRecords, withResults, home] using other
  · intro lock stored kept
    exact Table.mem_delete.mpr ⟨stored, kept⟩
  · intro next member isLive
    simp only [Activities.claimFreed, dropLocks, releaseReservation, withRecords,
      Table.mem_update] at member
    obtain ⟨row, stored, rfl⟩ := member
    split at isLive
    · simp [liveAt, completed] at isLive
    · next other =>
        rw [if_neg other]
        exact ⟨stored, fun _ => by simpa using other⟩

/-- An admission replaces the reservation and the locks of an activity that is not live. -/
theorem Locked.reserved {decision : Admitted} {row : ReservationRow} (h : Locked now start)
    (home : row.repositoryId = .id start.repositoryId) (own : row.activityId = activity.activityId)
    (keys : row.reservationKeys = decision.reservationKeys)
    (reserved : Reserved activity.activityId decision now start.activities stop.activities row)
    (repository : stop.repositoryId = start.repositoryId)
    : Locked now stop := by
  have fromStart : ∀ other ∈ stop.activities.reservations,
      (other ∈ start.activities.reservations ∧ other.activityId ≠ activity.activityId)
      ∨ other = row := by
    intro other stored
    rcases (Table.mem_of_insert? reserved.reservations).mp stored with old | new
    · exact .inl (by simpa using old)
    · exact .inr new
  have locked : ∀ lock ∈ start.activities.locks, lock.activityId ≠ activity.activityId →
      lock ∈ stop.activities.locks := by
    intro lock stored apart
    exact (Table.mem_of_insertAll? reserved.locks).mpr (.inl (by simpa using ⟨stored, apart⟩))
  have covered : ∀ other, other.activityId ≠ activity.activityId →
      Covered start.activities other → Covered stop.activities other := by
    intro other apart cover key hk
    obtain ⟨lock, stored, resource, holder⟩ := cover key hk
    exact ⟨lock, locked lock stored (by rw [holder]; exact apart), resource, holder⟩
  have new : Covered stop.activities row := by
    intro key hk
    refine ⟨⟨key, activity.activityId, decision.reservationExpiresAt⟩, ?_, rfl, own.symm⟩
    refine (Table.mem_of_insertAll? reserved.locks).mpr (.inr (List.mem_map.mpr ⟨key, ?_, rfl⟩))
    rw [← keys]
    exact hk
  refine ⟨?_, ?_, ?_⟩
  · intro other stored
    rw [repository]
    rcases fromStart other stored with ⟨old, -⟩ | rfl
    · exact h.home other old
    · exact home
  · intro other stored unreleased unexpired
    rcases fromStart other stored with ⟨old, apart⟩ | rfl
    · exact covered other apart (h.active other old unreleased unexpired)
    · exact new
  · intro other stored next known same isLive
    rcases fromStart other stored with ⟨old, apart⟩ | rfl
    · simp only [reserved.records, Table.mem_update] at known
      obtain ⟨before, was, rfl⟩ := known
      split at isLive
      · next selected =>
          rw [if_pos selected] at same
          exact absurd (same.symm.trans (eq_of_beq selected)) apart
      · next other' =>
          rw [if_neg other'] at same
          exact covered other apart (h.live other old before was same isLive)
    · exact new

theorem Signalled.repositoryId {result : ActivityResultRecord}
    {middle stop : Database} (h : Signalled activity result middle stop)
    : stop.repositoryId = middle.repositoryId := by
  obtain ⟨candidate, record, -, -, enqueued⟩ := h
  cases enqueued with
  | converged => rfl
  | appended _ _ _ _ frame =>
    simp only [Keeps, outsideInbox, Prod.mk.injEq] at frame
    exact frame.1

/-- A store that differs from one by facts and signals only is as covered as that one. -/
theorem Locked.of_same {middle : Database} (h : Locked now middle)
    (activities : stop.activities = middle.activities)
    (repository : stop.repositoryId = middle.repositoryId)
    : Locked now stop := by
  obtain ⟨home, active, live⟩ := h
  refine ⟨?_, ?_, ?_⟩
  · rw [activities, repository]
    exact home
  · rw [activities]
    exact active
  · rw [activities]
    exact live

theorem Effect.locked {may : Powers} (h : Locked now start)
    (safe : may.release start = true → dropsLive now start = false)
    (effect : Effect may now start stop)
    : Locked now stop := by
  cases effect with
  | nothing => exact h
  | @upkeep _ _ _ keeps rows store =>
    have moved : Locked now (updated start _ _ keeps) := h.same_locks rfl rfl rfl
      (liveBefore_of_update keeps rfl (fun row member selected isLive =>
        .inl ⟨row, member, (rows row member selected).same.activityId.symm,
          (rows row member selected).liveBefore isLive⟩))
    exact moved.of_same store.activities store.repositoryId
  | @claimed _ activity reservation owner leaseFor _ _ reserved own active _ _ store =>
    have keeps : Table.KeepsKeys activityClash
        (Activities.claimed (nextClaim activity owner leaseFor now)) :=
      ⟨fun _ _ => rfl, fun _ _ => rfl⟩
    have moved : Locked now (updated start (byId activity.activityId) _ keeps) :=
      h.same_locks rfl rfl rfl (liveBefore_of_update keeps rfl (fun row _ selected _ =>
        .inr ⟨reservation, reserved, own.trans (eq_of_beq selected).symm, active⟩))
    exact moved.of_same store.activities store.repositoryId
  | reaped _ store =>
    have keeps : Table.KeepsKeys activityClash (Activities.reaped now) :=
      ⟨fun _ _ => rfl, fun _ _ => rfl⟩
    have moved : Locked now (updated start (claimOver now) _ keeps) :=
      h.same_locks rfl rfl rfl (liveBefore_of_update keeps rfl (fun row _ _ isLive => by
        simp [liveAt, Activities.reaped, ActivityStatus.inProgress] at isLive))
    exact moved.of_same store.activities store.repositoryId
  | admitted release _ _ reserved _ repository =>
    obtain ⟨-, same, -, -⟩ := @expiredReleased_same start now
    exact (h.expiredReleased (safe release)).reserved (by rw [same]; rfl) rfl rfl reserved
      (repository.trans same.symm)
  | released release store =>
    rw [store]
    exact h.expiredReleased (safe release)
  | @rejected middle _ activity results result member waiting stored store signalled =>
    have keeps : Table.KeepsKeys activityClash (cancelledBy now) :=
      ⟨fun _ _ => rfl, fun _ _ => rfl⟩
    have moved : Locked now
        (updated (withResults start results) (byId activity.activityId) _ keeps) :=
      h.same_locks rfl rfl rfl (liveBefore_of_update keeps rfl (fun row _ _ isLive => by
        simp [liveAt, cancelledBy, ActivityStatus.inProgress] at isLive))
    exact (moved.of_same store.activities store.repositoryId).of_same
      signalled.activities signalled.repositoryId
  | retried result member inProgress holds again stored store =>
    exact h.claimFreed.of_same store.activities store.repositoryId
  | completed result member inProgress holds last stored store signalled =>
    exact (h.claimFreed.of_same store.activities store.repositoryId).of_same
      signalled.activities signalled.repositoryId

theorem StoreStep.locked {may : Powers} (h : Locked now start)
    (safe : may.release start = true → dropsLive now start = false)
    (step : StoreStep may now start stop)
    : Locked now stop := by
  cases step with
  | activity effect => exact effect.locked h safe
  | created created => exact h.of_same created.activities created.repositoryId
  | decided decided =>
    cases decided with
    | nothing => exact h
    | committed commit =>
      have requested : Requested start.activities stop.activities :=
        commit.installed.activities
      refine h.same_locks requested.reservations requested.locks
        commit.installed.repositoryId (fun next stored isLive => ?_)
      rcases requested.cases stored with old | ⟨pristine, -⟩
      · exact .inl ⟨next, old, rfl, isLive⟩
      · simp [liveAt, pristine.status, ActivityStatus.inProgress] at isLive

end Steps

theorem Opened.locked {state : Timed} (h : Opened state) : Locked state.clock state.db := by
  obtain ⟨repositoryId, same⟩ := h
  rw [same]
  exact ⟨fun _ member => absurd member Table.not_mem_empty,
    fun _ member => absurd member Table.not_mem_empty,
    fun _ member => absurd member Table.not_mem_empty⟩

/-- The call drops no lock of a live claim: if it releases expired reservations, none of
them belongs to a claimed or running activity whose lease is not over.
-/
def keepsLive (db : Database) (call : Call) : Bool :=
  !(call.op.powers.release db && dropsLive call.now db)

/-- While no release drops a lock of a live claim, live claims exclude each other. -/
theorem mutualExclusion_of_keepsLive [PyRepr] [StaticDagAdapter] [FactPayloadAdapter]
    {events : List Event} {state : Timed}
    (run : Run Opened (TimedStep (GuardedStep keepsLive)) events state)
    : MutualExclusion state := by
  refine Locked.exclusion (run.invariant (fun _ opened => opened.locked) ?_)
  intro start event stop locked step
  have safe : event.op.powers.release start.db = true → dropsLive event.now start.db = false := by
    intro release
    simpa [keepsLive, release] using step.step.passes
  rw [step.clock]
  exact StoreStep.locked (locked.later step.forward) safe (storeStep_of_step step.step.step)

section Overlap

open Scenario

def firstClaim : List Call :=
  [call 0 100 (.createWorkflowRun workflow []),
    call 0 200 (.applyTransitionPlan 1 (request [10, 20] 2)),
    call 0 300 (.persistRoute 10 route),
    call 0 400 (.persistRoute 20 route),
    call 0 500
      (.persistAdmission 10 (admission 30 ["worktree"] (seconds 0) (seconds 60))),
    call 0 600 (.claimActivity 10 "first" (seconds 120) 1)]

/-- After that minute the admission of the second activity drops the lock of the first. -/
def secondClaim : List Call :=
  [call 61 700
      (.persistAdmission 20 (admission 40 ["worktree"] (seconds 61) (seconds 121))),
    call 61 800 (.claimActivity 20 "second" (seconds 120) 1)]

/-- Two live claims whose reservations share a key. -/
def overlaps (state : Timed) : Bool :=
  state.db.activities.records.rows.any (fun left =>
    state.db.activities.records.rows.any (fun right =>
      left.activityId != right.activityId && liveAt state.clock left && liveAt state.clock right
        && state.db.activities.reservations.rows.any (fun held =>
          held.activityId == left.activityId
            && state.db.activities.reservations.rows.any (fun wanted =>
              wanted.activityId == right.activityId
                && held.reservationKeys.any wanted.reservationKeys.contains))))

theorem not_mutualExclusion_of_overlaps {state : Timed} (h : overlaps state = true)
    : ¬ MutualExclusion state := by
  simp only [overlaps, List.any_eq_true, Bool.and_eq_true, bne_iff_ne, beq_iff_eq,
    List.contains_iff_mem] at h
  obtain ⟨left, hl, right, hr, ⟨⟨apart, liveLeft⟩, liveRight⟩, held, hh, ownLeft, wanted, hw,
    ownRight, key, inHeld, inWanted⟩ := h
  intro exclusion
  exact exclusion left hl right hr apart liveLeft liveRight held hh ownLeft wanted hw ownRight key
    inHeld inWanted

theorem claims_reached
    : reaches keepsLive firstClaim
        (fun state => state.db.activities.records.rows.any (liveAt state.clock)) = true
      ∧ reaches (fun _ _ => true) (firstClaim ++ secondClaim) overlaps = true :=
  Library.Calls.reaches_append (by decide +kernel)

theorem mutualExclusion_of_firstClaim
    : ∃ state, (∃ activity ∈ state.db.activities.records, liveAt state.clock activity = true)
        ∧ MutualExclusion state := by
  obtain ⟨events, state, run, live⟩ := run_of_reaches claims_reached.1
  exact ⟨state, List.any_eq_true.mp live,
    mutualExclusion_of_keepsLive run⟩

theorem mutualExclusion_broken
    : ∃ events state, Run Opened (TimedStep Step) events state
        ∧ ¬ MutualExclusion state := by
  obtain ⟨events, state, run, broken⟩ := run_of_reaches_any claims_reached.2
  exact ⟨events, state, run, not_mutualExclusion_of_overlaps broken⟩

end Overlap

end Murder.Activities

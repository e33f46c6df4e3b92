import Murder.Activities.Effects

/-! Reaping of expired reservations, and the one kind of store on which it releases them. -/

namespace Murder.Activities

open Murder.Contracts Murder.Storage Library.Tables Library.Transactions

def reservationOver (db : Database) (now : Timestamp) (row : ReservationRow) : Bool :=
  row.repositoryId == .id db.repositoryId && row.releasedAt.isNone && row.expiresAt ≤ now

/-- What a reap that counted `count` has done: the reservations that were over are released at
`now` and hold no lock, every other row stays, and nothing is left for a second reap.
-/
structure Reaps (now : Timestamp) (start stop : Database) (count : Nat) : Prop where
  reservations
    : ∀ row, row ∈ stop.activities.reservations ↔ ∃ old ∈ start.activities.reservations,
        row = if reservationOver start now old then { old with releasedAt := some (.time now) }
          else old
  locks
    : ∀ lock, lock ∈ stop.activities.locks ↔ lock ∈ start.activities.locks
        ∧ ∀ row ∈ start.activities.reservations, reservationOver start now row = true
            → row.activityId ≠ lock.activityId
  count : count = (start.activities.reservations.select (reservationOver start now)).length
  again : ∃ last, Returns (reapExpiredReservations now) stop 0 last

variable {db : Database} {now : Timestamp}

theorem expiredReservations_length
    : (expiredReservations db now).length
      = (db.activities.reservations.select (reservationOver db now)).length := by
  unfold expiredReservations
  rw [List.length_map]
  rfl

/-- A reap always returns, in the store with what is over dropped from the locks. -/
theorem reapExpiredReservations_returns
    : Returns (reapExpiredReservations now) db (expiredReservations db now).length
        (expiredReleased now db) := by
  apply returns_transaction.mpr
  refine returns_bind.mpr ⟨db, db, returns_get.mpr ⟨rfl, rfl⟩, ?_⟩
  unfold expiredReleased
  by_cases none_ : expiredReservations db now = []
  · rw [if_pos none_]
    simp [none_]
  · rw [if_neg none_]
    simp [none_]

theorem expiredReleased_of_none (none_ : expiredReservations db now = [])
    : expiredReleased now db = db :=
  if_pos none_

theorem expiredReservations_eq_nil
    : expiredReservations db now = []
      ↔ ∀ row ∈ db.activities.reservations, reservationOver db now row = false := by
  rw [← List.length_eq_zero_iff, expiredReservations_length, List.length_eq_zero_iff]
  simp only [Table.select, List.filter_eq_nil_iff, Bool.not_eq_true]
  rfl

/-- With nothing over a reap leaves the store as it is. -/
theorem reaps_of_none (none_ : expiredReservations db now = []) : Reaps now db db 0 := by
  have spared := expiredReservations_eq_nil.mp none_
  have again : Returns (reapExpiredReservations now) db 0 db := by
    have returned := @reapExpiredReservations_returns db now
    rwa [expiredReleased_of_none none_, none_] at returned
  refine ⟨fun row => ?_, fun lock => ?_, ?_, db, again⟩
  · constructor
    · intro member
      exact ⟨row, member, by simp [spared row member]⟩
    · intro found
      obtain ⟨old, member, rfl⟩ := found
      simpa [spared old member] using member
  · refine ⟨fun member => ⟨member, fun row stored expired => ?_⟩, And.left⟩
    rw [spared row stored] at expired
    cases expired
  · rw [← expiredReservations_length, none_]
    rfl

/-- The update of a reap writes the repository id where the release time belongs, so a
reservation that is over stays unreleased.
-/
theorem not_released {row : ReservationRow} (member : row ∈ db.activities.reservations)
    (expired : reservationOver db now row = true)
    : { row with releasedAt := some (.time now) }
      ∉ (expiredReleased now db).activities.reservations := by
  intro stored
  have unreleased : row.releasedAt = none := by
    simp only [reservationOver, Bool.and_eq_true] at expired
    simpa using expired.1.2
  have kept : { row with releasedAt := some (.time now) } ∉ db.activities.reservations := by
    intro before
    have same := reservation_eq_of_id before member rfl
    rw [← same] at unreleased
    cases unreleased
  unfold expiredReleased at stored
  split_ifs at stored
  · exact kept stored
  · simp only [released, Table.mem_update] at stored
    obtain ⟨old, before, same⟩ := stored
    split_ifs at same with selected
    · have released := congrArg ReservationRow.releasedAt same
      cases released
    · exact kept (same ▸ before)

/-- Where a reap does what it promises, nothing was over. -/
theorem spared_of_reaps
    (found : ∃ count stop, Returns (reapExpiredReservations now) db count stop
      ∧ Reaps now db stop count)
    : ∀ row ∈ db.activities.reservations, reservationOver db now row = false := by
  intro row member
  obtain ⟨count, stop, returned, reaps⟩ := found
  have computed := @reapExpiredReservations_returns db now
  rw [Returns, returned] at computed
  cases computed
  by_contra expired
  rw [Bool.not_eq_false] at expired
  refine not_released member expired ((reaps.reservations _).mpr ⟨row, member, ?_⟩)
  rw [if_pos expired]

/-- A reap does what it promises exactly when there is nothing to reap. -/
theorem reapExpiredReservations_reaps_iff (db : Database) (now : Timestamp)
    : (∃ count stop, Returns (reapExpiredReservations now) db count stop
        ∧ Reaps now db stop count)
      ↔ ∀ row ∈ db.activities.reservations, reservationOver db now row = false := by
  constructor
  · exact spared_of_reaps
  · intro spared
    have none_ := expiredReservations_eq_nil.mpr spared
    have returned := @reapExpiredReservations_returns db now
    rw [expiredReleased_of_none none_, none_] at returned
    exact ⟨0, db, returned, reaps_of_none none_⟩

namespace Overdue

def reservation : ReservationRow :=
  {
    repositoryId := .id 1
    reservationId := 2
    activityId := 3
    reservationKeys := ["worktree:main"]
    admittedAt := 0
    expiresAt := 10
    releasedAt := none
  }

def store : Database :=
  {
    repositoryId := 1
    activities := {
      reservations := ((Table.empty).insert? reservation).getD .empty
    }
  }

/-- The reap at time 20 leaves that reservation unreleased. -/
theorem reap_unreleased
    : ¬∀ (db : Database) (now : Timestamp), ∃ count stop,
        Returns (reapExpiredReservations now) db count stop ∧ Reaps now db stop count := by
  intro claim
  have expired := spared_of_reaps (claim store 20) reservation List.mem_cons_self
  exact absurd expired (by decide)

end Overdue

end Murder.Activities

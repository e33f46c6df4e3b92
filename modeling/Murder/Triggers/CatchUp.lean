import Murder.Library.Runs
import Murder.Library.Scans
import Murder.Triggers.Cron

/-! Catch-up of a cron trigger: the scan finds the first matching minutes of its window. -/

namespace Murder.Triggers

open Contracts Library.Scans

theorem minuteLength_pos : 0 < minuteLength := by decide

theorem representable_eq {wall : Int} (first : firstReading ≤ wall)
    (last : wall < lastMinute + minuteLength)
    : representable wall = .ok wall := by
  simp [representable, first, last]

def dueReadings (fields : CronFields) (localUntil : Int) (steps : Nat) (cursor : Int)
    : List Int :=
  (ticks minuteLength localUntil steps cursor).filter (fun wall => fields.isDue wall)

section Scan

variable {fields : CronFields} {tz : Zone} {localUntil : Int} (limit : Nat)

/-- The loop appends the instants of the due readings until the limit is reached, by
induction over the steps left.
-/
theorem scanFires_eq {steps : Nat} {cursor : Int} (fires : List Int)
    (first : firstReading ≤ cursor) (last : localUntil < lastMinute)
    (converts
      : ∀ wall ∈ dueReadings fields localUntil steps cursor,
          representable (tz.toInstant wall) = .ok (tz.toInstant wall))
    : scanFires fields tz localUntil limit steps cursor fires
      = .ok (fires ++ ((dueReadings fields localUntil steps cursor).map tz.toInstant).take
          (limit - fires.length)) := by
  induction steps generalizing cursor fires with
  | zero => simp [scanFires, dueReadings, ticks]
  | succ steps ih =>
    rw [scanFires]
    by_cases past : localUntil < cursor
    · simp [past, dueReadings, ticks]
    · by_cases full : limit ≤ fires.length
      · have none_ : limit - fires.length = 0 := by omega
        simp [full, none_]
      · have next : representable (cursor + minuteLength) = .ok (cursor + minuteLength) := by
          have minute := minuteLength_pos
          exact representable_eq (by omega) (by omega)
        have later : firstReading ≤ cursor + minuteLength := by
          have minute := minuteLength_pos
          omega
        have unfolded
            : ticks minuteLength localUntil (steps + 1) cursor
              = cursor :: ticks minuteLength localUntil steps (cursor + minuteLength) := by
          rw [ticks, if_neg past]
        by_cases due : fields.isDue cursor = true
        · have split
              : dueReadings fields localUntil (steps + 1) cursor
                = cursor :: dueReadings fields localUntil steps (cursor + minuteLength) := by
            simp [dueReadings, unfolded, due]
          rw [split] at converts
          have here := converts cursor List.mem_cons_self
          have room : limit - fires.length = (limit - (fires.length + 1)) + 1 := by omega
          have rest := ih (fires ++ [tz.toInstant cursor]) later
            (fun wall member => converts wall (List.mem_cons_of_mem cursor member))
          simp only [past, full, or_self, if_false, due, if_true, here, next]
          show scanFires fields tz localUntil limit steps _ _ = _
          rw [rest, split, room]
          simp
        · have split
              : dueReadings fields localUntil (steps + 1) cursor
                = dueReadings fields localUntil steps (cursor + minuteLength) := by
            simp [dueReadings, unfolded, due]
          rw [split] at converts
          simp only [past, full, or_self, if_false, due, next]
          show scanFires fields tz localUntil limit steps _ _ = _
          rw [ih fires later converts, split]

end Scan

theorem wholeMinute_bounds (wall : Int)
    : WallTime.wholeMinute wall ≤ wall ∧ wall < WallTime.wholeMinute wall + minuteLength := by
  have least : 0 ≤ wall % minuteLength := Int.emod_nonneg wall (by decide)
  have most : wall % minuteLength < minuteLength := Int.emod_lt_of_pos wall minuteLength_pos
  simp only [WallTime.wholeMinute]
  omega

section Window

variable [PyRepr] [DecimalDigits] {zones : String → Option Zone} {expression timezone : String}
  {fields : CronFields} {tz : Zone} {after until_ : Int} {limit : Int}

def windowReadings (fields : CronFields) (tz : Zone) (after until_ : Int) (limit : Int)
    : List Int :=
  dueReadings fields (tz.toWall until_) (maxSteps limit.toNat)
    (WallTime.wholeMinute (tz.toWall after) + minuteLength)

/-- A window whose readings lie before the last minute gives the first due readings. -/
theorem iterCronFires_eq (zone : zones timezone = some tz)
    (accepted : parseCronExpression expression = .ok fields) (window : after < until_)
    (positive : 1 ≤ limit) (first : firstReading ≤ tz.toWall after)
    (start : tz.toWall after < lastMinute) (least : firstReading ≤ tz.toWall until_)
    (last : tz.toWall until_ < lastMinute)
    (converts
      : ∀ wall ∈ windowReadings fields tz after until_ limit,
          representable (tz.toInstant wall) = .ok (tz.toInstant wall))
    : iterCronFires zones expression (.aware after) (.aware until_) timezone limit
      = .ok (((windowReadings fields tz after until_ limit).map tz.toInstant).take
          limit.toNat) := by
  have minute := minuteLength_pos
  have whole := wholeMinute_bounds (tz.toWall after)
  have aligned : firstReading ≤ WallTime.wholeMinute (tz.toWall after) + minuteLength := by
    omega
  have localAfter : representable (tz.toWall after) = .ok (tz.toWall after) :=
    representable_eq first (by omega)
  have localUntil : representable (tz.toWall until_) = .ok (tz.toWall until_) :=
    representable_eq least (by omega)
  have cursor
      : representable (WallTime.wholeMinute (tz.toWall after) + minuteLength)
        = .ok (WallTime.wholeMinute (tz.toWall after) + minuteLength) :=
    representable_eq aligned (by omega)
  have open_ : ¬(until_ ≤ after ∨ limit ≤ 0) := by omega
  have scanned := scanFires_eq limit.toNat [] aligned last converts
  simp only [iterCronFires, open_, if_false, resolveTimezone, zone, accepted]
  show (representable (tz.toWall after) >>= _) = _
  rw [localAfter]
  show (representable (tz.toWall until_) >>= _) = _
  rw [localUntil]
  show (representable (WallTime.wholeMinute (tz.toWall after) + minuteLength) >>= _) = _
  rw [cursor]
  exact scanned

end Window

/-- A whole minute of the window that matches and is within the bound of the scan. -/
structure Due (fields : CronFields) (after until_ limit minute : Int) : Prop where
  whole : minuteLength ∣ minute
  later : after < minute
  within : minute ≤ until_
  matching : fields.isDue minute = true
  near : minute ≤ WallTime.wholeMinute after + maxSteps limit.toNat * minuteLength

/-- Exactly the first entries that are due, in their order. -/
structure FirstDue (due : Int → Prop) (limit : Nat) (fires : List Int) : Prop where
  sound : ∀ fire ∈ fires, due fire
  increasing : fires.Pairwise (· < ·)
  atMost : fires.length ≤ limit
  complete
    : ∀ minute, due minute → minute ∈ fires ∨ fires.length = limit ∧ ∀ fire ∈ fires, fire < minute

@[simp] theorem Zone.utc_toWall (instant : Int) : Zone.utc.toWall instant = instant := by
  simp [Zone.toWall, Zone.utc, offsetBy]

@[simp] theorem Zone.utc_toInstant (wall : Int) : Zone.utc.toInstant wall = wall := by
  simp [Zone.toInstant, Zone.utc, offsetBy]

theorem wholeMinute_dvd (wall : Int) : minuteLength ∣ WallTime.wholeMinute wall :=
  Int.dvd_self_sub_emod

theorem next_minute_le {wall minute : Int} (whole : minuteLength ∣ minute)
    : WallTime.wholeMinute wall + minuteLength ≤ minute ↔ wall < minute := by
  have bounds := wholeMinute_bounds wall
  have apart : minuteLength ∣ minute - WallTime.wholeMinute wall :=
    Int.dvd_sub whole (wholeMinute_dvd wall)
  constructor
  · intro next
    omega
  · intro later
    have far := Int.le_of_dvd (by omega) apart
    omega

/-- The readings the scan finds due, in terms of the window alone. -/
theorem mem_windowReadings {fields : CronFields} {tz : Zone} {after until_ limit wall : Int}
    : wall ∈ windowReadings fields tz after until_ limit
      ↔ minuteLength ∣ wall ∧ tz.toWall after < wall ∧ wall ≤ tz.toWall until_
        ∧ fields.isDue wall = true
        ∧ wall ≤ WallTime.wholeMinute (tz.toWall after) + maxSteps limit.toNat * minuteLength := by
  have aligned : minuteLength ∣ WallTime.wholeMinute (tz.toWall after) + minuteLength :=
    Int.dvd_add (wholeMinute_dvd (tz.toWall after)) (Int.dvd_refl _)
  have grid
      : minuteLength ∣ wall - (WallTime.wholeMinute (tz.toWall after) + minuteLength)
        ↔ minuteLength ∣ wall :=
    ⟨fun apart => by simpa using Int.dvd_add apart aligned, fun whole => Int.dvd_sub whole aligned⟩
  simp only [windowReadings, dueReadings, List.mem_filter, mem_ticks minuteLength_pos, grid]
  have reach (whole : minuteLength ∣ wall)
      : wall < WallTime.wholeMinute (tz.toWall after) + minuteLength
            + maxSteps limit.toNat * minuteLength
        ↔ wall ≤ WallTime.wholeMinute (tz.toWall after)
            + maxSteps limit.toNat * minuteLength := by
    generalize maxSteps limit.toNat = steps
    have bound
        : minuteLength ∣ WallTime.wholeMinute (tz.toWall after) + minuteLength
            + steps * minuteLength - wall :=
      Int.dvd_sub (Int.dvd_add aligned (Int.dvd_mul_left _ _)) whole
    constructor
    · intro early
      have far := Int.le_of_dvd (by omega) bound
      omega
    · intro early
      have positive := minuteLength_pos
      omega
  constructor
  · intro member
    obtain ⟨⟨next, within, early, whole⟩, matching⟩ := member
    exact ⟨whole, (next_minute_le whole).mp next, within, matching, (reach whole).mp early⟩
  · intro due
    obtain ⟨whole, later, within, matching, near⟩ := due
    exact ⟨⟨(next_minute_le whole).mpr later, within, (reach whole).mpr near, whole⟩, matching⟩

theorem mem_windowReadings_utc {fields : CronFields} {after until_ limit minute : Int}
    : minute ∈ windowReadings fields Zone.utc after until_ limit
      ↔ Due fields after until_ limit minute := by
  rw [mem_windowReadings, Zone.utc_toWall, Zone.utc_toWall]
  constructor
  · intro due
    exact ⟨due.1, due.2.1, due.2.2.1, due.2.2.2.1, due.2.2.2.2⟩
  · intro due
    exact ⟨due.whole, due.later, due.within, due.matching, due.near⟩

theorem windowReadings_increasing {fields : CronFields} {tz : Zone} {after until_ limit : Int}
    : (windowReadings fields tz after until_ limit).Pairwise (· < ·) :=
  (ticks_increasing minuteLength_pos).filter _

section Utc

variable [PyRepr] [DecimalDigits] {zones : String → Option Zone} {expression : String}
  {fields : CronFields} {after until_ limit : Int}

theorem iterCronFires_utc (utc : zones "UTC" = some Zone.utc)
    (accepted : parseCronExpression expression = .ok fields) (window : after < until_)
    (positive : 1 ≤ limit) (first : firstReading ≤ after) (last : until_ < lastMinute)
    : iterCronFires zones expression (.aware after) (.aware until_) "UTC" limit
      = .ok ((windowReadings fields Zone.utc after until_ limit).take limit.toNat) := by
  have converts
      : ∀ wall ∈ windowReadings fields Zone.utc after until_ limit,
          representable (Zone.utc.toInstant wall) = .ok (Zone.utc.toInstant wall) := by
    intro wall member
    have due := mem_windowReadings_utc.mp member
    have later := due.later
    have within := due.within
    have minute := minuteLength_pos
    rw [Zone.utc_toInstant]
    exact representable_eq (by omega) (by omega)
  have found := iterCronFires_eq utc accepted window positive (by simpa using first)
    (by rw [Zone.utc_toWall]; omega) (by rw [Zone.utc_toWall]; omega) (by simpa using last) converts
  have same : Zone.utc.toInstant = id := funext Zone.utc_toInstant
  rw [found, same, List.map_id]

theorem iterCronFires_first (utc : zones "UTC" = some Zone.utc)
    (accepted : parseCronExpression expression = .ok fields) (window : after < until_)
    (positive : 1 ≤ limit) (first : firstReading ≤ after) (last : until_ < lastMinute)
    : ∃ fires,
        iterCronFires zones expression (.aware after) (.aware until_) "UTC" limit = .ok fires
        ∧ FirstDue (Due fields after until_ limit) limit.toNat fires := by
  refine ⟨_, iterCronFires_utc utc accepted window positive first last, ?_⟩
  exact {
    sound := fun fire member => mem_windowReadings_utc.mp (List.mem_of_mem_take member)
    increasing := windowReadings_increasing.sublist (List.take_sublist _ _)
    atMost := List.length_take_le _ _
    complete := fun minute due =>
      mem_take_or_before windowReadings_increasing (mem_windowReadings_utc.mpr due) limit.toNat
  }

omit [PyRepr] [DecimalDigits] in
theorem FirstDue.noneSkipped {fires : List Int} {bound : Nat}
    (first : FirstDue (Due fields after until_ limit) bound fires) {minute fire : Int}
    (whole : minuteLength ∣ minute) (later : after < minute) (matching : fields.isDue minute = true)
    (member : fire ∈ fires) (early : minute ≤ fire)
    : minute ∈ fires := by
  have due := first.sound fire member
  have within := due.within
  have near := due.near
  rcases first.complete minute ⟨whole, later, by omega, matching, by omega⟩ with found | missed
  · exact found
  · have before := missed.2 fire member
    omega

/-- Within the bound of the scan, the fires of a window are exactly its first due minutes: no
matching minute before a fire is skipped, and one fires once one is due.
-/
theorem catchUp (utc : zones "UTC" = some Zone.utc)
    (accepted : parseCronExpression expression = .ok fields) (window : after < until_)
    (positive : 1 ≤ limit) (first : firstReading ≤ after) (last : until_ < lastMinute)
    : ∃ fires,
        iterCronFires zones expression (.aware after) (.aware until_) "UTC" limit = .ok fires
        ∧ FirstDue (Due fields after until_ limit) limit.toNat fires
        ∧ (∀ minute fire, minuteLength ∣ minute → after < minute → fields.isDue minute = true
            → fire ∈ fires → minute ≤ fire → minute ∈ fires)
        ∧ ((∃ minute, Due fields after until_ limit minute) → fires ≠ []) := by
  obtain ⟨fires, found, exactly_⟩ :=
    iterCronFires_first utc accepted window positive first last
  refine ⟨fires, found, exactly_, ?_, ?_⟩
  · intro minute fire whole later matching member early
    exact exactly_.noneSkipped whole later matching member early
  · intro some_ none_
    obtain ⟨minute, due⟩ := some_
    rcases exactly_.complete minute due with listed | missed
    · rw [none_] at listed
      cases listed
    · have full := missed.1
      simp only [none_, List.length_nil] at full
      omega

end Utc

namespace Leap

abbrev digits : DecimalDigits where
  value c := if c.isDigit then some (c.toNat - 48) else none

abbrev texts : PyRepr := ⟨fun _ => ""⟩

def zones (name : String) : Option Zone := if name = "UTC" then some Zone.utc else none

/-- `0 0 29 2 *` -/
def leapDay : CronFields := ⟨{0}, {0}, {29}, {2}, intRange 0 7⟩

/-- 2021-01-01 00:00, 2024-02-29 00:00 and 2024-03-01 00:00 -/
def newYear : Int := 18628 * 86400000000
def fire : Int := 19782 * 86400000000
def march : Int := 19783 * 86400000000

theorem read_due
    : @parseCronExpression texts digits "0 0 29 2 *" = .ok leapDay
      ∧ leapDay.isDue fire = true ∧ leapDay.dowStar = true := by
  decide +kernel

theorem accepted : @parseCronExpression texts digits "0 0 29 2 *" = .ok leapDay := read_due.1

theorem catchUp_leap
    : ∃ fires,
        @iterCronFires texts digits zones "0 0 29 2 *" (.aware (fire - 1)) (.aware march) "UTC" 500
          = .ok fires
        ∧ FirstDue (Due leapDay (fire - 1) march 500) 500 fires ∧ fires ≠ [] := by
  obtain ⟨fires, found, first, _, progress⟩ :=
    @catchUp texts digits zones "0 0 29 2 *" leapDay (fire - 1) march 500 rfl accepted
      (by decide) (by decide) (by decide) (by decide)
  refine ⟨fires, found, first, progress ⟨fire, ?_⟩⟩
  exact {
    whole := by decide
    later := by decide
    within := by decide
    matching := read_due.2.1
    near := by decide
  }

theorem dayNumber_mono {early late : Int} (ordered : early ≤ late)
    : WallTime.dayNumber early ≤ WallTime.dayNumber late :=
  Int.ediv_le_ediv (by decide) ordered

theorem noLeapDay
    : ∀ day ∈ intRange 18628 19128,
        (civilDate day).month ≠ 2 ∨ (civilDate day).day ≠ 29 := by
  decide +kernel

/-- The scan of 500 days ends before the leap day it is due on. -/
theorem leapDay_skipped
    : @iterCronFires texts digits zones "0 0 29 2 *" (.aware newYear) (.aware march) "UTC" 500
        = .ok []
      ∧ minuteLength ∣ fire ∧ newYear < fire ∧ fire ≤ march ∧ leapDay.isDue fire = true := by
  refine ⟨?_, by decide, by decide, by decide, read_due.2.1⟩
  rw [@iterCronFires_utc texts digits zones "0 0 29 2 *" leapDay newYear march 500 rfl accepted
    (by decide) (by decide) (by decide) (by decide)]
  have none_ : windowReadings leapDay Zone.utc newYear march 500 = [] := by
    refine List.eq_nil_iff_forall_not_mem.mpr (fun minute member => ?_)
    have due := mem_windowReadings_utc.mp member
    have low := dayNumber_mono due.later.le
    have high := dayNumber_mono due.near
    have matching := due.matching
    simp only [CronFields.isDue, CronFields.dayMatches, Bool.and_eq_true, decide_eq_true_eq]
      at matching
    have february : WallTime.month minute = 2 := by
      simpa [leapDay] using matching.1.2
    have last : WallTime.day minute = 29 := by
      have both := matching.2
      simp [read_due.2.2] at both
      simpa [leapDay] using both.1
    rcases noLeapDay (WallTime.dayNumber minute) (mem_intRange.mpr ⟨low, high⟩) with other | other
    · exact other february
    · exact other last
  rw [none_, List.take_nil]

end Leap

end Murder.Triggers

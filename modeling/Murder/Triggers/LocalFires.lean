import Murder.Triggers.CatchUp

/-! Fires in local time: which readings a zone's clock shows, and when the scan of a window
fires at the right instants.
-/

namespace Murder.Triggers

open Contracts

/-- Transitions whose skipped or repeated readings do not overlap those of the next one. -/
def Apart : Int → List Transition → Prop
  | before, change :: next :: rest =>
    change.instant + max before change.offset ≤ next.instant + min change.offset next.offset
    ∧ Apart change.offset (next :: rest)
  | _, _ => True

def SkippedBy : Int → List Transition → Int → Prop
  | _, [], _ => False
  | before, change :: rest, wall =>
    change.instant + before ≤ wall ∧ wall < change.instant + change.offset
    ∨ SkippedBy change.offset rest wall

/-- The reading at an instant, behind an offset and the transitions after it. -/
def shown (before : Int) (changes : List Transition) (instant : Int) : Int :=
  instant + offsetBy instantPlace before changes instant

/-- The instant of a reading, behind an offset and the transitions after it. -/
def placed (before : Int) (changes : List Transition) (wall : Int) : Int :=
  wall - offsetBy wallPlace before changes wall

section Clock

variable {before instant wall : Int} {change : Transition} {changes : List Transition}

theorem shown_early (early : instant < change.instant)
    : shown before (change :: changes) instant = instant + before := by
  simp [shown, offsetBy, instantPlace, early]

theorem shown_late (late : change.instant ≤ instant)
    : shown before (change :: changes) instant = shown change.offset changes instant := by
  simp [shown, offsetBy, instantPlace, not_lt.mpr late]

theorem placed_early (early : wall < change.instant + max before change.offset)
    : placed before (change :: changes) wall = wall - before := by
  simp [placed, offsetBy, wallPlace, early]

theorem placed_late (late : change.instant + max before change.offset ≤ wall)
    : placed before (change :: changes) wall = placed change.offset changes wall := by
  simp [placed, offsetBy, wallPlace, not_lt.mpr late]

theorem Apart.tail (apart : Apart before (change :: changes)) : Apart change.offset changes := by
  cases changes with
  | nil => trivial
  | cons next rest => exact apart.2

/-- From a transition on, no reading lies before its own first one. -/
theorem shown_ge (apart : Apart before (change :: changes)) (late : change.instant ≤ instant)
    : change.instant + change.offset ≤ shown change.offset changes instant := by
  induction changes generalizing before change with
  | nil =>
    simp only [shown, offsetBy]
    omega
  | cons next rest ih =>
    have apartNext := apart.1
    by_cases early : instant < next.instant
    · rw [shown_early early]
      omega
    · have later := ih apart.2 (not_lt.mp early)
      rw [shown_late (not_lt.mp early)]
      omega

/-- The readings from a transition on are at instants from it on. -/
theorem placed_ge (ordered : (change :: changes).Pairwise
      (fun early late => early.instant < late.instant))
    (late : change.instant + change.offset ≤ wall)
    : change.instant ≤ placed change.offset changes wall := by
  induction changes generalizing change with
  | nil =>
    simp only [placed, offsetBy]
    omega
  | cons next rest ih =>
    have sooner := (List.pairwise_cons.mp ordered).1 next List.mem_cons_self
    by_cases early : wall < next.instant + max change.offset next.offset
    · rw [placed_early early]
      omega
    · have later := ih ordered.of_cons (by omega)
      rw [placed_late (not_lt.mp early)]
      omega

/-- What a later transition skips lies behind the readings of this one. -/
theorem SkippedBy.ge (apart : Apart before (change :: changes))
    (skipped : SkippedBy change.offset changes wall)
    : change.instant + max before change.offset ≤ wall := by
  induction changes generalizing before change with
  | nil => cases skipped
  | cons next rest ih =>
    have apartNext := apart.1
    rcases skipped with here | later
    · omega
    · have behind := ih apart.2 later
      omega

/-- A reading the clock shows is placed at its first instant, by induction over the
transitions: before each of them the offset before it holds.
-/
theorem placed_first (ordered : changes.Pairwise (fun early late => early.instant < late.instant))
    (apart : Apart before changes)
    : shown before changes (placed before changes (shown before changes instant))
        = shown before changes instant
      ∧ placed before changes (shown before changes instant) ≤ instant := by
  induction changes generalizing before with
  | nil => simp [shown, placed, offsetBy]
  | cons change rest ih =>
    by_cases early : instant < change.instant
    · rw [shown_early early, placed_early (by omega)]
      have same : instant + before - before = instant := by omega
      rw [same]
      exact ⟨shown_early early, le_refl instant⟩
    · have least := shown_ge apart (not_lt.mp early)
      rw [shown_late (not_lt.mp early)]
      generalize reading : shown change.offset rest instant = wall at least
      by_cases again : wall < change.instant + max before change.offset
      · -- The reading comes twice: before the transition and again behind it.
        have direct : wall = instant + change.offset := by
          cases rest with
          | nil => exact reading.symm
          | cons next later =>
            have apartNext := apart.1
            by_cases soon : instant < next.instant
            · rw [← reading, shown_early soon]
            · have further := shown_ge apart.2 (not_lt.mp soon)
              rw [shown_late (not_lt.mp soon)] at reading
              omega
        rw [placed_early again, shown_early (by omega)]
        omega
      · have rest_ := ih ordered.of_cons apart.tail
        rw [reading] at rest_
        rw [placed_late (not_lt.mp again), shown_late (placed_ge ordered least)]
        exact rest_

theorem shown_placed (ordered : changes.Pairwise (fun early late => early.instant < late.instant))
    (real : ¬SkippedBy before changes wall)
    : shown before changes (placed before changes wall) = wall := by
  induction changes generalizing before with
  | nil => simp [shown, placed, offsetBy]
  | cons change rest ih =>
    have kept : ¬SkippedBy change.offset rest wall := fun skipped => real (Or.inr skipped)
    have outside : ¬(change.instant + before ≤ wall ∧ wall < change.instant + change.offset) :=
      fun here => real (Or.inl here)
    by_cases early : wall < change.instant + max before change.offset
    · rw [placed_early early, shown_early (by omega)]
      omega
    · rw [placed_late (not_lt.mp early), shown_late (placed_ge ordered (by omega))]
      exact ih ordered.of_cons kept

/-- The clock shows no reading a transition skips. -/
theorem shown_not_skipped (apart : Apart before changes)
    : ¬SkippedBy before changes (shown before changes instant) := by
  induction changes generalizing before with
  | nil => exact id
  | cons change rest ih =>
    intro skipped
    by_cases early : instant < change.instant
    · rw [shown_early early] at skipped
      rcases skipped with here | later
      · omega
      · have behind := later.ge apart
        omega
    · have least := shown_ge apart (not_lt.mp early)
      rw [shown_late (not_lt.mp early)] at skipped
      rcases skipped with here | later
      · omega
      · exact ih apart.tail later

/-- Later readings are placed later, from a reading that is shown. -/
theorem placed_lt (ordered : changes.Pairwise (fun early late => early.instant < late.instant))
    (real : ¬SkippedBy before changes wall) {later : Int} (increasing : wall < later)
    : placed before changes wall < placed before changes later := by
  induction changes generalizing before with
  | nil =>
    simp only [placed, offsetBy]
    omega
  | cons change rest ih =>
    have kept : ¬SkippedBy change.offset rest wall := fun skipped => real (Or.inr skipped)
    have outside : ¬(change.instant + before ≤ wall ∧ wall < change.instant + change.offset) :=
      fun here => real (Or.inl here)
    by_cases early : wall < change.instant + max before change.offset
    · rw [placed_early early]
      by_cases soon : later < change.instant + max before change.offset
      · rw [placed_early soon]
        omega
      · have behind : change.instant ≤ placed change.offset rest later :=
          placed_ge ordered (by omega)
        rw [placed_late (not_lt.mp soon)]
        omega
    · rw [placed_late (not_lt.mp early), placed_late (by omega)]
      exact ih ordered.of_cons kept

theorem offsetBy_mem (place : Int → Transition → Int) (before : Int)
    (changes : List Transition) (time : Int)
    : offsetBy place before changes time ∈ before :: changes.map Transition.offset := by
  induction changes generalizing before with
  | nil => simp [offsetBy]
  | cons change rest ih =>
    rw [offsetBy]
    split
    · exact List.mem_cons_self
    · exact List.mem_cons_of_mem _ (by simpa using ih change.offset)

end Clock

/-- The transitions of a zone do not overlap on the wall clock. -/
def Zone.Apart (tz : Zone) : Prop := Triggers.Apart tz.initial tz.transitions

def Zone.Skips (tz : Zone) (wall : Int) : Prop := SkippedBy tz.initial tz.transitions wall

/-- What a window of local time asks of its fires. -/
structure LocalFires (fields : CronFields) (tz : Zone) (after until_ limit : Int)
    (fires : List Int) : Prop where
  within : ∀ fire ∈ fires, after < fire ∧ fire ≤ until_
  increasing : fires.Pairwise (· < ·)
  real
    : ∀ wall ∈ windowReadings fields tz after until_ limit,
        ∃ instant, tz.toWall instant = wall
  complete
    : ∀ instant,
        after < instant
        → instant ≤ until_
        → minuteLength ∣ tz.toWall instant
        → fields.isDue (tz.toWall instant) = true
        → ∃ fire ∈ fires, tz.toWall fire = tz.toWall instant

/-- The readings from the minute behind `after` to that of `until_` are those of the window. -/
structure Straight (fields : CronFields) (tz : Zone) (after until_ limit : Int) : Prop where
  /-- No matching reading of the range is skipped. -/
  notSkipped : ∀ wall ∈ windowReadings fields tz after until_ limit, ¬tz.Skips wall
  /-- No matching reading of the range was shown by `after`. -/
  notShown
    : ∀ wall ∈ windowReadings fields tz after until_ limit,
        ∀ instant ≤ after, tz.toWall instant ≠ wall
  /-- Every matching minute shown in the window has its reading in the range. -/
  inRange
    : ∀ instant,
        after < instant
        → instant ≤ until_
        → minuteLength ∣ tz.toWall instant
        → fields.isDue (tz.toWall instant) = true
        → tz.toWall after < tz.toWall instant ∧ tz.toWall instant ≤ tz.toWall until_
          ∧ tz.toWall instant
            ≤ WallTime.wholeMinute (tz.toWall after) + maxSteps limit.toNat * minuteLength

namespace Zone

variable {tz : Zone} {wall instant : Int}

theorem toInstant_first (apart : tz.Apart) (instant : Int)
    : tz.toWall (tz.toInstant (tz.toWall instant)) = tz.toWall instant
      ∧ tz.toInstant (tz.toWall instant) ≤ instant :=
  placed_first tz.ordered apart

theorem toWall_toInstant (real : ¬tz.Skips wall) : tz.toWall (tz.toInstant wall) = wall :=
  shown_placed tz.ordered real

theorem not_skips_toWall (apart : tz.Apart) : ¬tz.Skips (tz.toWall instant) :=
  shown_not_skipped apart

theorem toInstant_lt (real : ¬tz.Skips wall) {later : Int} (increasing : wall < later)
    : tz.toInstant wall < tz.toInstant later :=
  placed_lt tz.ordered real increasing

/-- A zone is less than a day away from UTC. -/
theorem toWall_bounds (tz : Zone) (instant : Int)
    : instant - dayLength < tz.toWall instant ∧ tz.toWall instant < instant + dayLength := by
  have offset := tz.bounded _
    (offsetBy_mem instantPlace tz.initial tz.transitions instant)
  simp only [toWall]
  omega

theorem toInstant_bounds (tz : Zone) (wall : Int)
    : wall - dayLength < tz.toInstant wall ∧ tz.toInstant wall < wall + dayLength := by
  have offset := tz.bounded _
    (offsetBy_mem wallPlace tz.initial tz.transitions wall)
  simp only [toInstant]
  omega

end Zone

section Local

variable {fields : CronFields} {tz : Zone} {after until_ limit : Int}

theorem Straight.localFires (apart : tz.Apart) (straight : Straight fields tz after until_ limit)
    : LocalFires fields tz after until_ limit
        ((windowReadings fields tz after until_ limit).map tz.toInstant) := by
  have shown {wall : Int} (member : wall ∈ windowReadings fields tz after until_ limit)
      : tz.toWall (tz.toInstant wall) = wall :=
    Zone.toWall_toInstant (straight.notSkipped wall member)
  constructor
  · intro fire member
    obtain ⟨wall, listed, rfl⟩ := List.mem_map.mp member
    have range := mem_windowReadings.mp listed
    have last := (Zone.toInstant_first apart until_).2
    refine ⟨?_, ?_⟩
    · by_contra early
      exact straight.notShown wall listed _ (not_lt.mp early) (shown listed)
    · rcases range.2.2.1.lt_or_eq with before | same
      · exact ((Zone.toInstant_lt (straight.notSkipped wall listed) before).trans_le last).le
      · rw [same]
        exact last
  · refine List.pairwise_map.mpr (windowReadings_increasing.imp_of_mem ?_)
    intro early late member _ increasing
    exact Zone.toInstant_lt (straight.notSkipped early member) increasing
  · intro wall member
    exact ⟨tz.toInstant wall, shown member⟩
  · intro instant later within whole matching
    obtain ⟨behind, reached, near⟩ := straight.inRange instant later within whole matching
    refine ⟨tz.toInstant (tz.toWall instant), List.mem_map.mpr ⟨_, ?_, rfl⟩, ?_⟩
    · exact mem_windowReadings.mpr ⟨whole, behind, reached, matching, near⟩
    · exact (Zone.toInstant_first apart instant).1

theorem LocalFires.straight (apart : tz.Apart)
    (holds
      : LocalFires fields tz after until_ limit
          ((windowReadings fields tz after until_ limit).map tz.toInstant))
    : Straight fields tz after until_ limit := by
  have notSkipped (wall : Int) (member : wall ∈ windowReadings fields tz after until_ limit)
      : ¬tz.Skips wall := by
    obtain ⟨instant, rfl⟩ := holds.real wall member
    exact Zone.not_skips_toWall apart
  constructor
  · exact notSkipped
  · intro wall member instant early same
    have first := (Zone.toInstant_first apart instant).2
    have fired := (holds.within _ (List.mem_map_of_mem member)).1
    rw [same] at first
    omega
  · intro instant later within whole matching
    obtain ⟨fire, member, same⟩ := holds.complete instant later within whole matching
    obtain ⟨wall, listed, rfl⟩ := List.mem_map.mp member
    rw [Zone.toWall_toInstant (notSkipped wall listed)] at same
    subst same
    obtain ⟨_, behind, reached, _, near⟩ := mem_windowReadings.mp listed
    exact ⟨behind, reached, near⟩

/-- The fires of a window with fewer than the limit of matching readings are those of local
time if and only if the window is straight.
-/
theorem localFires_iff [PyRepr] [DecimalDigits] {zones : String → Option Zone}
    {expression timezone : String} (zone : zones timezone = some tz)
    (accepted : parseCronExpression expression = .ok fields) (window : after < until_)
    (positive : 1 ≤ limit) (apart : tz.Apart) (first : firstReading + 2 * dayLength ≤ after)
    (last : until_ + 2 * dayLength < lastMinute)
    (room : ((windowReadings fields tz after until_ limit).length : Int) < limit)
    : ∃ fires,
        iterCronFires zones expression (.aware after) (.aware until_) timezone limit = .ok fires
        ∧ fires = (windowReadings fields tz after until_ limit).map tz.toInstant
        ∧ (LocalFires fields tz after until_ limit fires
          ↔ Straight fields tz after until_ limit) := by
  have start := tz.toWall_bounds after
  have stop := tz.toWall_bounds until_
  have positiveDay : 0 < dayLength := by decide
  have positiveMinute := minuteLength_pos
  have converts
      : ∀ wall ∈ windowReadings fields tz after until_ limit,
          representable (tz.toInstant wall) = .ok (tz.toInstant wall) := by
    intro wall member
    obtain ⟨_, behind, reached, _⟩ := mem_windowReadings.mp member
    have placed := tz.toInstant_bounds wall
    exact representable_eq (by omega) (by omega)
  have found := iterCronFires_eq zone accepted window positive (by omega) (by omega) (by omega)
    (by omega) converts
  have all
      : ((windowReadings fields tz after until_ limit).map tz.toInstant).take limit.toNat
        = (windowReadings fields tz after until_ limit).map tz.toInstant := by
    refine List.take_of_length_le ?_
    rw [List.length_map]
    omega
  rw [all] at found
  exact ⟨_, found, rfl, fun holds => holds.straight apart,
    fun straight => straight.localFires apart⟩

end Local

namespace Berlin

-- 2024-03-31 01:00 and 2024-10-27 01:00 UTC
def spring : Int := 1711846800000000
def autumn : Int := 1729990800000000
def hour : Int := 60 * minuteLength

theorem ordered
    : [Transition.mk spring (2 * hour), Transition.mk autumn hour].Pairwise
        (fun early late => early.instant < late.instant) := by
  decide

theorem bounded
    : ∀ offset ∈ hour :: [Transition.mk spring (2 * hour), Transition.mk autumn hour].map
        Transition.offset, -dayLength < offset ∧ offset < dayLength := by
  decide

def berlin : Zone := ⟨hour, [⟨spring, 2 * hour⟩, ⟨autumn, hour⟩], ordered, bounded⟩

def zones (name : String) : Option Zone :=
  if name = "Europe/Berlin" then some berlin else if name = "UTC" then some Zone.utc else none

/-- `30 2 * * *` -/
def halfPastTwo : CronFields := ⟨{30}, {2}, intRange 1 31, intRange 1 12, intRange 0 7⟩

theorem accepted
    : @parseCronExpression Leap.texts Leap.digits "30 2 * * *" = .ok halfPastTwo := by
  decide +kernel

theorem apart : berlin.Apart := by
  refine ⟨?_, trivial⟩
  decide

theorem localFires_berlin
    : ∃ fires,
        @iterCronFires Leap.texts Leap.digits zones "30 2 * * *" (.aware spring)
          (.aware (spring + 30 * hour)) "Europe/Berlin" 500 = .ok fires
        ∧ fires = (windowReadings halfPastTwo berlin spring (spring + 30 * hour) 500).map
            berlin.toInstant
        ∧ (LocalFires halfPastTwo berlin spring (spring + 30 * hour) 500 fires
          ↔ Straight halfPastTwo berlin spring (spring + 30 * hour) 500) :=
  @localFires_iff halfPastTwo berlin spring (spring + 30 * hour) 500 Leap.texts Leap.digits zones
    "30 2 * * *" "Europe/Berlin" rfl accepted (by decide) (by decide) apart (by decide) (by decide)
    (by decide +kernel)

/-- In autumn a window that starts in the second pass of the hour fires before it starts; in
spring the clock shows 03:30 at the fire for 02:30.
-/
theorem strayFires
    : @iterCronFires Leap.texts Leap.digits zones "30 2 * * *" (.aware (autumn + hour / 4))
          (.aware (autumn + hour)) "Europe/Berlin" 500 = .ok [autumn - hour / 2]
      ∧ autumn - hour / 2 < autumn + hour / 4
      ∧ @iterCronFires Leap.texts Leap.digits zones "30 2 * * *" (.aware (spring - hour))
          (.aware (spring + hour)) "Europe/Berlin" 500 = .ok [spring + hour / 2]
      ∧ halfPastTwo.isDue (berlin.toWall (spring + hour / 2)) = false := by
  decide +kernel

end Berlin

end Murder.Triggers

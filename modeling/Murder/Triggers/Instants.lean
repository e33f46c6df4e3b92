import Mathlib.Tactic.IntervalCases
import Murder.Library.Numerals
import Murder.Triggers.Cron

/-! Instants of UTC as the ISO texts that cursors keep. -/

namespace Murder.Triggers

open Library.Numerals

/-- An instant that a `datetime` has. -/
def IsDatetime (instant : Int) : Prop :=
  firstReading ≤ instant ∧ instant < lastMinute + minuteLength

namespace WallTime

def second (wall : Int) : Int := wall / 1000000 % 60

def microsecond (wall : Int) : Int := wall % 1000000

end WallTime

def dayOfDate (date : Date) : Int :=
  let year := if date.month ≤ 2 then date.year - 1 else date.year
  let marchMonth := if date.month ≤ 2 then date.month + 9 else date.month - 3
  let yearOfEra := year % 400
  let dayOfYear := (153 * marchMonth + 2) / 5 + date.day - 1
  year / 400 * 146097 + (yearOfEra * 365 + yearOfEra / 4 - yearOfEra / 100 + dayOfYear) - 719468

/-- The date and the time of day of an instant of UTC, behind them a text; whole seconds are
written without a fraction.
-/
def stampText (instant : Int) (rest : List Char) : List Char :=
  let date := civilDate (WallTime.dayNumber instant)
  let fraction :=
    if WallTime.microsecond instant = 0 then []
    else '.' :: numeral 10 6 (WallTime.microsecond instant).toNat
  numeral 10 4 date.year.toNat ++ '-' :: (numeral 10 2 date.month.toNat
    ++ '-' :: (numeral 10 2 date.day.toNat ++ 'T' :: (numeral 10 2 (WallTime.hour instant).toNat
    ++ ':' :: (numeral 10 2 (WallTime.minute instant).toNat
    ++ ':' :: (numeral 10 2 (WallTime.second instant).toNat ++ (fraction ++ rest))))))

/-- `value.isoformat()` of an instant of UTC. -/
def isoText (instant : Int) : List Char := stampText instant "+00:00".toList

/-- Drop the character a text has to go on with. -/
def expect (wanted : Char) : List Char → Option (List Char)
  | [] => none
  | c :: rest => if c = wanted then some rest else none

def readFraction : List Char → Option (Nat × List Char)
  | '.' :: rest => readNumeral 10 6 0 rest
  | rest => some (0, rest)

/-- The instant of a date and a time of day, if the calendar and the clock have them. -/
def assembled (date : Date) (hour minute second microsecond : Nat) : Option Int :=
  if civilDate (dayOfDate date) = date ∧ hour < 24 ∧ minute < 60 ∧ second < 60 then
    some (dayOfDate date * dayLength + (hour * 60 + minute) * minuteLength
      + second * 1000000 + microsecond)
  else none

/-- The instant a text begins with, and the rest of the text. -/
def readStamp (text : List Char) : Option (Int × List Char) := do
  let (year, text) ← readNumeral 10 4 0 text
  let text ← expect '-' text
  let (month, text) ← readNumeral 10 2 0 text
  let text ← expect '-' text
  let (day, text) ← readNumeral 10 2 0 text
  let text ← expect 'T' text
  let (hour, text) ← readNumeral 10 2 0 text
  let text ← expect ':' text
  let (minute, text) ← readNumeral 10 2 0 text
  let text ← expect ':' text
  let (second, text) ← readNumeral 10 2 0 text
  let (microsecond, text) ← readFraction text
  let instant ← assembled ⟨year, month, day⟩ hour minute second microsecond
  some (instant, text)

/-- `_parse_aware` of the texts `isoformat` writes for UTC. -/
def parseAware (text : List Char) : Option Int := do
  let (instant, rest) ← readStamp text
  if rest = "+00:00".toList then some instant else none

example : isoText 1709210096000000 = "2024-02-29T12:34:56+00:00".toList := by decide

/-- The years of an era from its days: there are 400, each of at most 366 days. The century
and the place in a four-year cycle are told apart.
-/
theorem yearOfEra_bounds {dayOfEra yearOfEra : Int} (lower : 0 ≤ dayOfEra)
    (upper : dayOfEra < 146097)
    (count : yearOfEra = (dayOfEra - dayOfEra / 1460 + dayOfEra / 36524 - dayOfEra / 146096) / 365)
    : 0 ≤ yearOfEra ∧ yearOfEra < 400
      ∧ 0 ≤ dayOfEra - (365 * yearOfEra + yearOfEra / 4 - yearOfEra / 100)
      ∧ dayOfEra - (365 * yearOfEra + yearOfEra / 4 - yearOfEra / 100) < 366 := by
  obtain ⟨cycle, hcycle⟩ : ∃ cycle, cycle = dayOfEra / 1460 := ⟨_, rfl⟩
  obtain ⟨century, hcentury⟩ : ∃ century, century = dayOfEra / 36524 := ⟨_, rfl⟩
  obtain ⟨place, hplace⟩ : ∃ place,
      place = (dayOfEra - 1460 * cycle - cycle + century - dayOfEra / 146096) / 365 := ⟨_, rfl⟩
  have split : yearOfEra = 4 * cycle + place := by omega
  have centuryLow : 0 ≤ century := by omega
  have centuryHigh : century ≤ 4 := by omega
  have placeLow : -1 ≤ place := by omega
  have placeHigh : place ≤ 4 := by omega
  refine ⟨by omega, by omega, ?_, ?_⟩
  · interval_cases place <;> omega
  · interval_cases century <;> interval_cases place <;> omega

/-- Where a day lies in its era, and its date by that. -/
theorem civilDate_parts (days : Int)
    : ∃ era yearOfEra dayOfYear marchMonth : Int,
        days + 719468
            = era * 146097 + (365 * yearOfEra + yearOfEra / 4 - yearOfEra / 100 + dayOfYear)
        ∧ 0 ≤ yearOfEra ∧ yearOfEra < 400 ∧ 0 ≤ dayOfYear ∧ dayOfYear < 366
        ∧ marchMonth = (5 * dayOfYear + 2) / 153
        ∧ civilDate days = {
            year := yearOfEra + era * 400
              + (if (if marchMonth < 10 then marchMonth + 3 else marchMonth - 9) ≤ 2 then 1 else 0)
            month := if marchMonth < 10 then marchMonth + 3 else marchMonth - 9
            day := dayOfYear - (153 * marchMonth + 2) / 5 + 1
          } := by
  obtain ⟨low, high, first, last⟩ := yearOfEra_bounds
    (Int.emod_nonneg (days + 719468) (by decide)) (Int.emod_lt_of_pos (days + 719468) (by decide))
    rfl
  exact ⟨(days + 719468) / 146097, _, _, _, by omega, low, high, first, last, rfl, rfl⟩

theorem dayOfDate_civilDate (days : Int) : dayOfDate (civilDate days) = days := by
  obtain ⟨era, yearOfEra, dayOfYear, marchMonth, parts, _, _, _, _, month, date⟩ :=
    civilDate_parts days
  rw [date]
  unfold dayOfDate
  dsimp only
  split_ifs <;> omega

/-- The parts of a date are as wide as their numerals. -/
theorem civilDate_bounds {instant : Int} (dated : IsDatetime instant)
    : 0 ≤ (civilDate (WallTime.dayNumber instant)).year
      ∧ (civilDate (WallTime.dayNumber instant)).year < 10 ^ 4
      ∧ 0 ≤ (civilDate (WallTime.dayNumber instant)).month
      ∧ (civilDate (WallTime.dayNumber instant)).month < 10 ^ 2
      ∧ 0 ≤ (civilDate (WallTime.dayNumber instant)).day
      ∧ (civilDate (WallTime.dayNumber instant)).day < 10 ^ 2 := by
  obtain ⟨first, last⟩ := dated
  simp only [firstReading, lastMinute, minuteLength] at first last
  have early : -719162 ≤ WallTime.dayNumber instant := by
    simp only [WallTime.dayNumber, minuteLength]
    omega
  have late : WallTime.dayNumber instant ≤ 2932896 := by
    simp only [WallTime.dayNumber, minuteLength]
    omega
  obtain ⟨era, yearOfEra, dayOfYear, marchMonth, parts, _, _, _, _, month, date⟩ :=
    civilDate_parts (WallTime.dayNumber instant)
  rw [date]
  dsimp only
  refine ⟨?_, ?_, ?_, ?_, by omega, by omega⟩ <;> split_ifs <;> omega

theorem readNumeral_decimal (width : Nat) {value : Int} (positive : 0 ≤ value)
    (fits : value < 10 ^ width) (rest : List Char)
    : readNumeral 10 width 0 (numeral 10 width value.toNat ++ rest)
      = some (value.toNat, rest) := by
  have small : value.toNat < 10 ^ width := (Int.toNat_lt positive).mpr (by exact_mod_cast fits)
  rw [readNumeral_numeral (by decide) small, Nat.zero_mul, Nat.zero_add]

theorem readStamp_stampText {instant : Int} (dated : IsDatetime instant) {rest : List Char}
    (ends : readFraction rest = some (0, rest))
    : readStamp (stampText instant rest) = some (instant, rest) := by
  obtain ⟨y0, y1, m0, m1, d0, d1⟩ := civilDate_bounds dated
  have hour : 0 ≤ WallTime.hour instant ∧ WallTime.hour instant < 24 := by
    simp only [WallTime.hour, minuteLength]
    omega
  have minute : 0 ≤ WallTime.minute instant ∧ WallTime.minute instant < 60 := by
    simp only [WallTime.minute, minuteLength]
    omega
  have second : 0 ≤ WallTime.second instant ∧ WallTime.second instant < 60 := by
    simp only [WallTime.second]
    omega
  have micro : 0 ≤ WallTime.microsecond instant ∧ WallTime.microsecond instant < 10 ^ 6 := by
    simp only [WallTime.microsecond]
    omega
  have fraction : readFraction
      ((if WallTime.microsecond instant = 0 then []
        else '.' :: numeral 10 6 (WallTime.microsecond instant).toNat) ++ rest)
      = some ((WallTime.microsecond instant).toNat, rest) := by
    split
    · next whole =>
        rw [whole]
        exact ends
    · exact readNumeral_decimal 6 micro.1 micro.2 _
  have date : (⟨((civilDate (WallTime.dayNumber instant)).year.toNat : Int),
      (civilDate (WallTime.dayNumber instant)).month.toNat,
      (civilDate (WallTime.dayNumber instant)).day.toNat⟩ : Date)
      = civilDate (WallTime.dayNumber instant) := by
    rw [Int.toNat_of_nonneg y0, Int.toNat_of_nonneg m0, Int.toNat_of_nonneg d0]
  unfold readStamp stampText
  simp only [readNumeral_decimal 4 y0 y1, readNumeral_decimal 2 m0 m1, readNumeral_decimal 2 d0 d1,
    readNumeral_decimal 2 hour.1 (show WallTime.hour instant < 10 ^ 2 by omega),
    readNumeral_decimal 2 minute.1 (show WallTime.minute instant < 10 ^ 2 by omega),
    readNumeral_decimal 2 second.1 (show WallTime.second instant < 10 ^ 2 by omega),
    expect, if_true, Option.bind_eq_bind, Option.bind_some, fraction, date]
  unfold assembled
  rw [if_pos ⟨by rw [dayOfDate_civilDate], by omega, by omega, by omega⟩, dayOfDate_civilDate,
    Option.bind_some]
  refine congrArg (fun read => some (read, rest)) ?_
  simp only [WallTime.dayNumber, WallTime.hour, WallTime.minute, WallTime.second,
    WallTime.microsecond, dayLength, minuteLength] at *
  omega

theorem parseAware_isoText {instant : Int} (dated : IsDatetime instant)
    : parseAware (isoText instant) = some instant := by
  unfold parseAware isoText
  rw [readStamp_stampText dated rfl]
  rfl

end Murder.Triggers

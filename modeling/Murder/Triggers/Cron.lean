import Mathlib.Data.Int.Interval
import Murder.Contracts.Text

/-! The five-field cron evaluator: expressions, local time in a zone and the scan for fires.
Instants and readings of the wall clock are microseconds, from 1970-01-01 00:00 of UTC and of
the wall clock.
-/

namespace Murder.Triggers

open Contracts

/-- What the evaluator raises. -/
inductive CronError
  | valueError (message : String)
  | overflowError
deriving DecidableEq

structure Date where
  year : Int
  month : Int
  day : Int
deriving DecidableEq

/-- The Gregorian date of a day counted from 1970-01-01, through the years of its
400-year era, which begin in March.
-/
def civilDate (days : Int) : Date :=
  let shifted := days + 719468
  let dayOfEra := shifted % 146097
  let yearOfEra := (dayOfEra - dayOfEra / 1460 + dayOfEra / 36524 - dayOfEra / 146096) / 365
  let dayOfYear := dayOfEra - (365 * yearOfEra + yearOfEra / 4 - yearOfEra / 100)
  let marchMonth := (5 * dayOfYear + 2) / 153
  let month := if marchMonth < 10 then marchMonth + 3 else marchMonth - 9
  {
    year := yearOfEra + shifted / 146097 * 400 + (if month ≤ 2 then 1 else 0)
    month := month
    day := dayOfYear - (153 * marchMonth + 2) / 5 + 1
  }

example : [-1, 0, 19782, 19783].map civilDate
    = [⟨1969, 12, 31⟩, ⟨1970, 1, 1⟩, ⟨2024, 2, 29⟩, ⟨2024, 3, 1⟩] := by decide

def minuteLength : Int := 60000000

namespace WallTime

def minute (wall : Int) : Int := wall / minuteLength % 60

def hour (wall : Int) : Int := wall / (60 * minuteLength) % 24

def dayNumber (wall : Int) : Int := wall / (1440 * minuteLength)

def month (wall : Int) : Int := (civilDate (dayNumber wall)).month

def day (wall : Int) : Int := (civilDate (dayNumber wall)).day

/-- `datetime.weekday`: Monday is zero, and 1970-01-01 was a Thursday. -/
def weekday (wall : Int) : Int := (dayNumber wall + 3) % 7

/-- `replace(second=0, microsecond=0)` -/
def wholeMinute (wall : Int) : Int := wall - wall % minuteLength

end WallTime

/-- The first reading a `datetime` has, of the first day of the year 1. -/
def firstReading : Int := -62135596800000000

/-- The last minute of the year 9999, behind which no `datetime` goes. -/
def lastMinute : Int := 253402300740000000

/-- A reading as a `datetime`. -/
def representable (wall : Int) : Except CronError Int :=
  if firstReading ≤ wall ∧ wall < lastMinute + minuteLength then .ok wall
  else .error .overflowError

/-- From an instant on, the wall clock is an offset ahead of UTC. -/
structure Transition where
  instant : Int
  offset : Int
deriving DecidableEq

def dayLength : Int := 1440 * minuteLength

/-- The offset before all transitions, and the transitions in their order; an offset is less
than a day either way.
-/
structure Zone where
  initial : Int
  transitions : List Transition
  ordered : transitions.Pairwise (fun early late => early.instant < late.instant)
  bounded
    : ∀ offset ∈ initial :: transitions.map Transition.offset,
        -dayLength < offset ∧ offset < dayLength

theorem utc_bounded
    : ∀ offset ∈ (0 : Int) :: ([] : List Transition).map Transition.offset,
        -dayLength < offset ∧ offset < dayLength := by
  decide

def Zone.utc : Zone := ⟨0, [], .nil, utc_bounded⟩

def offsetBy (place : Int → Transition → Int) : Int → List Transition → Int → Int
  | before, [], _ => before
  | before, change :: rest, time =>
    if time < place before change then before else offsetBy place change.offset rest time

def instantPlace (_ : Int) (change : Transition) : Int := change.instant

/-- Where a transition stands among the readings of `fold=0`: the hour that is skipped and the
first pass of the hour that comes twice still have the offset before it.
-/
def wallPlace (before : Int) (change : Transition) : Int :=
  change.instant + max before change.offset

/-- `instant.astimezone(tz)` -/
def Zone.toWall (tz : Zone) (instant : Int) : Int :=
  instant + offsetBy instantPlace tz.initial tz.transitions instant

/-- `wall.astimezone(ZoneInfo("UTC"))` of a reading with `fold=0`. -/
def Zone.toInstant (tz : Zone) (wall : Int) : Int :=
  wall - offsetBy wallPlace tz.initial tz.transitions wall

section Parsing

variable [PyRepr] [DecimalDigits]

def reprText (text : List Char) : String := PyRepr.repr (.str (String.ofList text))

/-- The digit `int` reads a character as: of the ASCII characters `0` to `9` alone. -/
def intDigit (c : Char) : Option Nat :=
  if c.toNat < 128 then if c.isDigit then some (c.toNat - 48) else none
  else DecimalDigits.value c

/-- The blanks `int` skips at both ends of its text. -/
def intBlank (c : Char) : Bool :=
  if c.toNat < 128 then c == ' ' || (0x09 ≤ c.toNat && c.toNat ≤ 0x0D) else isSpace c

def trimBlanks (text : List Char) : List Char :=
  ((text.dropWhile intBlank).reverse.dropWhile intBlank).reverse

/-- The digits `int(text, 10)` reads, with single underscores between them. -/
def readDigits : List Char → Option (List Nat)
  | [] => none
  | [last] => (intDigit last).map (fun digit => [digit])
  | first :: '_' :: rest => do
      let digit ← intDigit first
      let digits ← readDigits rest
      some (digit :: digits)
  | first :: rest => do
      let digit ← intDigit first
      let digits ← readDigits rest
      some (digit :: digits)

def signed : List Char → Int × List Char
  | '-' :: rest => (-1, rest)
  | '+' :: rest => (1, rest)
  | text => (1, text)

/-- `int(text, 10)`; it refuses more than 4300 digits. -/
def readInt (text : List Char) : Option Int :=
  let (sign, unsigned) := signed (trimBlanks text)
  match readDigits unsigned with
  | some digits =>
    if 4300 < digits.length then none
    else some (sign * digits.foldl (fun total digit => total * 10 + (digit : Int)) 0)
  | none => none

/-- `_int` -/
def cronInt (text field : List Char) : Except CronError Int :=
  match readInt text with
  | some number => .ok number
  | none =>
    .error (.valueError ("invalid cron integer " ++ reprText text ++ " in " ++ reprText field))

/-- `text.split(separator, 1)` at a separator it holds. -/
def splitOnce (separator : Char) (text : List Char) : List Char × List Char :=
  (text.takeWhile (· ≠ separator), (text.dropWhile (· ≠ separator)).drop 1)

/-- `_range` -/
def cronRange (text : List Char) (minimum maximum : Int) (field : List Char)
    : Except CronError (Int × Int) :=
  if text = ['*'] then .ok (minimum, maximum)
  else if '-' ∉ text then do
    let value ← cronInt text field
    .ok (value, value)
  else do
    let (left, right) := splitOnce '-' text
    let start ← cronInt left field
    let stop ← cronInt right field
    if start > stop ∨ start < minimum ∨ stop > maximum then
      .error (.valueError ("invalid cron range " ++ reprText text ++ " in " ++ reprText field))
    else .ok (start, stop)

/-- The numbers from `first` to `last`, both included. -/
def intRange (first last : Int) : Finset Int :=
  @Finset.Icc Int Int.instLinearOrder.toPartialOrder.toPreorder Int.instLocallyFiniteOrder first last

omit [PyRepr] [DecimalDigits] in
@[simp] theorem mem_intRange {first last value : Int}
    : value ∈ intRange first last ↔ first ≤ value ∧ value ≤ last :=
  Finset.mem_Icc

omit [PyRepr] [DecimalDigits] in
theorem intRange_subset {first last low high : Int} (below : low ≤ first) (above : last ≤ high)
    : intRange first last ⊆ intRange low high :=
  Finset.Icc_subset_Icc below above

/-- `range(start, stop + 1, step)` -/
def stepsBetween (start stop step : Int) : Finset Int :=
  (intRange start stop).filter (fun value => step ∣ value - start)

def cronStep (text field : List Char) : Except CronError Int := do
  let step ← cronInt text field
  if step ≤ 0 then .error (.valueError ("cron step must be positive in " ++ reprText field))
  else .ok step

/-- The values one segment of a field's comma list adds. -/
def parseChunk (chunk : List Char) (minimum maximum : Int) (field : List Char)
    : Except CronError (Finset Int) :=
  if chunk = [] then
    .error (.valueError ("empty cron field segment in " ++ reprText field))
  else if ['*', '/'].isPrefixOf chunk then do
    let step ← cronStep (chunk.drop 2) field
    .ok (stepsBetween minimum maximum step)
  else if '/' ∈ chunk then do
    let (base, stepText) := splitOnce '/' chunk
    let step ← cronStep stepText field
    -- A single base is not compared with the bounds.
    let (start, stop) ← cronRange base minimum maximum field
    .ok (stepsBetween start stop step)
  else if chunk = ['*'] then .ok (intRange minimum maximum)
  else if '-' ∈ chunk then do
    let (start, stop) ← cronRange chunk minimum maximum field
    .ok (intRange start stop)
  else do
    let number ← cronInt chunk field
    if number < minimum ∨ number > maximum then
      .error (.valueError ("cron value " ++ toString number ++ " out of range ["
        ++ toString minimum ++ ", " ++ toString maximum ++ "]"))
    else .ok {number}

def stripChars (text : List Char) : List Char :=
  ((text.dropWhile isSpace).reverse.dropWhile isSpace).reverse

def parseChunks (minimum maximum : Int) (field : List Char)
    : List (List Char) → Except CronError (Finset Int)
  | [] => .ok ∅
  | chunk :: rest => do
      let values ← parseChunk (stripChars chunk) minimum maximum field
      let more ← parseChunks minimum maximum field rest
      .ok (values ∪ more)

/-- `_parse_field` -/
def parseField (field : List Char) (minimum maximum : Int) : Except CronError (Finset Int) :=
  parseChunks minimum maximum field (field.splitOn ',')

/-- The values of the five fields. -/
structure CronFields where
  minuteSet : Finset Int
  hourSet : Finset Int
  domSet : Finset Int
  monthSet : Finset Int
  dowSet : Finset Int
deriving DecidableEq

/-- `text.split()` -/
def splitBlanks (text : String) : List (List Char) :=
  (text.toList.splitOnP isSpace).filter (· ≠ [])

def parseCronExpression (expression : String) : Except CronError CronFields :=
  match splitBlanks expression with
  | [minutes, hours, dom, months, dow] => do
      let minuteSet ← parseField minutes 0 59
      let hourSet ← parseField hours 0 23
      let domSet ← parseField dom 1 31
      let monthSet ← parseField months 1 12
      let dowSet ← parseField dow 0 7
      .ok ⟨minuteSet, hourSet, domSet, monthSet, dowSet⟩
  | parts =>
    .error (.valueError ("cron expression must have 5 fields, got " ++ toString parts.length
      ++ ": " ++ reprText expression.toList))

end Parsing

namespace CronFields

variable (fields : CronFields)

def domStar : Bool := fields.domSet.card = 31 && intRange 1 31 ⊆ fields.domSet

def dowStar : Bool := intRange 0 6 ⊆ fields.dowSet.image (· % 7)

/-- `_day_matches` -/
def dayMatches (value : Int) : Bool :=
  let domOk : Bool := WallTime.day value ∈ fields.domSet
  let cronDow := (WallTime.weekday value + 1) % 7
  let dowOk : Bool := cronDow ∈ fields.dowSet || (cronDow = 0 && 7 ∈ fields.dowSet)
  if !fields.domStar && !fields.dowStar then domOk || dowOk else domOk && dowOk

/-- What the scan asks of a minute. -/
def isDue (value : Int) : Bool :=
  WallTime.minute value ∈ fields.minuteSet && WallTime.hour value ∈ fields.hourSet
    && WallTime.month value ∈ fields.monthSet && fields.dayMatches value

end CronFields

/-- A bound of the scan: a naive reading, or an instant. -/
inductive Bound
  | naive (wall : Int)
  | aware (instant : Int)
deriving DecidableEq

/-- `resolve_timezone` -/
def resolveTimezone [PyRepr] (zones : String → Option Zone) (name : String)
    : Except CronError Zone :=
  match zones name with
  | some tz => .ok tz
  | none => .error (.valueError ("unknown cron timezone " ++ reprText name.toList))

/-- The loop over the minutes from `cursor` on. -/
def scanFires (fields : CronFields) (tz : Zone) (localUntil : Int) (limit : Nat)
    : Nat → Int → List Int → Except CronError (List Int)
  | 0, _, fires => .ok fires
  | steps + 1, cursor, fires =>
    if localUntil < cursor ∨ limit ≤ fires.length then .ok fires
    else do
      let fires ←
        if fields.isDue cursor then do
          let fire ← representable (tz.toInstant cursor)
          Except.ok (fires ++ [fire])
        else Except.ok fires
      let next ← representable (cursor + minuteLength)
      scanFires fields tz localUntil limit steps next fires

/-- The bound of the scan. -/
def maxSteps (limit : Nat) : Nat := max (limit * 60 * 24) (60 * 24 * 8)

/-- The zones are those the timezone database knows. -/
def iterCronFires [PyRepr] [DecimalDigits] (zones : String → Option Zone) (expression : String)
    (after until_ : Bound) (timezone : String) (limit : Int)
    : Except CronError (List Int) :=
  match after, until_ with
  | .aware after, .aware until_ =>
    if until_ ≤ after ∨ limit ≤ 0 then .ok []
    else do
      let tz ← resolveTimezone zones timezone
      let fields ← parseCronExpression expression
      let localAfter ← representable (tz.toWall after)
      let localUntil ← representable (tz.toWall until_)
      let cursor ← representable (WallTime.wholeMinute localAfter + minuteLength)
      scanFires fields tz localUntil limit.toNat (maxSteps limit.toNat) cursor []
  | _, _ => .error (.valueError "cron bounds must be timezone-aware")

end Murder.Triggers

import Bearer.Time.Interval

/-!
Instants, shown at a fixed offset from universal time. The proleptic Gregorian calendar covers the
years −9999 to 9999; the limit applies to the date and time that the offset shows.
-/
namespace Bearer.Time

def secondsPerDay : Int := 86400

/-- Days from 1970-01-01 to the first day of the calendar and to the day after its last. -/
def firstDay : Int := -4371587

def endDay : Int := 2932897

def Instant.earliest : Int := firstDay * secondsPerDay * nanosPerSecond

def Instant.limit : Int := endDay * secondsPerDay * nanosPerSecond

/-- `shown` counts the nanoseconds that a clock at `offset` seconds from universal time shows since
the beginning of 1970. -/
structure Instant where
  shown : Int
  offset : Int
  earliest_le : Instant.earliest ≤ shown
  lt_limit : shown < Instant.limit
  deriving DecidableEq

namespace Instant

def ofLocal? (shown offset : Int) : Option Instant :=
  if h : earliest ≤ shown ∧ shown < limit then some ⟨shown, offset, h.1, h.2⟩ else none

/-- The instant so many seconds and nanoseconds after the beginning of 1970. -/
def ofUnix? (seconds nanos offset : Int) : Option Instant :=
  ofLocal? ((seconds + offset) * nanosPerSecond + nanos) offset

def unixNanos (t : Instant) : Int :=
  t.shown - t.offset * nanosPerSecond

def add? (t : Instant) (span : Span) : Option Instant :=
  ofLocal? (t.shown + span.nanos) t.offset

def since (t earlier : Instant) : Span :=
  ⟨t.unixNanos - earlier.unixNanos⟩

/-- Year, month and day of the day that is so many days after 1970-01-01. The calendar repeats after
400 years of 146097 days, and a year is counted from March so that a leap day ends it. -/
def dateOfDay (day : Int) : Int × Nat × Nat :=
  let z := day + 719468
  let era := z.fdiv 146097
  let dayOfEra := (z - era * 146097).toNat
  let yearOfEra := (dayOfEra - dayOfEra / 1460 + dayOfEra / 36524 - dayOfEra / 146096) / 365
  let dayOfYear := dayOfEra - (365 * yearOfEra + yearOfEra / 4 - yearOfEra / 100)
  let shifted := (5 * dayOfYear + 2) / 153
  let dayOfMonth := dayOfYear - (153 * shifted + 2) / 5 + 1
  let month := if shifted < 10 then shifted + 3 else shifted - 9
  (yearOfEra + era * 400 + (if month ≤ 2 then 1 else 0), month, dayOfMonth)

private def twoDigits (n : Nat) : String :=
  String.join ((Interval.padded 2 n).map toString)

/-- Four digits and a sign where the year is negative. -/
private def yearText (year : Int) : String :=
  (if year < 0 then "-" else "") ++ String.join ((Interval.padded 4 year.natAbs).map toString)

private def fraction (n : Nat) : String :=
  match ((Interval.padded 9 n).reverse.dropWhile (· == 0)).reverse with
  | [] => "0"
  | kept => String.join (kept.map toString)

private def offsetText (offset : Int) : String :=
  let n := offset.natAbs
  (if offset < 0 then "-" else "+") ++ twoDigits (n / 3600) ++ ":" ++ twoDigits (n / 60 % 60) ++
    ":" ++ twoDigits (n % 60)

/-- Date, time and offset; the hour is written without a zero in front, the fraction with at least
one digit. -/
def text (t : Instant) : String :=
  let second := t.shown.fdiv nanosPerSecond
  let nanos := (t.shown - second * nanosPerSecond).toNat
  let day := second.fdiv secondsPerDay
  let clock := (second - day * secondsPerDay).toNat
  let (year, month, dayOfMonth) := dateOfDay day
  yearText year ++ "-" ++ twoDigits month ++ "-" ++ twoDigits dayOfMonth ++ " " ++
    toString (clock / 3600) ++ ":" ++ twoDigits (clock / 60 % 60) ++ ":" ++
    twoDigits (clock % 60) ++ "." ++ fraction nanos ++ " " ++ offsetText t.offset

example : dateOfDay 0 = (1970, 1, 1) := by decide
example : dateOfDay firstDay = (-9999, 1, 1) := by decide
example : dateOfDay (endDay - 1) = (9999, 12, 31) := by decide

end Instant

end Bearer.Time

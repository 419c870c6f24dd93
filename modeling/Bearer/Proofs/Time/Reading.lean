import Mathlib
import Bearer.Proofs.Time.Calendar

/-!
What a clock shows, field by field. A span is added field by field too, from the nanoseconds up to
the days, and what a field then has too much or too little is carried to the next. So what a clock
shows after a span is what it shows so many nanoseconds later, and the span is the difference of the
two readings.
-/
namespace Bearer.Time

namespace Span

/-- Whole seconds of a span and the nanoseconds beyond them, both with its sign. -/
structure Parts (span : Span) (seconds subsecond : Int) : Prop where
  total : span.nanos = seconds * nanosPerSecond + subsecond
  small : -nanosPerSecond < subsecond ∧ subsecond < nanosPerSecond
  sign : 0 ≤ seconds ∧ 0 ≤ subsecond ∨ seconds ≤ 0 ∧ subsecond ≤ 0

theorem parts (span : Span) : span.Parts span.seconds span.subsecond where
  total := (Int.tdiv_mul_add_tmod span.nanos nanosPerSecond).symm
  small := ⟨Int.lt_tmod_of_pos _ (by decide), Int.tmod_lt_of_pos _ (by decide)⟩
  sign := by
    obtain ahead | back := le_total 0 span.nanos
    · exact .inl ⟨Int.tdiv_nonneg ahead (by decide), Int.tmod_nonneg _ ahead⟩
    · have seconds := Int.tdiv_nonneg (Int.neg_nonneg_of_nonpos back)
        (Int.natCast_nonneg nanosPerSecond)
      have subsecond := Int.tmod_nonneg nanosPerSecond (Int.neg_nonneg_of_nonpos back)
      rw [Int.neg_tdiv, Int.neg_nonneg] at seconds
      rw [Int.neg_tmod, Int.neg_nonneg] at subsecond
      exact .inr ⟨seconds, subsecond⟩

/-- A span has no other parts, so its seconds are rounded toward zero. -/
theorem Parts.unique {span : Span} {seconds subsecond : Int} (parts : span.Parts seconds subsecond) :
    seconds = span.seconds ∧ subsecond = span.subsecond := by
  obtain ⟨total, small, sign⟩ := parts
  obtain ⟨totalToo, smallToo, signToo⟩ := span.parts
  simp only [nanosPerSecond] at *
  omega

end Span

/-- What a clock shows. Days of a year are counted from zero, as the parts of a day are. -/
structure Reading where
  year : Int
  dayOfYear : Int
  hour : Int
  minute : Int
  second : Int
  nanosecond : Int
  deriving DecidableEq

namespace Reading

/-- The fields are in their ranges. -/
structure Proper (r : Reading) : Prop where
  dayOfYear : 0 ≤ r.dayOfYear ∧ r.dayOfYear < daysInYear r.year
  hour : 0 ≤ r.hour ∧ r.hour < 24
  minute : 0 ≤ r.minute ∧ r.minute < 60
  second : 0 ≤ r.second ∧ r.second < 60
  nanosecond : 0 ≤ r.nanosecond ∧ r.nanosecond < nanosPerSecond

/-- Days from 1970-01-01. -/
def day (r : Reading) : Int :=
  newYear r.year + r.dayOfYear

/-- Nanoseconds from the beginning of 1970. -/
def nanos (r : Reading) : Int :=
  (((r.day * 24 + r.hour) * 60 + r.minute) * 60 + r.second) * nanosPerSecond + r.nanosecond

/-- A time of day on a day that is counted from 1970-01-01. -/
def onDay (day hour minute second nanosecond : Int) : Reading :=
  let year := (Instant.dateOfDay day).1
  ⟨year, day - newYear year, hour, minute, second, nanosecond⟩

/-- The fields of a count of nanoseconds, each with what is carried to the next. -/
def carried (days hours minutes seconds nanoseconds : Int) : Reading :=
  let seconds := seconds + nanoseconds / nanosPerSecond
  let minutes := minutes + seconds / 60
  let hours := hours + minutes / 60
  let days := days + hours / 24
  onDay days (hours % 24) (minutes % 60) (seconds % 60) (nanoseconds % nanosPerSecond)

def ofNanos (n : Int) : Reading :=
  carried 0 0 0 0 n

/-- A span is added to each field, with the sign that it has. -/
def plus (r : Reading) (span : Span) : Reading :=
  let minutes := span.seconds.tdiv 60
  let hours := minutes.tdiv 60
  carried (r.day + hours.tdiv 24) (r.hour + hours.tmod 24) (r.minute + minutes.tmod 60)
    (r.second + span.seconds.tmod 60) (r.nanosecond + span.subsecond)

/-- The difference of two readings is the sum of the differences of their fields. -/
def since (later earlier : Reading) : Span where
  nanos :=
    ((((later.day - earlier.day) * 24 + (later.hour - earlier.hour)) * 60 +
      (later.minute - earlier.minute)) * 60 + (later.second - earlier.second)) * nanosPerSecond +
      (later.nanosecond - earlier.nanosecond)

section Fields

variable {r s : Reading} {days hours minutes seconds nanoseconds : Int}

@[simp] theorem day_onDay (day hour minute second nanosecond : Int) :
    (onDay day hour minute second nanosecond).day = day := by
  simp only [Reading.day, onDay]
  omega

theorem proper_carried : (carried days hours minutes seconds nanoseconds).Proper := by
  constructor
  · simp only [carried, onDay]
    have own := Instant.newYear_le_day (days + (hours + (minutes + (seconds +
      nanoseconds / nanosPerSecond) / 60) / 60) / 24)
    rw [newYear_succ] at own
    omega
  all_goals
    simp only [carried, onDay, nanosPerSecond]
    omega

theorem nanos_carried : (carried days hours minutes seconds nanoseconds).nanos =
    (((days * 24 + hours) * 60 + minutes) * 60 + seconds) * nanosPerSecond + nanoseconds := by
  simp only [nanos, carried, day_onDay]
  simp only [onDay, nanosPerSecond]
  omega

theorem nanos_ofNanos (n : Int) : (ofNanos n).nanos = n := by
  rw [ofNanos, nanos_carried]
  omega

/-- Proper fields are told by their nanoseconds. -/
theorem Proper.eq_of_nanos (proper : r.Proper) (properToo : s.Proper) (same : r.nanos = s.nanos) :
    r = s := by
  obtain ⟨year, dayOfYear, hour, minute, second, nanosecond⟩ := r
  obtain ⟨year', dayOfYear', hour', minute', second', nanosecond'⟩ := s
  obtain ⟨inYear, ⟨_, _⟩, ⟨_, _⟩, ⟨_, _⟩, ⟨_, _⟩⟩ := proper
  obtain ⟨inYearToo, ⟨_, _⟩, ⟨_, _⟩, ⟨_, _⟩, ⟨_, _⟩⟩ := properToo
  simp only [nanos, nanosPerSecond] at *
  have days : Reading.day ⟨year, dayOfYear, hour, minute, second, nanosecond⟩ =
      Reading.day ⟨year', dayOfYear', hour', minute', second', nanosecond'⟩ := by omega
  simp only [days] at same
  obtain ⟨rfl, rfl, rfl, rfl⟩ : nanosecond = nanosecond' ∧ second = second' ∧ minute = minute' ∧
      hour = hour' := by omega
  simp only [Reading.day] at days
  -- The day is in one year only.
  have years : year = year' := by
    rw [← (Instant.year_eq_iff (newYear year + dayOfYear) year).mpr (by rw [newYear_succ]; omega),
      days]
    exact (Instant.year_eq_iff _ _).mpr (by rw [newYear_succ]; omega)
  subst years
  have dayOfYears : dayOfYear = dayOfYear' := by omega
  rw [dayOfYears]

theorem proper_plus (r : Reading) (span : Span) : (r.plus span).Proper :=
  proper_carried

theorem nanos_plus (r : Reading) (span : Span) : (r.plus span).nanos = r.nanos + span.nanos := by
  have seconds := Int.tmod_add_mul_tdiv span.seconds 60
  have minutes := Int.tmod_add_mul_tdiv (span.seconds.tdiv 60) 60
  have hours := Int.tmod_add_mul_tdiv ((span.seconds.tdiv 60).tdiv 60) 24
  rw [plus, nanos_carried, nanos, span.parts.total]
  simp only [nanosPerSecond]
  omega

theorem plus_eq (r : Reading) (span : Span) : r.plus span = ofNanos (r.nanos + span.nanos) :=
  (proper_plus r span).eq_of_nanos proper_carried (by rw [nanos_plus, nanos_ofNanos])

example : (Reading.mk 2024 60 0 0 0 0).plus ⟨-1⟩ = ⟨2024, 59, 23, 59, 59, 999999999⟩ := by decide

theorem nanos_since (later earlier : Reading) :
    (later.since earlier).nanos = later.nanos - earlier.nanos := by
  simp only [since, nanos, nanosPerSecond]
  omega

/-- A span that is added is what the readings differ by. -/
theorem since_plus (r : Reading) (span : Span) : (r.plus span).since r = span := by
  have nanos : ((r.plus span).since r).nanos = span.nanos := by
    rw [nanos_since, nanos_plus]
    omega
  cases span
  exact congrArg Span.mk nanos

end Fields

end Reading

end Bearer.Time

import Mathlib
import Bearer.Time.Instant

/-!
The years of the proleptic Gregorian calendar. A year begins where the one before ends, with the leap
day that the rule gives it, and the day count of the calendar agrees with that for every day there
is.
-/
namespace Bearer.Time

/-- Every fourth year is a leap year, but of the years that end a century only every fourth. -/
def IsLeap (year : Int) : Prop :=
  year % 4 = 0 ∧ (year % 100 ≠ 0 ∨ year % 400 = 0)

instance (year : Int) : Decidable (IsLeap year) :=
  inferInstanceAs (Decidable (_ ∧ _))

def daysInYear (year : Int) : Int :=
  if IsLeap year then 366 else 365

/-- Days from 1970-01-01 to the first day of a year: 365 for every year, and the leap days of the
years before it. -/
def newYear (year : Int) : Int :=
  365 * (year - 1970) + (year - 1) / 4 - (year - 1) / 100 + (year - 1) / 400 - 477

theorem le_daysInYear (year : Int) : 365 ≤ daysInYear year := by
  simp only [daysInYear]
  split <;> decide

theorem newYear_succ (year : Int) : newYear (year + 1) = newYear year + daysInYear year := by
  simp only [newYear, daysInYear]
  by_cases leap : IsLeap year
  · rw [if_pos leap]
    obtain ⟨fourth, century⟩ := leap
    omega
  · rw [if_neg leap]
    simp only [IsLeap] at leap
    omega

example : newYear 1970 = 0 ∧ newYear 2001 - newYear 2000 = 366 := by decide

theorem newYear_lt {year later : Int} (order : year < later) : newYear year < newYear later := by
  simp only [newYear]
  omega

theorem newYear_le {year later : Int} (order : year ≤ later) : newYear year ≤ newYear later :=
  order.eq_or_lt.elim (fun same => (congrArg newYear same).le) fun less => (newYear_lt less).le

section Era

/-- A day of an era of 400 years: its century, the group of four years in it, the year of the group
and the day of the year. The last year of a group has a day more, except for the last group of a
century that does not end the era. -/
structure EraDay (n century group year day : Nat) : Prop where
  total : n = 36524 * century + 1461 * group + 365 * year + day
  century_le : century ≤ 3
  group_le : group ≤ 24
  year_le : year ≤ 3
  day_le : day ≤ 365
  leap : day = 365 → year = 3 ∧ (group = 24 → century = 3)

variable {n century group year day : Nat}

/-- The year of a group is told after a day was skipped, late in the group. -/
theorem exists_yearOfGroup {d : Nat} (skip : Nat) (d_le : d ≤ 1460) (skip_le : skip ≤ 1)
    (late : skip = 1 → 1364 ≤ d) (last : d = 1460 → skip = 1) :
    ∃ t s, (d - skip) / 365 = t ∧ d = 365 * t + s ∧ t ≤ 3 ∧ s ≤ 365 ∧ (s = 365 → d = 1460) := by
  refine ⟨_, d - 365 * ((d - skip) / 365), rfl, ?_, ?_, ?_, ?_⟩
  all_goals omega

/-- The count of the years of an era skips a day for every four years, adds one for every century and
skips one for the era. -/
theorem exists_eraDay (inside : n < 146097) :
    ∃ century group year day, EraDay n century group year day ∧
      (n - n / 1460 + n / 36524 - n / 146096) / 365 = 100 * century + 4 * group + year := by
  obtain ⟨c, r, century, total, c_le, r_le⟩ : ∃ c r, n / 36524 - n / 146096 = c ∧
      n = 36524 * c + r ∧ c ≤ 3 ∧ (r = 36524 → c = 3) ∧ r ≤ 36524 :=
    ⟨_, n - 36524 * (n / 36524 - n / 146096), rfl, by omega, by omega, by omega, by omega⟩
  obtain ⟨q, d, group, q_le, d_le⟩ : ∃ q d, r = 1461 * q + d ∧ q ≤ 24 ∧ d ≤ 1460 :=
    ⟨r / 1461, r % 1461, by omega, by omega, by omega⟩
  have skipped : n / 1460 = 25 * c + q + (24 * c + q + d) / 1460 := by
    rw [total, group, show 36524 * c + (1461 * q + d) = 1460 * (25 * c + q) + (24 * c + q + d) by
      omega, Nat.mul_add_div (by decide)]
  have counted : n - n / 1460 + n / 36524 - n / 146096 =
      365 * (100 * c + 4 * q) + (d - (24 * c + q + d) / 1460) := by
    omega
  rw [counted, Nat.mul_add_div (by decide)]
  clear counted skipped century
  obtain ⟨t, s, year, days, t_le, s_le, last⟩ :=
    exists_yearOfGroup ((24 * c + q + d) / 1460) d_le (by omega) (by omega) (by omega)
  refine ⟨c, q, t, s, ⟨by omega, c_le, q_le, t_le, s_le, fun leap => ?_⟩, by rw [year]⟩
  have whole := last leap
  clear year
  exact ⟨by omega, fun final => r_le.1 (by omega)⟩

theorem EraDay.fourths (h : EraDay n century group year day) :
    (100 * century + 4 * group + year) / 4 = 25 * century + group := by
  have year_le := h.year_le
  omega

theorem EraDay.centuries (h : EraDay n century group year day) :
    (100 * century + 4 * group + year) / 100 = century := by
  have group_le := h.group_le
  have year_le := h.year_le
  omega

/-- The years of an era begin in March, which comes 306 days before the end of a year. -/
theorem EraDay.march (h : EraDay n century group year day) (era : Int) :
    newYear (100 * century + 4 * group + year + era * 400 + 1) + day =
      era * 146097 + n - 719468 + 306 := by
  obtain ⟨total, century_le, group_le, year_le, day_le, -⟩ := h
  simp only [newYear]
  omega

theorem EraDay.march_succ (h : EraDay n century group year day) (era : Int) :
    era * 146097 + n - 719468 + 306 <
      newYear (100 * century + 4 * group + year + era * 400 + 1 + 1) := by
  obtain ⟨total, century_le, group_le, year_le, day_le, leap⟩ := h
  simp only [newYear]
  omega

end Era

namespace Instant

/-- January and February end a year that began in March. -/
theorem ends_year_iff {day : Nat} (day_le : day ≤ 365) :
    (if (5 * day + 2) / 153 < 10 then (5 * day + 2) / 153 + 3 else (5 * day + 2) / 153 - 9) ≤ 2 ↔
      306 ≤ day := by
  split <;> omega

/-- Every day is in the year that the calendar gives it. -/
theorem newYear_le_day (day : Int) :
    newYear (dateOfDay day).1 ≤ day ∧ day < newYear ((dateOfDay day).1 + 1) := by
  obtain ⟨era, counted⟩ : ∃ era, era = (day + 719468).fdiv 146097 := ⟨_, rfl⟩
  obtain ⟨n, rest⟩ : ∃ n, n = (day + 719468 - era * 146097).toNat := ⟨_, rfl⟩
  have whole : day + 719468 = era * 146097 + n ∧ n < 146097 := by
    rw [Int.fdiv_eq_ediv_of_nonneg _ (by decide)] at counted
    omega
  obtain ⟨c, q, t, s, parts, year⟩ := exists_eraDay whole.2
  have dayOfYear : n - (365 * (100 * c + 4 * q + t) + (100 * c + 4 * q + t) / 4 -
      (100 * c + 4 * q + t) / 100) = s := by
    rw [parts.fourths, parts.centuries]
    have total := parts.total
    clear year rest counted
    omega
  have begun := parts.march era
  have ended := parts.march_succ era
  simp only [dateOfDay, ← counted, ← rest, year, dayOfYear, ends_year_iff parts.day_le]
  clear year rest counted dayOfYear
  push_cast
  by_cases late : 306 ≤ s
  · rw [if_pos late]
    constructor <;> omega
  · rw [if_neg late, add_zero]
    have before := newYear_succ (100 * c + 4 * q + t + era * 400)
    have long := le_daysInYear (100 * c + 4 * q + t + era * 400)
    constructor <;> omega

/-- A year is the year of the days from its first day to the first of the next. -/
theorem year_eq_iff (day year : Int) :
    (dateOfDay day).1 = year ↔ newYear year ≤ day ∧ day < newYear (year + 1) := by
  have own := newYear_le_day day
  constructor
  · rintro rfl
    exact own
  · rintro ⟨begun, ended⟩
    refine le_antisymm (not_lt.mp fun later => ?_) (not_lt.mp fun earlier => ?_)
    · exact absurd (newYear_le (Int.add_one_le_of_lt later)) (by omega)
    · exact absurd (newYear_le (Int.add_one_le_of_lt earlier)) (by omega)

theorem year_lt_iff (day year : Int) : (dateOfDay day).1 < year ↔ day < newYear year := by
  have own := newYear_le_day day
  constructor
  · intro earlier
    exact own.2.trans_le (newYear_le (Int.add_one_le_of_lt earlier))
  · intro before
    exact not_le.mp fun late => absurd (newYear_le late) (by omega)

/-- The year in which a clock stands that has counted so many nanoseconds since the beginning of
1970. -/
def yearAt (nanos : Int) : Int :=
  (dateOfDay ((nanos.fdiv nanosPerSecond).fdiv secondsPerDay)).1

theorem yearAt_lt_iff (nanos year : Int) :
    yearAt nanos < year ↔ nanos < newYear year * secondsPerDay * nanosPerSecond := by
  rw [yearAt, year_lt_iff, Int.fdiv_eq_ediv_of_nonneg _ (by decide),
    Int.fdiv_eq_ediv_of_nonneg _ (by decide)]
  simp only [secondsPerDay, nanosPerSecond]
  omega

/-- The calendar begins with the year −9999. -/
theorem le_yearAt_iff (nanos : Int) : -9999 ≤ yearAt nanos ↔ earliest ≤ nanos := by
  rw [← not_lt, yearAt_lt_iff, not_lt]
  exact Iff.rfl

/-- The calendar ends with the year 9999. -/
theorem yearAt_le_iff (nanos : Int) : yearAt nanos ≤ 9999 ↔ nanos < limit := by
  rw [← Int.lt_add_one_iff, yearAt_lt_iff]
  exact Iff.rfl

theorem add?_eq_some {t later : Instant} {span : Span} (reached : t.add? span = some later) :
    later.shown = t.shown + span.nanos ∧ later.offset = t.offset := by
  simp only [add?, ofLocal?] at reached
  split at reached
  · cases reached
    exact ⟨rfl, rfl⟩
  · cases reached

/-- A time is reached exactly if the calendar has its year. -/
theorem add?_isSome_iff (t : Instant) (span : Span) :
    (t.add? span).isSome ↔
      -9999 ≤ yearAt (t.shown + span.nanos) ∧ yearAt (t.shown + span.nanos) ≤ 9999 := by
  simp only [add?, ofLocal?, le_yearAt_iff, yearAt_le_iff]
  split <;> simp [*]

end Instant

end Bearer.Time

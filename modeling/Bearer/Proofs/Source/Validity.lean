import Mathlib
import Bearer.Proofs.Source.Fetch
import Bearer.Proofs.Time.Reading

/-!
What a credential keeps of the validity that it is made with. The time until which it is trusted is
read off the calendar, field by field with what is carried; where the calendar has that time, the
lifetime is the validity again, to the nanosecond.
-/
namespace Bearer

namespace Time

theorem Reading.year_ofNanos (n : Int) : (Reading.ofNanos n).year = Instant.yearAt n := by
  simp only [ofNanos, carried, onDay, Instant.yearAt]
  rw [Int.fdiv_eq_ediv_of_nonneg _ (by decide), Int.fdiv_eq_ediv_of_nonneg _ (by decide)]
  simp only [secondsPerDay, nanosPerSecond]
  congr 2
  omega

namespace Instant

/-- What a clock at the offset of an instant shows. -/
def reading (t : Instant) : Reading :=
  .ofNanos t.shown

variable {t later : Instant} {span : Span}

theorem reading_plus (t : Instant) (span : Span) :
    t.reading.plus span = .ofNanos (t.shown + span.nanos) := by
  rw [reading, Reading.plus_eq, Reading.nanos_ofNanos]

theorem reading_of_add (reached : t.add? span = some later) :
    later.reading = t.reading.plus span := by
  rw [reading_plus, reading, (add?_eq_some reached).1]

theorem exists_add_iff (t : Instant) (span : Span) :
    (∃ later, t.add? span = some later) ↔
      -9999 ≤ (t.reading.plus span).year ∧ (t.reading.plus span).year ≤ 9999 := by
  rw [← Option.isSome_iff_exists, add?_isSome_iff, reading_plus, Reading.year_ofNanos]

end Instant

end Time

namespace Credential

variable {value : String} {obtainedAt : Time.Instant} {validFor : Time.Span} {c : Credential}

theorem create_eq_ok : create value obtainedAt validFor = .ok c ↔
    obtainedAt.add? validFor = some c.validUntil ∧ c.value = value ∧ c.obtainedAt = obtainedAt := by
  simp only [create]
  cases obtainedAt.add? validFor with
  | none => simp
  | some validUntil =>
      simp only [Except.ok.injEq, Option.some.injEq]
      constructor
      · rintro rfl
        exact ⟨rfl, rfl, rfl⟩
      · obtain ⟨⟨own⟩, obtained, ends⟩ := c
        rintro ⟨rfl, rfl, rfl⟩
        rfl

theorem exists_create_iff : (∃ c, create value obtainedAt validFor = .ok c) ↔
    ∃ validUntil, obtainedAt.add? validFor = some validUntil := by
  simp only [create_eq_ok]
  constructor
  · rintro ⟨c, reached, -⟩
    exact ⟨c.validUntil, reached⟩
  · rintro ⟨validUntil, reached⟩
    exact ⟨⟨⟨value⟩, obtainedAt, validUntil⟩, reached, rfl, rfl⟩

/-- A credential is made exactly if the calendar has the date and time that its clock shows after the
validity. Then the lifetime is that validity, and so is the difference of the two readings. Otherwise
the whole seconds of the validity are refused; both parts of a span have its sign. -/
theorem lifetime_is_validity (value : String) (obtainedAt : Time.Instant) (validFor : Time.Span) :
    let ends := obtainedAt.reading.plus validFor
    let reached := -9999 ≤ ends.year ∧ ends.year ≤ 9999
    ((∃ c, create value obtainedAt validFor = .ok c) ↔ reached) ∧
    (∀ c, create value obtainedAt validFor = .ok c →
      c.value = value ∧ c.obtainedAt = obtainedAt ∧
      c.validUntil.reading = ends ∧ c.validUntil.offset = obtainedAt.offset ∧
      c.validUntil.reading.since c.obtainedAt.reading = validFor ∧ c.lifetime = validFor) ∧
    (¬reached → create value obtainedAt validFor = .error (.invalidExpiry validFor.seconds)) ∧
    (ends.Proper ∧ ends.nanos = obtainedAt.shown + validFor.nanos) ∧
    (∀ seconds subsecond, validFor.Parts seconds subsecond ↔
      seconds = validFor.seconds ∧ subsecond = validFor.subsecond) := by
  intro ends reached
  have exists_iff : (∃ c, create value obtainedAt validFor = .ok c) ↔ reached :=
    exists_create_iff.trans (obtainedAt.exists_add_iff validFor)
  refine ⟨exists_iff, ?_, ?_, ⟨obtainedAt.reading.proper_plus validFor, ?_⟩, ?_⟩
  · intro c created
    obtain ⟨ended, same, obtained⟩ := create_eq_ok.mp created
    have shown : c.validUntil.reading = ends := Time.Instant.reading_of_add ended
    refine ⟨same, obtained, shown, (Time.Instant.add?_eq_some ended).2, ?_, ?_⟩
    · rw [shown, obtained]
      exact obtainedAt.reading.since_plus validFor
    · exact Grant.lifetime_of_add (obtained.symm ▸ ended)
  · intro unreached
    cases result : obtainedAt.add? validFor with
    | some validUntil =>
        exact absurd ((obtainedAt.exists_add_iff validFor).mp ⟨validUntil, result⟩) unreached
    | none => rw [create, result]
  · rw [Time.Reading.nanos_plus, Time.Instant.reading, Time.Reading.nanos_ofNanos]
  · intro seconds subsecond
    constructor
    · exact Time.Span.Parts.unique
    · rintro ⟨rfl, rfl⟩
      exact validFor.parts

end Credential

end Bearer

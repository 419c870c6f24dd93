import Mathlib
import Bearer.Proofs.Source.Fetch
import Bearer.Proofs.Time.Calendar

/-!
What is trusted of an advertised validity. The margin is a step function of it, at most a fifth, and
the credential is refused exactly where nothing is left or where its end is behind the calendar.
-/
namespace Bearer

namespace Time.Instant

/-- A time to come is reached unless the calendar ends before. -/
theorem add?_isSome_iff_of_nonneg (t : Instant) {span : Span} (ahead : 0 ≤ span.nanos) :
    (t.add? span).isSome ↔ yearAt (t.shown + span.nanos) ≤ 9999 := by
  have begun : -9999 ≤ yearAt (t.shown + span.nanos) :=
    (le_yearAt_iff _).mpr (t.earliest_le.trans (Int.le_add_of_nonneg_right ahead))
  rw [add?_isSome_iff, and_iff_right begun]

end Time.Instant

open Time (Instant Span nanosPerSecond)

namespace Grant

/-- What is given up of an advertised validity: the longer it is, the more. -/
def marginOf (expiresIn : Int) : Int :=
  if 3600 < expiresIn then 600
  else if 1800 < expiresIn then 300
  else if 300 < expiresIn then 60
  else if 60 < expiresIn then 10
  else 0

theorem margin?_eq (expiresIn : Int) :
    margin? expiresIn = if 0 < expiresIn then some (marginOf expiresIn) else none := by
  simp only [margin?, marginOf, gt_iff_lt]
  split_ifs <;> first | rfl | omega

/-- Something is always left, and at most a fifth is given up. -/
theorem marginOf_bounds {expiresIn : Int} (positive : 0 < expiresIn) :
    0 ≤ marginOf expiresIn ∧ marginOf expiresIn < expiresIn ∧
      5 * marginOf expiresIn ≤ expiresIn := by
  simp only [marginOf]
  split_ifs <;> omega

/-- A validity in 64 bits is lessened without a wrap. -/
theorem toInt_sub_margin {expiresIn : Int64} (positive : 0 < expiresIn.toInt) :
    (expiresIn - Int64.ofInt (marginOf expiresIn.toInt)).toInt =
      expiresIn.toInt - marginOf expiresIn.toInt := by
  obtain ⟨nonneg, less, -⟩ := marginOf_bounds positive
  have above := expiresIn.toInt_lt
  rw [Int64.toInt_sub, Int64.toInt_ofInt_of_le (by omega) (by omega)]
  exact Int.bmod_eq_of_le (by omega) (by omega)

theorem credential_exists_iff (value : String) (expiresIn : Int) (now : Instant) :
    (∃ c, credential ⟨value, expiresIn⟩ now = .ok c) ↔
      0 < expiresIn ∧
        Instant.yearAt (now.shown + (expiresIn - marginOf expiresIn) * nanosPerSecond) ≤ 9999 := by
  simp only [credential_eq_ok, margin?_eq]
  by_cases positive : 0 < expiresIn
  · have less := (marginOf_bounds positive).2.1
    have ahead : 0 ≤ (Span.ofSeconds (expiresIn - marginOf expiresIn)).nanos :=
      mul_nonneg (by omega) (by decide)
    simp only [positive, if_true, Option.some.injEq, exists_eq_left', true_and]
    rw [show (expiresIn - marginOf expiresIn) * (nanosPerSecond : Int) =
      (Span.ofSeconds (expiresIn - marginOf expiresIn)).nanos from rfl,
      ← Instant.add?_isSome_iff_of_nonneg now ahead, Option.isSome_iff_exists]
    constructor
    · rintro ⟨c, reached, -⟩
      exact ⟨c.validUntil, reached⟩
    · rintro ⟨validUntil, reached⟩
      exact ⟨⟨⟨value⟩, now, validUntil⟩, reached, rfl, rfl⟩
  · simp [positive]

/-- For every validity in 64 bits a grant becomes a credential exactly where the validity is
positive and what is trusted of it ends before the calendar does. What the margin leaves is computed
without a wrap and is at least four fifths; the credential is trusted for just that, and never beyond
the advertised time. Otherwise the advertised validity itself is the one that is refused. -/
theorem credential_for_every_validity (value : String) (expiresIn : Int64) (now : Instant) :
    let e := expiresIn.toInt
    let m := marginOf e
    let reached := 0 < e ∧ Instant.yearAt (now.shown + (e - m) * nanosPerSecond) ≤ 9999
    ((∃ c, credential ⟨value, e⟩ now = .ok c) ↔ reached) ∧
    (0 < e → (expiresIn - Int64.ofInt m).toInt = e - m ∧ 1 ≤ e - m ∧ e - m ≤ e ∧ 5 * m ≤ e) ∧
    (∀ c, credential ⟨value, e⟩ now = .ok c →
      c.value = value ∧ c.obtainedAt = now ∧ c.lifetime = .ofSeconds (e - m) ∧
      c.validUntil.unixNanos ≤ now.unixNanos + e * nanosPerSecond) ∧
    (¬reached → credential ⟨value, e⟩ now = .error (.invalidExpiry e)) := by
  intro e m reached
  have exists_iff := credential_exists_iff value e now
  refine ⟨exists_iff, ?_, ?_, ?_⟩
  · intro positive
    obtain ⟨nonneg, less, fifth⟩ := marginOf_bounds positive
    exact ⟨toInt_sub_margin positive, by omega, by omega, fifth⟩
  · intro c created
    have positive : 0 < e := (exists_iff.mp ⟨c, created⟩).1
    obtain ⟨margin, known, ends, same, obtained⟩ := credential_eq_ok.mp created
    rw [margin?_eq, if_pos positive] at known
    cases known
    refine ⟨same, obtained, lifetime_of_add (obtained.symm ▸ ends), ?_⟩
    obtain ⟨shown, offset⟩ := Instant.add?_eq_some ends
    have nonneg := (marginOf_bounds positive).1
    have shorter : (e - marginOf e) * (nanosPerSecond : Int) ≤ e * nanosPerSecond :=
      mul_le_mul_of_nonneg_right (by omega) (by decide)
    simp only [Instant.unixNanos, shown, offset, Span.ofSeconds]
    omega
  · intro unreached
    cases result : credential ⟨value, e⟩ now with
    | ok c => exact absurd (exists_iff.mp ⟨c, result⟩) unreached
    | error error => rw [credential_eq_error result]

end Grant

end Bearer

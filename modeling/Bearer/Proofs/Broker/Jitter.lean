import Mathlib
import Bearer.Config

/-!
The numbers of polls that can be drawn. Any two words make a range once they are normalized, and it
holds something unless it begins at the largest word. So a generator is asked only for what it can
give.
-/
namespace Bearer.PollJitter

/-- What is relied on: from a range that holds something a generator draws one of its words, and it
can draw each of them. -/
structure Draws {Seed : Type} (draw : Seed → UInt32 → UInt32 → Option UInt32) : Prop where
  within : ∀ seed low high, low < high → ∃ word, draw seed low high = some word ∧
    low ≤ word ∧ word < high
  reaches : ∀ low high word, low ≤ word → word < high → ∃ seed, draw seed low high = some word

section Range

variable (min max : UInt32)

theorem toNat_successor (n : UInt32) :
    (successor n).toNat = Min.min (n.toNat + 1) 0xFFFFFFFF := by
  have bound := n.toNat_lt
  rw [successor]
  split
  · next last =>
      subst last
      decide
  · next other =>
      have below : n.toNat ≠ 0xFFFFFFFF := fun same => other (UInt32.toNat_inj.mp same)
      rw [UInt32.toNat_add, UInt32.toNat_one]
      omega

theorem toNat_raised (n floor : UInt32) :
    (if n < floor then floor else n).toNat = Max.max n.toNat floor.toNat := by
  split
  · next below => exact (max_eq_right (Nat.le_of_lt (UInt32.lt_iff_toNat_lt.mp below))).symm
  · next above => exact (max_eq_left (UInt32.le_iff_toNat_le.mp (UInt32.not_lt.mp above))).symm

theorem toNat_min_create : (create min max).min.toNat = Max.max min.toNat 1 :=
  toNat_raised min 1

theorem toNat_max_create : (create min max).max.toNat =
    Max.max max.toNat (Min.min ((create min max).min.toNat + 1) 0xFFFFFFFF) := by
  rw [← toNat_successor]
  exact toNat_raised max _

theorem ext_toNat {a b : PollJitter} (lower : a.min.toNat = b.min.toNat)
    (upper : a.max.toNat = b.max.toNat) : a = b := by
  obtain ⟨amin, amax⟩ := a
  obtain ⟨bmin, bmax⟩ := b
  cases UInt32.toNat_inj.mp lower
  cases UInt32.toNat_inj.mp upper
  rfl

theorem create_create :
    create (create min max).min (create min max).max = create min max := by
  have same : (create (create min max).min (create min max).max).min.toNat =
      (create min max).min.toNat := by
    rw [toNat_min_create, toNat_min_create, max_assoc, max_self]
  refine ext_toNat same ?_
  rw [toNat_max_create, same, toNat_max_create, max_assoc, max_self]

theorem one_le_min_create : 1 ≤ (create min max).min := by
  rw [UInt32.le_iff_toNat_le, toNat_min_create]
  exact le_max_right _ _

/-- Any number of polls that can be drawn allows for one. -/
theorem pos_of_allows {jitter : PollJitter} {polls : Nat} (drawn : jitter.allows polls = true) :
    0 < polls := by
  have low : 1 ≤ jitter.normalized.min.toNat := UInt32.le_iff_toNat_le.mp (one_le_min_create ..)
  simp only [allows] at drawn
  split at drawn
  · simp only [Bool.and_eq_true, decide_eq_true_eq] at drawn
    exact Nat.le_trans low drawn.1
  · exact low.trans_eq (of_decide_eq_true drawn).symm

/-- A normalized range holds something unless it begins at the largest word. -/
theorem min_lt_max_iff : (create min max).min < (create min max).max ↔ min ≠ 0xFFFFFFFF := by
  have low := toNat_min_create min max
  have high := toNat_max_create min max
  have bound := min.toNat_lt
  have top := max.toNat_lt
  have last : (0xFFFFFFFF : UInt32).toNat = 0xFFFFFFFF := by decide
  rw [UInt32.lt_iff_toNat_lt, ne_eq, ← UInt32.toNat_inj, last]
  omega

end Range

section Sample

variable {Seed : Type} {draw : Seed → UInt32 → UInt32 → Option UInt32} {jitter : PollJitter}
  {polls : UInt32}

theorem asked?_of_lt (room : jitter.normalized.min < jitter.normalized.max) :
    jitter.asked? = some (jitter.normalized.min, jitter.normalized.max) :=
  if_neg (UInt32.not_le.mpr room)

theorem asked?_of_not_lt (full : ¬jitter.normalized.min < jitter.normalized.max) :
    jitter.asked? = none :=
  if_pos (UInt32.not_lt.mp full)

/-- Whatever a generator does, a range that is asked of it holds something. -/
theorem lt_of_asked {low high : UInt32} (asked : jitter.asked? = some (low, high)) :
    low < high := by
  by_cases room : jitter.normalized.min < jitter.normalized.max
  · cases (asked?_of_lt room).symm.trans asked
    exact room
  · cases (asked?_of_not_lt room).symm.trans asked

theorem sample_of_lt (room : jitter.normalized.min < jitter.normalized.max) (seed : Seed) :
    jitter.sample draw seed = draw seed jitter.normalized.min jitter.normalized.max := by
  rw [sample, asked?_of_lt room]

theorem sample_of_not_lt (full : ¬jitter.normalized.min < jitter.normalized.max) (seed : Seed) :
    jitter.sample draw seed = some jitter.normalized.min := by
  rw [sample, asked?_of_not_lt full]

theorem sample_normalized (jitter : PollJitter) (seed : Seed) :
    jitter.normalized.sample draw seed = jitter.sample draw seed := by
  have same : jitter.normalized.normalized = jitter.normalized := create_create ..
  rw [sample, sample, asked?, asked?, same]

theorem min_eq_last (full : ¬jitter.normalized.min < jitter.normalized.max) :
    jitter.normalized.min = 0xFFFFFFFF := by
  have last : jitter.min = 0xFFFFFFFF := by
    by_contra other
    exact full ((min_lt_max_iff ..).mpr other)
  rw [← UInt32.toNat_inj, normalized, toNat_min_create, last]
  decide

namespace Draws

theorem sample_eq_some_iff (draws : Draws draw)
    (room : jitter.normalized.min < jitter.normalized.max) :
    (∃ seed, jitter.sample draw seed = some polls) ↔
      jitter.normalized.min ≤ polls ∧ polls < jitter.normalized.max := by
  simp only [sample_of_lt room]
  constructor
  · rintro ⟨seed, drawn⟩
    obtain ⟨word, same, inside⟩ := draws.within seed _ _ room
    cases drawn.symm.trans same
    exact inside
  · rintro ⟨least, below⟩
    exact draws.reaches _ _ polls least below

theorem exists_sample (draws : Draws draw) (jitter : PollJitter) (seed : Seed) :
    ∃ polls, jitter.sample draw seed = some polls ∧ 1 ≤ polls := by
  have least : 1 ≤ jitter.normalized.min := one_le_min_create ..
  by_cases room : jitter.normalized.min < jitter.normalized.max
  · obtain ⟨polls, drawn, low, -⟩ := draws.within seed _ _ room
    exact ⟨polls, (sample_of_lt room seed).trans drawn, UInt32.le_trans least low⟩
  · exact ⟨_, sample_of_not_lt room seed, least⟩

/-- The numbers that a caller may be given are those that can be drawn. -/
theorem allows_iff (draws : Draws draw) (k : Nat) : jitter.allows k = true ↔
    ∃ seed polls, jitter.sample draw seed = some polls ∧ polls.toNat = k := by
  by_cases room : jitter.normalized.min < jitter.normalized.max
  · simp only [allows, if_pos room, Bool.and_eq_true, decide_eq_true_eq]
    constructor
    · rintro ⟨least, below⟩
      have small : k < 2 ^ 32 := Nat.lt_trans below jitter.normalized.max.toNat_lt
      have same : (UInt32.ofNat k).toNat = k := UInt32.toNat_ofNat_of_lt' small
      obtain ⟨seed, drawn⟩ := (draws.sample_eq_some_iff room).mpr
        ⟨UInt32.le_iff_toNat_le.mpr (same.symm ▸ least),
          UInt32.lt_iff_toNat_lt.mpr (same.symm ▸ below)⟩
      exact ⟨seed, _, drawn, same⟩
    · rintro ⟨seed, polls, drawn, rfl⟩
      obtain ⟨least, below⟩ := (draws.sample_eq_some_iff room).mp ⟨seed, drawn⟩
      exact ⟨UInt32.le_iff_toNat_le.mp least, UInt32.lt_iff_toNat_lt.mp below⟩
  · simp only [allows, if_neg room, decide_eq_true_eq, sample_of_not_lt room]
    constructor
    · rintro rfl
      obtain ⟨seed, -⟩ := draws.reaches 0 1 0 (by decide) (by decide)
      exact ⟨seed, _, rfl, rfl⟩
    · rintro ⟨-, polls, drawn, rfl⟩
      cases drawn
      rfl

end Draws

/-- A number of polls is drawn for any two words, and it is at least one. It is any number of the
normalized range, or the largest word where that range holds nothing. -/
theorem sample_in_range (draws : Draws draw) (min max : UInt32) :
    let jitter : PollJitter := ⟨min, max⟩
    let n := create min max
    (n.min.toNat = Max.max min.toNat 1 ∧
      n.max.toNat = Max.max max.toNat (Min.min (n.min.toNat + 1) 0xFFFFFFFF)) ∧
    create n.min n.max = n ∧
    (∀ low high, jitter.asked? = some (low, high) → low < high) ∧
    (∀ seed, n.sample draw seed = jitter.sample draw seed) ∧
    (∀ seed, ∃ polls, jitter.sample draw seed = some polls ∧ 1 ≤ polls) ∧
    (n.min < n.max → ∀ polls, (∃ seed, jitter.sample draw seed = some polls) ↔
      n.min ≤ polls ∧ polls < n.max) ∧
    (¬n.min < n.max → ∀ seed, jitter.sample draw seed = some 0xFFFFFFFF) ∧
    ∀ k, jitter.allows k = true ↔
      ∃ seed polls, jitter.sample draw seed = some polls ∧ polls.toNat = k := by
  intro jitter n
  refine ⟨⟨toNat_min_create min max, toNat_max_create min max⟩, create_create min max,
    fun _ _ => lt_of_asked, sample_normalized jitter, draws.exists_sample jitter, ?_, ?_,
    draws.allows_iff⟩
  · intro (room : jitter.normalized.min < jitter.normalized.max) polls
    exact draws.sample_eq_some_iff room
  · intro (full : ¬jitter.normalized.min < jitter.normalized.max) seed
    rw [sample_of_not_lt full, min_eq_last full]

/-- A generator that takes the remainder of its seed, and fails where the range is empty. -/
def remainder (seed low high : UInt32) : Option UInt32 :=
  if low < high then some (low + seed % (high - low)) else none

theorem draws_remainder : Draws remainder where
  within seed low high room := by
    have order := UInt32.lt_iff_toNat_lt.mp room
    have bound := high.toNat_lt
    have width : (high - low).toNat = high.toNat - low.toNat :=
      UInt32.toNat_sub_of_le _ _ (UInt32.le_of_lt room)
    have rest : seed.toNat % (high.toNat - low.toNat) < high.toNat - low.toNat :=
      Nat.mod_lt _ (Nat.sub_pos_of_lt order)
    have sum : (low + seed % (high - low)).toNat =
        low.toNat + seed.toNat % (high.toNat - low.toNat) := by
      rw [UInt32.toNat_add, UInt32.toNat_mod, width]
      exact Nat.mod_eq_of_lt (by omega)
    refine ⟨_, if_pos room, ?_, ?_⟩
    · rw [UInt32.le_iff_toNat_le, sum]
      exact Nat.le_add_right ..
    · rw [UInt32.lt_iff_toNat_lt, sum]
      omega
  reaches low high word least below := by
    have room : low < high := UInt32.lt_of_le_of_lt least below
    have short : word - low < high - low := by
      rw [UInt32.lt_iff_toNat_lt, UInt32.toNat_sub_of_le _ _ least,
        UInt32.toNat_sub_of_le _ _ (UInt32.le_of_lt room)]
      exact Nat.sub_lt_sub_right (UInt32.le_iff_toNat_le.mp least)
        (UInt32.lt_iff_toNat_lt.mp below)
    refine ⟨word - low, ?_⟩
    rw [remainder, if_pos room, UInt32.mod_eq_of_lt short, UInt32.add_comm,
      UInt32.sub_add_cancel]

/-- Words in the wrong order make a range of one number, and the largest word one of none. -/
theorem samples_of_remainder :
    Draws remainder ∧ create 4 2 = ⟨4, 5⟩ ∧
      (∀ polls, (∃ seed, sample remainder ⟨4, 2⟩ seed = some polls) ↔ 4 ≤ polls ∧ polls < 5) ∧
      ∀ seed, sample remainder ⟨0xFFFFFFFF, 0⟩ seed = some 0xFFFFFFFF := by
  obtain ⟨-, -, -, -, -, inside, -⟩ := sample_in_range draws_remainder 4 2
  obtain ⟨-, -, -, -, -, -, last, -⟩ := sample_in_range draws_remainder 0xFFFFFFFF 0
  exact ⟨draws_remainder, by decide, inside (by decide), last (by decide)⟩

end Sample

end Bearer.PollJitter

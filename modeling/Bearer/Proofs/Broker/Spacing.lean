import Mathlib
import Bearer.Proofs.Broker.Schedule
import Bearer.Proofs.Broker.Tuning
import Bearer.Proofs.Source.Validity

/-!
The renewal does not spin. Every interval that it sleeps for is that of a credential that lives, or
the fallback. So no two of its fetches begin at one moment if the fallback is some time. Where the
fallback is nothing, it fetches as often as its source fails, and the clock stands still.
-/
namespace Bearer

namespace Time.Span

variable {span : Span}

theorem toInterval?_of_nonpos (past : span.nanos ≤ 0) :
    span.toInterval? = none ∨ span.toInterval? = some .zero := by
  obtain ⟨n⟩ := span
  cases n with
  | ofNat n =>
      cases Int.ofNat_eq_zero.mp (Int.le_antisymm past (Int.natCast_nonneg n))
      exact .inr rfl
  | negSucc n => exact .inl rfl

theorem toInterval?_of_pos (positive : 0 < span.nanos) (bounded : span.nanos < Interval.bound) :
    ∃ interval : Interval, span.toInterval? = some interval ∧
      (interval.nanos : Int) = span.nanos := by
  obtain ⟨n⟩ := span
  cases n with
  | ofNat n =>
      have within : n < Interval.bound := Int.ofNat_lt.mp bounded
      exact ⟨⟨n, within⟩, dif_pos within, rfl⟩
  | negSucc n => exact absurd positive (by simp)

end Time.Span

/-- The calendar is shorter than the longest interval. -/
theorem Credential.validFor_lt_bound {value : String} {obtainedAt : Time.Instant}
    {validFor : Time.Span} {c : Credential} (created : create value obtainedAt validFor = .ok c) :
    validFor.nanos < Time.Interval.bound := by
  obtain ⟨ended, -, -⟩ := create_eq_ok.mp created
  have shown := (Time.Instant.add?_eq_some ended).1
  have first := obtainedAt.earliest_le
  have last := c.validUntil.lt_limit
  simp only [Time.Instant.earliest, Time.Instant.limit, Time.firstDay, Time.endDay,
    Time.secondsPerDay, Time.nanosPerSecond] at first last
  simp only [Time.Interval.bound, Time.nanosPerSecond]
  omega

namespace Config

variable {config : Config} {c : Credential}

theorem nextInterval_of_lives (positive : 0 < c.lifetime.nanos)
    (bounded : c.lifetime.nanos < Time.Interval.bound) :
    ((config.nextInterval (.ok c)).nanos : Int) = c.lifetime.nanos := by
  obtain ⟨interval, taken, same⟩ := Time.Span.toInterval?_of_pos positive bounded
  have length : interval.nanos ≠ 0 := by omega
  simpa [nextInterval, taken, length] using same

theorem nextInterval_of_past (past : c.lifetime.nanos ≤ 0) :
    config.nextInterval (.ok c) = config.fallbackInterval := by
  obtain taken | taken := Time.Span.toInterval?_of_nonpos past
  all_goals simp [nextInterval, taken, Time.Interval.zero]

/-- An interval is the fallback, or a lifetime that is not over at once. -/
theorem nextInterval_pos (fallback : 0 < config.fallbackInterval.nanos)
    (outcome : Except Error Credential) : 0 < (config.nextInterval outcome).nanos := by
  simp only [nextInterval]
  split
  · exact fallback
  · split
    · exact fallback
    · split
      · exact fallback
      · exact Nat.pos_of_ne_zero ‹_›

end Config

namespace Broker

/-- The renewal begins a fetch with this input. -/
def renews (b : Broker) (now : Nat) (input : Input) : Bool :=
  match (b.step now input).next, input.party? with
  | .fetch, some .renewal => true
  | _, _ => false

/-- The moments of a run at which the renewal begins a fetch. -/
def renewals (b : Broker) : List (Nat × Input) → List Nat
  | [] => []
  | (now, input) :: rest =>
    (if b.renews now input then [now] else []) ++ (b.step now input).broker.renewals rest

section Steps

variable {b : Broker} {now moment since : Nat} {input : Input}

theorem renews_iff : b.renews now input = true ↔
    (b.step now input).next = .fetch ∧ input.party? = some .renewal := by
  simp only [renews]
  split <;> simp_all

/-- What a renewal sleeps for ends after `since`, and where it stands in line it got there later. -/
def Renewal.Trails (now since : Nat) : Renewal → Prop
  | .armed deadline _ => since < deadline
  | .queued _ => since < now
  | .fetching _ | .stopped => True

/-- The renewal, which has fetched at `since`, fetches again only when the clock has moved on. -/
structure Unhurried (b : Broker) (now since : Nat) : Prop where
  fallback : 0 < b.config.fallbackInterval.nanos
  published : 0 < b.published.nanos
  order : since ≤ now
  trails : b.renewal.Trails now since

theorem Renewal.Trails.later {renewal : Renewal} (trails : renewal.Trails now since)
    (order : now ≤ moment) : renewal.Trails moment since := by
  cases renewal with
  | queued seen => exact Nat.lt_of_lt_of_le trails order
  | armed _ _ | fetching _ | stopped => exact trails

theorem Tries.after {seen : Nat} (tries : b.Tries moment seen input)
    (trails : b.renewal.Trails moment since) : since < moment := by
  cases tries with
  | timer deadline seen found ripe =>
      rw [found] at trails
      exact Nat.lt_of_lt_of_le trails ripe
  | acquire seen found =>
      rw [found] at trails
      exact trails

/-- A timer that is set for some time ends later than it is set. -/
theorem Renewal.trails_armed {interval : Time.Interval} (order : since ≤ now)
    (positive : 0 < interval.nanos) (seen : Nat) :
    (Renewal.armed (now + interval.nanos) seen).Trails now since := by
  change since < now + interval.nanos
  omega

/-- After a step the renewal trails the fetch that it begins, or the one before. -/
theorem Shift.trails {ran : Ran} (shift : b.Shift now input ran) (order : since ≤ now)
    (trails : b.renewal.Trails now since) (published : 0 < b.published.nanos)
    (fallback : 0 < b.config.fallbackInterval.nanos) (latest : Nat)
    (counts : latest = since ∨ ran.next = .fetch ∧ input.party? = some .renewal) :
    ran.broker.renewal.Trails now latest := by
  cases shift with
  | fetches _ _ _ _ renewal | stops _ _ renewal =>
      rw [renewal]
      trivial
  | aside renewal _ _ _ next =>
      obtain rfl | ⟨fetch, own⟩ := counts
      · exact renewal ▸ trails
      · cases (next own).symm.trans fetch
  | left _ own _ renewal | landed _ _ own _ _ renewal =>
      obtain rfl | ⟨_, other⟩ := counts
      · exact renewal ▸ trails
      · simp [own, Input.party?] at other
  | waits seen tries _ renewal _ _ next =>
      obtain rfl | ⟨fetch, -⟩ := counts
      · exact renewal ▸ tries.after trails
      · cases next.symm.trans fetch
  | rearms _ _ _ _ _ renewal _ _ next | skips _ _ _ _ renewal _ _ next =>
      obtain rfl | ⟨fetch, -⟩ := counts
      · exact renewal ▸ Renewal.trails_armed order published _
      · cases next.symm.trans fetch
  | renewed _ outcome _ _ _ renewal _ _ next =>
      obtain rfl | ⟨fetch, -⟩ := counts
      · exact renewal ▸ Renewal.trails_armed order (Config.nextInterval_pos fallback outcome) _
      · cases next.symm.trans fetch

theorem published_step (fallback : 0 < b.config.fallbackInterval.nanos)
    (published : 0 < b.published.nanos) : 0 < (b.step now input).broker.published.nanos := by
  have stored := congrArg Memory.published (memory_step b now input)
  have same : (b.step now input).broker.published = (b.remembered now input).published := stored
  rw [same]
  cases input with
  | land party outcome =>
      rw [remembered]
      split
      · cases party with
        | caller id => exact Config.nextInterval_pos fallback outcome
        | renewal => exact published
      · exact published
  | _ => exact published

/-- A step keeps the renewal unhurried, counted from the fetch that the renewal begins with it. -/
theorem Unhurried.step (h : b.Unhurried now since) (orderly : b.Orderly) (order : now ≤ moment) :
    (b.step moment input).broker.Unhurried moment
      (if b.renews moment input then moment else since) := by
  have since_moment := Nat.le_trans h.order order
  refine ⟨(config_step b moment input).symm ▸ h.fallback, published_step h.fallback h.published, ?_,
    (step_shift orderly moment input).trails since_moment (h.trails.later order) h.published
      h.fallback _ ?_⟩
  all_goals split
  · exact Nat.le_refl moment
  · exact since_moment
  · exact .inr (renews_iff.mp ‹_›)
  · exact .inl rfl

theorem Unhurried.renews (h : b.Unhurried now since) (orderly : b.Orderly) (order : now ≤ moment)
    (begins : b.renews moment input = true) : since < moment := by
  obtain ⟨fetch, own⟩ := renews_iff.mp begins
  obtain ⟨tries, -⟩ := (step_shift orderly moment input).fetch own fetch
  exact tries.after (h.trails.later order)

/-- By induction on the run: the renewal begins its fetches at later and later moments. -/
theorem Unhurried.renewals {inputs : List (Nat × Input)} (h : b.Unhurried now since)
    (orderly : b.Orderly) (times : (now :: inputs.map Prod.fst).Pairwise (· ≤ ·)) :
    (since :: b.renewals inputs).Pairwise (· < ·) := by
  induction inputs generalizing b now since with
  | nil => exact List.pairwise_singleton _ since
  | cons timed rest ih =>
      obtain ⟨moment, input⟩ := timed
      obtain ⟨from_now, later⟩ := List.pairwise_cons.mp times
      have order : now ≤ moment := from_now moment List.mem_cons_self
      have increase := ih (h.step orderly order) (orderly.step moment input) later
      rw [Broker.renewals]
      by_cases begins : b.renews moment input = true
      · rw [if_pos begins] at increase ⊢
        have first := h.renews orderly order begins
        exact List.pairwise_cons_cons_iff_of_trans.mpr ⟨first, increase⟩
      · rw [if_neg begins] at increase ⊢
        exact increase

end Steps

section Spin

variable {b : Broker} {now : Nat} {error : Error}

/-- The timer fires and the fetch fails, again and again at one moment. -/
def spin (now : Nat) (error : Error) : Nat → List (Nat × Input)
  | 0 => []
  | n + 1 => (now, .timer) :: (now, .land .renewal (.error error)) :: spin now error n

theorem punctual_spin (n : Nat) : b.Punctual now (spin now error n) := by
  have stands : ∀ c : Broker, c.Still now now := fun c =>
    ⟨Nat.le_refl now, fun _ _ after before => absurd after (Nat.not_le.mpr before)⟩
  induction n generalizing b with
  | zero => trivial
  | succ n ih => exact ⟨stands _, stands _, ih⟩

/-- A renewal that falls back to nothing is where it was as soon as its fetch has failed. -/
theorem renewals_spin (nothing : b.config.fallbackInterval.nanos = 0) (free : b.lock = none)
    (armed : b.renewal = .armed now b.version) (n : Nat) :
    b.renewals (spin now error n) = List.replicate n now := by
  induction n generalizing b with
  | zero => rfl
  | succ n ih =>
      let fetching : Broker :=
        { b with
          lock := some .renewal
          renewal := .fetching b.version
          counters := b.counters.renewal.fetch }
      have begun : (b.step now .timer).broker = fetching ∧ b.renews now .timer = true := by
        simp [renews, step, armed, contendRenewal, free, renew, Input.party?, fetching]
      have landed : fetching.step now (.land .renewal (.error error)) =
          fetching.landRenewal now b.version (.error error) := rfl
      have quiet : fetching.renews now (.land .renewal (.error error)) = false := rfl
      have again := ih (b := (fetching.landRenewal now b.version (.error error)).broker)
        (by simp [landRenewal, arm, unlock_fst, countBy, fetching, nothing])
        (by simp [landRenewal, arm, unlock_fst, countBy])
        (by simp [landRenewal, arm, unlock_fst, countBy, fetching, Config.nextInterval, nothing])
      simp [spin, renewals, begun, landed, quiet, again, List.replicate_succ]

end Spin

section Runs

open Config (Base Setting)

/-- The renewal waits as long as a credential lives, and else for the fallback. If the fallback was
set or the base has one, no two of its fetches begin at one moment, nor does one when the broker is
made. Otherwise it fetches any number of times at the moment at which its source fails. -/
theorem renewal_spins_only_unset {base : Base} {settings : List Setting} {config : Config}
    (obtained : Config.obtain? base settings = some config) :
    let safe := (∃ setting ∈ settings, setting.isFallback = true) ∨ 0 < base.fallback.nanos
    (∀ error, config.nextInterval (.error error) = config.fallbackInterval) ∧
    (∀ value obtainedAt validFor c, Credential.create value obtainedAt validFor = .ok c →
      c.lifetime = validFor ∧
      (0 < validFor.nanos → ((config.nextInterval (.ok c)).nanos : Int) = validFor.nanos) ∧
      (validFor.nanos ≤ 0 → config.nextInterval (.ok c) = config.fallbackInterval)) ∧
    ((∀ outcome, 0 < (config.nextInterval outcome).nanos) ↔ safe) ∧
    (safe → ∀ start outcome inputs, (start :: inputs.map Prod.fst).Pairwise (· ≤ ·) →
      (start :: (create config start outcome).renewals inputs).Pairwise (· < ·)) ∧
    (¬safe → ∀ start error n,
      let founded := create config start (.error error)
      founded.Punctual start (spin start error n) ∧
        founded.renewals (spin start error n) = List.replicate n start) := by
  intro safe
  have positive : 0 < config.fallbackInterval.nanos ↔ safe := Config.fallback_pos_iff obtained
  refine ⟨fun error => rfl, ?_, ?_, ?_, ?_⟩
  · intro value obtainedAt validFor c created
    obtain ⟨ended, -, same⟩ := Credential.create_eq_ok.mp created
    have lifetime : c.lifetime = validFor := Grant.lifetime_of_add (same.symm ▸ ended)
    have bounded := Credential.validFor_lt_bound created
    subst lifetime
    exact ⟨rfl, fun lives => Config.nextInterval_of_lives lives bounded,
      Config.nextInterval_of_past⟩
  · rw [← positive]
    exact ⟨fun all => all (.error (.network "")), Config.nextInterval_pos⟩
  · intro isSafe start outcome inputs times
    have fallback := positive.mpr isSafe
    have interval := Config.nextInterval_pos fallback outcome
    have unhurried : (create config start outcome).Unhurried start start :=
      ⟨fallback, interval, Nat.le_refl start,
        Renewal.trails_armed (Nat.le_refl start) interval 0⟩
    exact unhurried.renewals (orderly_create config start outcome) times
  · intro unset start error n founded
    have nothing : config.fallbackInterval.nanos = 0 :=
      Nat.eq_zero_of_not_pos fun fallback => unset (positive.mp fallback)
    have armed : founded.renewal = .armed start founded.version := by
      simp [founded, create, Config.nextInterval, nothing]
    exact ⟨punctual_spin n, renewals_spin nothing rfl armed n⟩

/-- A document that tells a fallback of no length. -/
def hasteDocument : String :=
  "\x7b\"fallback_interval\":\x7b\"secs\":0,\"nanos\":0\x7d\x7d"

/-- A fallback of no length is raised by a later setting, and the fetches are a second apart. -/
theorem renewals_apart_once_set :
    let settings : List Setting := [.pollJitter 0 0, .fallbackInterval .zero]
    let config : Config :=
      { Config.default with fallbackInterval := .ofSeconds 1, pollJitter := ⟨1, 2⟩ }
    let failed : Input := .land .renewal (.error (.network "down"))
    let inputs : List (Nat × Input) :=
      [(1000000000, .timer), (1000000000, failed), (1000000000, .timer), (2000000000, .timer)]
    let founded := create config 0 (.error (.network "down"))
    Config.obtain? (.document hasteDocument) settings = some config ∧
      (0 :: founded.renewals inputs).Pairwise (· < ·) ∧
      founded.renewals inputs = [1000000000, 2000000000] := by
  intro settings config failed inputs founded
  have obtained : Config.obtain? (.document hasteDocument) settings = some config := by
    decide +kernel
  obtain ⟨-, -, -, apart, -⟩ := renewal_spins_only_unset obtained
  refine ⟨obtained, apart (.inl ⟨.fallbackInterval .zero, ?_, rfl⟩) 0 _ inputs ?_, rfl⟩
  · simp [settings]
  · simp [inputs]

/-- The document alone is taken as it is written: the credential has lived a second, the fetch fails,
the renewal waits for nothing, and its next fetch begins at the same moment. -/
theorem renewals_at_once_by_document :
    let config : Config := { Config.default with fallbackInterval := .zero }
    let error : Error := .network "flap"
    let first := { sample "first" with validUntil := ⟨1000000000, 0, by decide, by decide⟩ }
    let founded := create config 0 (.ok first)
    Config.obtain? (.document hasteDocument) [] = some config ∧
      config.nextInterval (.error error) = .zero ∧
      founded.Punctual 0 (spin 1000000000 error 2) ∧
      founded.renewals (spin 1000000000 error 2) = [1000000000, 1000000000] := by
  intro config error first founded
  have obtained : Config.obtain? (.document hasteDocument) [] = some config := by
    decide +kernel
  have punctual : founded.Punctual 0 (spin 1000000000 error 2) :=
    punctual_of_isPunctual (by decide +kernel)
  exact ⟨obtained, rfl, punctual, rfl⟩

end Runs

end Broker

end Bearer

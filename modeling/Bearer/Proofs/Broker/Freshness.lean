import Bearer.Proofs.Broker.Snapshots

/-!
How long a credential is served. One that has lived its time is still served while another is
fetched, and no longer, unless refreshes are not debounced: then a caller that leaves in the middle
of its fetch may have held up the renewal, which counts its interval only from there.
-/
namespace Bearer

/-- The next fetch is not later than the end of a lifetime that is positive. -/
theorem Config.nextInterval_le (config : Config) {c : Credential}
    (positive : 0 < c.lifetime.nanos) :
    ((config.nextInterval (.ok c)).nanos : Int) ≤ c.lifetime.nanos := by
  simp only [Config.nextInterval, Time.Span.toInterval?]
  cases nanos : c.lifetime.nanos with
  | ofNat n =>
      have some_time : n ≠ 0 := by
        rintro rfl
        simp [nanos] at positive
      by_cases short : n < Time.Interval.bound
      · simp [Time.Interval.ofNanos?, short, some_time]
      · simp only [Time.Interval.ofNanos?, dif_neg short]
        have fallback := config.fallbackInterval.lt_bound
        exact Int.ofNat_le.mpr (by omega)
  | negSucc n => simp [nanos] at positive

namespace Broker

/-- The renewal has missed a schedule only where a refresh has landed at this moment and the lock is
free. -/
def Alert (b : Broker) (now : Nat) : Prop :=
  ∀ seen, b.renewal.seen? = some seen → seen < b.version →
    b.lastRefresh = some now ∧ b.lock = none

section Alert

variable {b : Broker} {now : Nat} {input : Input}

theorem Alert.step (h : b.Alert now) (orderly : b.Orderly)
    (window : 0 < b.config.debounceWindow.nanos) : (b.step now input).broker.Alert now := by
  intro seen saw stale
  have keeps : b.lastRefresh = some now → (b.step now input).broker.lastRefresh = some now := by
    intro last
    rw [lastRefresh_step, last, ite_self]
  cases step_shift orderly now input with
  | aside renewal schedule lock landing next =>
      obtain ⟨last, free⟩ := h seen (renewal ▸ saw) (schedule.1 ▸ stale)
      refine ⟨keeps last, ?_⟩
      cases lock with
      | inl same => exact same.trans free
      | inr taken =>
          have settled : b.Settled now := ⟨last, by simp [free]⟩
          have recent := settled.debounced (Nat.le_refl now) (by omega)
          cases taken.2.1.symm.trans recent
  | left id own held renewal schedule lock =>
      have free := (h seen (renewal ▸ saw) (schedule.1 ▸ stale)).2
      cases held.symm.trans free
  | landed id outcome own landing held renewal version published lock =>
      have lands : b.landsRefresh input = true := by
        simp [own, landsRefresh, (orderly.holds _).mpr held]
      exact ⟨by rw [lastRefresh_step, if_pos lands], lock⟩
  | waits _ tries taken renewal schedule lock next =>
      rw [renewal] at saw
      cases saw
      exact absurd (h seen tries.saw (schedule.1 ▸ stale)).2 taken
  | renewed _ outcome own landing found renewal schedule lock next =>
      rw [renewal] at saw
      cases saw
      have free := (h seen (congrArg Renewal.seen? found) (schedule.1 ▸ stale)).2
      have held := (orderly.holds .renewal).mp (phase_fetching_renewal.mpr ⟨seen, found⟩)
      cases held.symm.trans free
  | rearms _ _ _ _ _ renewal schedule | skips _ _ _ _ renewal schedule =>
      rw [renewal] at saw
      cases saw
      exact absurd schedule.1 (Nat.ne_of_gt stale)
  | fetches _ _ _ current renewal schedule =>
      rw [renewal] at saw
      cases saw
      exact absurd (schedule.1.trans current) (Nat.ne_of_gt stale)
  | stops own last renewal lock next =>
      rw [renewal] at saw
      cases saw

theorem Alert.later {till : Nat} (h : b.Alert now) (orderly : b.Orderly)
    (still : b.Still now till) : b.Alert till := by
  obtain same | moves := Nat.eq_or_lt_of_le still.1
  · exact same ▸ h
  intro seen saw stale
  obtain ⟨_, free⟩ := h seen saw stale
  have asleep := still.2 now .renewal (Nat.le_refl now) moves
  cases found : b.renewal with
  | armed deadline other =>
      rw [found] at saw
      cases saw
      simp [ready, found, Nat.ne_of_gt stale] at asleep
  | queued other =>
      have standing := (orderly.waits .renewal).mp (phase_queued_renewal.mpr ⟨other, found⟩)
      rw [still.queue orderly moves free] at standing
      cases standing
  | fetching other =>
      have held := (orderly.holds .renewal).mp (phase_fetching_renewal.mpr ⟨other, found⟩)
      cases held.symm.trans free
  | stopped =>
      rw [found] at saw
      cases saw

theorem Alert.not_holdsUp {since : Nat} {interval : Time.Interval} (h : b.Alert now)
    (timely : b.Timely now since interval) : b.holdsUp input = false := by
  cases input with
  | cancel id =>
      cases found : b.renewal with
      | queued seen =>
          have saw : b.renewal.seen? = some seen := congrArg Renewal.seen? found
          obtain current | stale := Nat.eq_or_lt_of_le (timely.seen_le saw)
          · simp [holdsUp, found, current]
          · simp [holdsUp, (h seen saw stale).2]
      | armed _ _ | fetching _ | stopped => simp [holdsUp, found]
  | _ => rfl

end Alert

section Runs

variable {config : Config} {start : Nat} {outcome : Except Error Credential}
  {inputs : List (Nat × Input)}

theorem alert_after (window : 0 < config.debounceWindow.nanos)
    (punctual : (create config start outcome).Punctual start inputs) :
    ((create config start outcome).after inputs).Alert (clock start inputs) := by
  have orderly := (orderly_create config start outcome).after
  induction inputs using List.reverseRecOn with
  | nil =>
      intro seen saw stale
      cases saw
      exact absurd stale (Nat.lt_irrefl 0)
  | append_singleton inputs timed ih =>
      obtain ⟨now, input⟩ := timed
      obtain ⟨before, still⟩ := punctual_concat.mp punctual
      have same : ((create config start outcome).after inputs).config = config := config_after ..
      rw [after_append, clock_concat]
      exact ((ih before).later (orderly inputs) still).step (orderly inputs) (same.symm ▸ window)

/-- Where refreshes are debounced, nothing holds the renewal up. -/
theorem not_heldUp_of_window (window : 0 < config.debounceWindow.nanos)
    (punctual : (create config start outcome).Punctual start inputs) (moment : Nat) :
    ¬ (create config start outcome).HeldUp inputs moment := by
  rintro ⟨earlier, input, later, rfl, holds⟩
  have orderly := (orderly_create config start outcome).after earlier
  obtain ⟨before, still, _⟩ := punctual_append.mp punctual
  obtain ⟨since, timely, _⟩ := timely_before punctual
  have alert := (alert_after window before).later orderly still
  simp [alert.not_holdsUp timely] at holds

theorem outcome_after (unwritten : ∀ timed ∈ inputs, ∀ landed, timed.2 ≠ .write landed) :
    ((create config start outcome).after inputs).store.current.outcome =
      ((create config start outcome).lastLanding (start, outcome) inputs).2 := by
  induction inputs using List.reverseRecOn with
  | nil => rfl
  | append_singleton inputs timed ih =>
      obtain ⟨now, input⟩ := timed
      have earlier := ih fun timed member => unwritten timed (by simp [member])
      have store := store_step (b := (create config start outcome).after inputs)
        (unwritten (now, input) (by simp)) now
      rw [after_append, lastLanding_concat, after_cons, after_nil, store]
      cases ((create config start outcome).after inputs).landing? input with
      | some landed => rfl
      | none => exact earlier

theorem handles_leave (b : Broker) (party : Party) :
    (b.leave party).broker.handles = b.handles := by
  obtain ⟨_, _, _, same⟩ := b.leave_eq party
  rw [same]

/-- While there is a handle, the renewal goes on. -/
theorem renewal_running
    (live : ∀ earlier, earlier <+: inputs →
      0 < ((create config start outcome).after earlier).handles) :
    ((create config start outcome).after inputs).renewal ≠ .stopped := by
  have orderly := (orderly_create config start outcome).after
  induction inputs using List.reverseRecOn with
  | nil => exact nofun
  | append_singleton inputs timed ih =>
      obtain ⟨now, input⟩ := timed
      have running := ih fun earlier initial => live earlier (initial.trans (List.prefix_append ..))
      have handles := live _ List.prefix_rfl
      rw [after_append] at handles ⊢
      intro stopped
      cases step_shift (orderly inputs) now input with
      | aside renewal | left _ _ _ renewal | landed _ _ _ _ _ renewal =>
          exact running (renewal.symm.trans stopped)
      | rearms _ _ _ _ _ renewal | waits _ _ _ renewal | skips _ _ _ _ renewal
      | fetches _ _ _ _ renewal | renewed _ _ _ _ _ renewal =>
          cases renewal.symm.trans stopped
      | stops own last renewal lock next =>
          subst own
          simp [Broker.step, dropHandle, last, handles_leave] at handles

theorem Orderly.fetching {b : Broker} (orderly : b.Orderly) (taken : b.lock ≠ none) :
    ∃ party, b.phase party = .fetching := by
  obtain ⟨party, held⟩ := Option.ne_none_iff_exists'.mp taken
  exact ⟨party, (orderly.holds party).mpr held⟩

/-- Where nobody has anything to do, the timer is set by the last schedule and has not run out, or
somebody fetches. -/
theorem Timely.idle {b : Broker} {now since : Nat} {interval : Time.Interval}
    (h : b.Timely now since interval) (orderly : b.Orderly)
    (idle : ∀ party, b.ready now party = false) (running : b.renewal ≠ .stopped) :
    now < since + interval.nanos ∨ ∃ party, b.phase party = .fetching := by
  have engaged : ∀ seen, b.renewal = .queued seen → b.lock ≠ none := by
    intro seen found free
    have standing := (orderly.waits .renewal).mp (phase_queued_renewal.mpr ⟨seen, found⟩)
    obtain ⟨party, ready⟩ := orderly.head_ready free (List.ne_nil_of_mem standing) now
    simp [idle party] at ready
  have asleep := idle .renewal
  cases h with
  | armed found early =>
      simp only [ready, found, ne_eq, not_true_eq_false, decide_false, Bool.false_or,
        decide_eq_false_iff_not] at asleep
      exact .inl (Nat.lt_of_not_le asleep)
  | behind deadline seen found stale published fresh =>
      simp [ready, found, Nat.ne_of_gt stale] at asleep
  | waiting found => exact .inr (orderly.fetching (engaged _ found))
  | outrun seen found => exact .inr (orderly.fetching (engaged seen found))
  | fetching found => exact .inr ⟨.renewal, phase_fetching_renewal.mpr ⟨_, found⟩⟩
  | stopped found => exact absurd found running

/-- A credential is served after its lifetime only while somebody fetches, except where refreshes
are not debounced and a caller has left since the credential landed that held the renewal up: then
the renewal counts the lifetime from the moment at which that caller left. -/
theorem spent_only_while_fetching {t : Nat} {c : Credential}
    (punctual : (create config start outcome).Punctual start inputs)
    (still : ((create config start outcome).after inputs).Still (clock start inputs) t)
    (idle : ∀ party, ((create config start outcome).after inputs).ready t party = false)
    (live : ∀ earlier, earlier <+: inputs →
      0 < ((create config start outcome).after earlier).handles)
    (unwritten : ∀ timed ∈ inputs, ∀ landed, timed.2 ≠ .write landed)
    (holds : ((create config start outcome).after inputs).store.current.outcome = .ok c)
    (positive : 0 < c.lifetime.nanos) :
    let founded := create config start outcome
    ∃ s, founded.lastLanding (start, outcome) inputs = (s, .ok c) ∧
      (s + c.lifetime.nanos < t →
        (∃ party, (founded.after inputs).phase party = .fetching) ∨
          config.debounceWindow.nanos = 0 ∧
            ∃ left, s < left ∧ t < left + c.lifetime.nanos ∧ founded.HeldUp inputs left) := by
  intro founded
  have orderly := (orderly_create config start outcome).after inputs
  obtain ⟨s, latest⟩ :
      ∃ s, (create config start outcome).lastLanding (start, outcome) inputs = (s, .ok c) :=
    ⟨_, Prod.ext rfl ((outcome_after unwritten).symm.trans holds)⟩
  refine ⟨s, latest, fun spent => ?_⟩
  obtain ⟨since, timely, counted⟩ := timely_after punctual
  simp only [latest] at timely counted
  have soon := config.nextInterval_le positive
  obtain early | fetching :=
    (timely.later orderly still).idle orderly idle (renewal_running live)
  · cases counted with
    | inl same => omega
    | inr held =>
        refine .inr ⟨?_, since, held.1, by omega, held.2⟩
        exact Nat.eq_zero_of_not_pos fun window => not_heldUp_of_window window punctual since held.2
  · exact .inl fetching

/-- A credential that lives ten seconds, to be used in fixed runs. -/
def brief (value : String) : Credential :=
  { sample value with validUntil := ⟨10000000000, 0, by decide, by decide⟩ }

/-- The renewal fetches as soon as the first credential has lived its time. -/
theorem spent_while_renewed :
    let founded := create .default 0 (.ok (brief "first"))
    let inputs : List (Nat × Input) := [(10000000000, .timer)]
    let b := founded.after inputs
    founded.Punctual 0 inputs ∧ b.Still (clock 0 inputs) 11000000000 ∧
      (∀ party, b.ready 11000000000 party = false) ∧
      (∀ earlier, earlier <+: inputs → 0 < (founded.after earlier).handles) ∧
      (∀ timed ∈ inputs, ∀ landed, timed.2 ≠ .write landed) ∧
      b.store.current.outcome = .ok (brief "first") ∧ 0 < (brief "first").lifetime.nanos ∧
      (0 : Nat) + (brief "first").lifetime.nanos < (11000000000 : Nat) ∧
      ∃ party, b.phase party = .fetching := by
  intro founded inputs b
  have punctual : founded.Punctual 0 inputs := punctual_of_isPunctual (by decide +kernel)
  have resting : b.Still (clock 0 inputs) 11000000001 := still_of_isStill (by decide +kernel)
  have still : b.Still (clock 0 inputs) 11000000000 :=
    ⟨by decide, fun moment party since till => resting.2 moment party since (by omega)⟩
  have idle : ∀ party, b.ready 11000000000 party = false := fun party =>
    resting.2 11000000000 party (by decide) (by decide)
  have live : ∀ earlier, earlier <+: inputs → 0 < (founded.after earlier).handles := by
    simp only [← List.mem_inits]
    decide +kernel
  have unwritten : ∀ timed ∈ inputs, ∀ landed, timed.2 ≠ .write landed := by
    simp [inputs]
  have positive : 0 < (brief "first").lifetime.nanos := by
    decide
  have spent : (0 : Nat) + (brief "first").lifetime.nanos < (11000000000 : Nat) := by
    decide
  obtain ⟨s, latest, served⟩ :=
    spent_only_while_fetching punctual still idle live unwritten rfl positive
  refine ⟨punctual, still, idle, live, unwritten, rfl, positive, spent, ?_⟩
  have since : s = 0 := (congrArg Prod.fst latest).symm
  obtain fetching | ⟨window, _⟩ := served (since ▸ spent)
  · exact fetching
  · exact absurd window (by decide)

/-- Refreshes are not debounced, and a caller begins a second fetch when the first has landed,
before the renewal has followed the first. The caller leaves two seconds later, the renewal counts ten
seconds from there, and for two seconds a credential is served that has lived its time. -/
theorem spent_while_nobody_fetches :
    let founded := create (Config.default.withDebounceWindow .zero) 5000000000 (.ok (brief "first"))
    let inputs : List (Nat × Input) :=
      [(11000000000, .force 1), (12000000000, .force 2), (15000000000, .timer),
        (16000000000, .land (.caller 1) (.ok (brief "second"))),
        (16000000000, .acquire (.caller 2)), (18000000000, .cancel 2),
        (18000000000, .acquire .renewal)]
    let b := founded.after inputs
    founded.Punctual 5000000000 inputs ∧ b.Still (clock 5000000000 inputs) 27000000000 ∧
      (∀ party, b.ready 27000000000 party = false) ∧
      (∀ earlier, earlier <+: inputs → 0 < (founded.after earlier).handles) ∧
      (∀ timed ∈ inputs, ∀ landed, timed.2 ≠ .write landed) ∧
      b.store.current.outcome = .ok (brief "second") ∧ 0 < (brief "second").lifetime.nanos ∧
      founded.lastLanding (5000000000, .ok (brief "first")) inputs =
        (16000000000, .ok (brief "second")) ∧
      (16000000000 : Nat) + (brief "second").lifetime.nanos < (27000000000 : Nat) ∧
      ∀ party, b.phase party ≠ .fetching := by
  intro founded inputs b
  have punctual : founded.Punctual 5000000000 inputs := punctual_of_isPunctual (by decide +kernel)
  have resting : b.Still (clock 5000000000 inputs) 27000000001 :=
    still_of_isStill (by decide +kernel)
  have live : ∀ earlier, earlier <+: inputs → 0 < (founded.after earlier).handles := by
    simp only [← List.mem_inits]
    decide +kernel
  have free : b.lock = none := by
    decide +kernel
  have nobody : ∀ party, b.phase party ≠ .fetching := by
    intro party fetching
    have held := (((orderly_create ..).after inputs).holds party).mp fetching
    cases held.symm.trans free
  have latest : founded.lastLanding (5000000000, .ok (brief "first")) inputs =
      (16000000000, .ok (brief "second")) := by
    decide +kernel
  have stored : b.store.current.outcome = .ok (brief "second") := by
    decide +kernel
  refine ⟨punctual, ?_, ?_, live, ?_, stored, by decide, latest, by decide, nobody⟩
  · exact ⟨by decide, fun moment party since till => resting.2 moment party since (by omega)⟩
  · exact fun party => resting.2 27000000000 party (by decide) (by decide)
  · simp [inputs]

end Runs

end Broker

end Bearer

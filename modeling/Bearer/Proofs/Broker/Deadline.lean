import Bearer.Proofs.Broker.Schedule

/-!
When a renewal fetches. Where no caller leaves, it does so exactly one interval after the fetch that
landed last, whoever made that, and by a timer that it has set since: a timer that fires while a
refresh has the lock finds a new schedule when the lock is free.
-/
namespace Bearer.Broker

/-- The deadline for which the renewal sets its timer with this input. -/
def arms? (b : Broker) (now : Nat) (input : Input) : Option Nat :=
  match input.party?, (b.step now input).next with
  | some .renewal, .sleep deadline => some deadline
  | _, _ => none

/-- The deadlines for which the renewal sets its timer in a run. -/
def timers (b : Broker) : List (Nat × Input) → List Nat
  | [] => []
  | (now, input) :: rest => (b.arms? now input).toList ++ (b.step now input).broker.timers rest

theorem timers_concat (b : Broker) (inputs : List (Nat × Input)) (now : Nat) (input : Input) :
    b.timers (inputs ++ [(now, input)]) =
      b.timers inputs ++ ((b.after inputs).arms? now input).toList := by
  induction inputs generalizing b with
  | nil => simp [timers]
  | cons timed rest ih => simp [timers, ih]

theorem version_step (b : Broker) (now : Nat) (input : Input) :
    b.version ≤ (b.step now input).broker.version := by
  have version := congrArg Memory.version (memory_step b now input)
  cases input with
  | land party outcome =>
      simp only [remembered] at version
      split at version
      · cases party with
        | caller id => exact (Nat.le_succ b.version).trans_eq version.symm
        | renewal => exact Nat.le_of_eq version.symm
      · exact Nat.le_of_eq version.symm
  | _ => exact Nat.le_of_eq version.symm

theorem version_after (b : Broker) (inputs : List (Nat × Input)) :
    b.version ≤ (b.after inputs).version :=
  after_induction (P := fun c => b.version ≤ c.version)
    (fun c now input h => Nat.le_trans h (version_step c now input)) (Nat.le_refl _) inputs

/-- The timer of a renewal is the last one that it has set, where it has set one at all. -/
theorem armed_after {b : Broker} (orderly : b.Orderly) {inputs : List (Nat × Input)}
    {deadline seen : Nat} (found : (b.after inputs).renewal = .armed deadline seen) :
    (b.timers inputs).getLast? = some deadline ∨
      b.timers inputs = [] ∧ b.renewal = .armed deadline seen := by
  induction inputs using List.reverseRecOn with
  | nil => exact .inr ⟨rfl, found⟩
  | append_singleton inputs timed ih =>
      obtain ⟨now, input⟩ := timed
      rw [after_append] at found
      rw [timers_concat]
      obtain ⟨sleeps, own⟩ | ⟨before, quiet⟩ :=
        (step_shift (orderly.after inputs) now input).armed found
      · have arms : (b.after inputs).arms? now input = some deadline := by
          simp [arms?, sleeps, own]
        simp [arms]
      · have arms : (b.after inputs).arms? now input = none := by
          simp only [arms?]
          split
          · next own sleeps => cases (quiet own).symm.trans sleeps
          · rfl
        simpa [arms] using ih before

/-- The renewal waits for the lock only where somebody has it, or where it has missed a schedule. -/
def Engaged (b : Broker) : Prop :=
  b.renewal = .queued b.version → b.lock ≠ none

section Steps

variable {b : Broker} {now since : Nat} {interval : Time.Interval} {input : Input} {ran : Ran}

theorem Engaged.step (h : b.Engaged) (timely : b.Timely now since interval)
    (shift : b.Shift now input ran) (stays : ∀ id, input ≠ .cancel id) : ran.broker.Engaged := by
  intro queued
  cases shift with
  | aside renewal schedule lock landing next =>
      cases lock with
      | inl same =>
          rw [same]
          exact h (renewal.symm.trans (queued.trans (by rw [schedule.1])))
      | inr taken =>
          obtain ⟨_, _, id, holder⟩ := taken
          simp [holder]
  | left id own held renewal schedule lock => exact absurd own (stays id)
  | landed id outcome own landing held renewal version published lock =>
      -- the schedule that has just been published cannot have been seen
      have known := timely.seen_le (congrArg Renewal.seen? (renewal.symm.trans queued))
      omega
  | waits seen tries taken renewal schedule lock next => exact lock ▸ taken
  | rearms _ _ _ _ _ renewal | skips _ _ _ _ renewal | fetches _ _ _ _ renewal
  | renewed _ _ _ _ _ renewal | stops _ _ renewal => cases queued.symm.trans renewal

/-- The renewal has not looked at the schedule of a refresh that has just landed. -/
theorem Timely.unaware {seen : Nat} (h : b.Timely now since interval)
    (shift : b.Shift now input ran) (lands : b.landsRefresh input = true)
    (saw : ran.broker.renewal.seen? = some seen) : seen < ran.broker.version := by
  obtain ⟨id, outcome, own, landing⟩ := landing_of_landsRefresh lands
  cases shift with
  | landed _ _ _ _ held renewal version published lock =>
      rw [version]
      exact Nat.lt_succ_of_le (h.seen_le (renewal ▸ saw))
  | aside _ _ _ still => cases still.symm.trans landing
  | waits _ tries | skips _ tries | fetches _ tries => cases tries.inert.1.symm.trans landing
  | left _ other | rearms _ _ other | renewed _ _ other | stops other =>
      cases own.symm.trans other

/-- The renewal fetches by a timer, at its deadline. -/
theorem Timely.fetch (h : b.Timely now since interval) (engaged : b.Engaged)
    (shift : b.Shift now input ran) (own : input.party? = some .renewal)
    (fetches : ran.next = .fetch) :
    now = since + interval.nanos ∧ b.renewal = .armed now b.version := by
  obtain ⟨tries, free⟩ := shift.fetch own fetches
  cases tries with
  | timer deadline _ found ripe =>
      cases h with
      | armed other early =>
          cases found.symm.trans other
          have now := Nat.le_antisymm early ripe
          exact ⟨now, now ▸ found⟩
      | behind _ _ other stale =>
          cases found.symm.trans other
          exact absurd stale (Nat.lt_irrefl _)
      | waiting other | outrun _ other | fetching other | stopped other =>
          cases found.symm.trans other
  | acquire _ found => exact absurd free (engaged found)

end Steps

section Runs

variable {config : Config} {start now : Nat} {outcome : Except Error Credential}
  {inputs : List (Nat × Input)} {input : Input}

theorem engaged_after (punctual : (create config start outcome).Punctual start inputs)
    (stays : ∀ timed ∈ inputs, ∀ id, timed.2 ≠ .cancel id) :
    ((create config start outcome).after inputs).Engaged := by
  have orderly := (orderly_create config start outcome).after
  induction inputs using List.reverseRecOn with
  | nil => exact nofun
  | append_singleton inputs timed ih =>
      obtain ⟨now, input⟩ := timed
      obtain ⟨before, _⟩ := punctual_concat.mp punctual
      obtain ⟨since, timely, _⟩ := timely_before punctual
      rw [after_append]
      have engaged := ih before fun timed member => stays timed (by simp [member])
      exact engaged.step timely (step_shift (orderly inputs) now input)
        (stays (now, input) (by simp))

/-- Where no caller leaves, nothing holds the renewal up. -/
theorem not_heldUp {b : Broker} (stays : ∀ timed ∈ inputs, ∀ id, timed.2 ≠ .cancel id)
    (moment : Nat) : ¬ b.HeldUp inputs moment := by
  rintro ⟨earlier, input, later, rfl, holds⟩
  cases input with
  | cancel id => exact stays (moment, .cancel id) (by simp) id rfl
  | _ => cases holds

/-- A timer that runs by the schedule of now was set after every refresh that has landed. -/
theorem armed_since_landing {earlier between : List (Nat × Input)} {moment deadline : Nat}
    {landing : Input}
    (punctual : (create config start outcome).Punctual start
      (earlier ++ (moment, landing) :: between))
    (lands : ((create config start outcome).after earlier).landsRefresh landing = true)
    (found : ((create config start outcome).after
        (earlier ++ (moment, landing) :: between)).renewal =
      .armed deadline ((create config start outcome).after
        (earlier ++ (moment, landing) :: between)).version) :
    (((create config start outcome).after (earlier ++ [(moment, landing)])).timers
      between).getLast? = some deadline := by
  have orderly := (orderly_create config start outcome).after
  rw [List.append_cons, after_append] at found
  obtain set | ⟨_, old⟩ := armed_after (orderly _) found
  · exact set
  · obtain ⟨since, timely, _⟩ := timely_before punctual
    have grown := version_after
      ((create config start outcome).after (earlier ++ [(moment, landing)])) between
    rw [after_append] at old grown
    have unaware := timely.unaware (step_shift (orderly earlier) moment landing) lands
      (congrArg Renewal.seen? old)
    exact absurd unaware (Nat.not_lt.mpr grown)

/-- Where no caller leaves, a renewal fetches exactly one interval after the fetch that landed last.
It does so by its timer, which it has set since the last refresh landed. -/
theorem renewal_fetch_on_schedule
    (punctual : (create config start outcome).Punctual start (inputs ++ [(now, input)]))
    (stays : ∀ timed ∈ inputs, ∀ id, timed.2 ≠ .cancel id)
    (own : input.party? = some .renewal)
    (fetches : (((create config start outcome).after inputs).step now input).next = .fetch) :
    let founded := create config start outcome
    let last := founded.lastLanding (start, outcome) inputs
    now = last.1 + (config.nextInterval last.2).nanos ∧
      (founded.after inputs).renewalDeadline? = some now ∧
      ∀ earlier moment landing between, inputs = earlier ++ (moment, landing) :: between →
        (founded.after earlier).landsRefresh landing = true →
        ((founded.after (earlier ++ [(moment, landing)])).timers between).getLast? = some now := by
  intro founded last
  have orderly := (orderly_create config start outcome).after inputs
  obtain ⟨before, _⟩ := punctual_concat.mp punctual
  obtain ⟨since, timely, counted⟩ := timely_before punctual
  obtain ⟨due, found⟩ := timely.fetch (engaged_after before stays) (step_shift orderly now input)
    own fetches
  refine ⟨?_, ?_, ?_⟩
  · cases counted with
    | inl landing => exact landing ▸ due
    | inr held => exact absurd held.2 (not_heldUp stays since)
  · rw [renewalDeadline?, found]
  · intro earlier moment landing between split lands
    subst split
    exact armed_since_landing before lands found

/-- The timer fires while a refresh has the lock, and the renewal waits behind it. -/
theorem renewal_fetch_after_overrun :
    let refreshed : Input := .land (.caller 1) (.ok (sample "second"))
    let overrun : List (Nat × Input) := [(59000000000, .force 1), (60000000000, .timer)]
    let between : List (Nat × Input) := [(61000000000, .acquire .renewal)]
    let inputs := overrun ++ (61000000000, refreshed) :: between
    let founded := create .default 0 (.ok (sample "first"))
    founded.Punctual 0 (inputs ++ [(121000000000, .timer)]) ∧
      ((founded.after inputs).step 121000000000 .timer).next = .fetch ∧
      (founded.after overrun).renewal = .queued 0 ∧
      founded.lastLanding (0, .ok (sample "first")) inputs =
        (61000000000, .ok (sample "second")) ∧
      121000000000 =
        61000000000 + (Config.default.nextInterval (.ok (sample "second"))).nanos ∧
      ((founded.after (overrun ++ [(61000000000, refreshed)])).timers between).getLast? =
        some 121000000000 := by
  intro refreshed overrun between inputs founded
  have punctual : founded.Punctual 0 (inputs ++ [(121000000000, .timer)]) :=
    punctual_of_isPunctual (by decide +kernel)
  have stays : ∀ timed ∈ inputs, ∀ id, timed.2 ≠ .cancel id := by
    simp [inputs, overrun, between, refreshed]
  have fetches : ((founded.after inputs).step 121000000000 .timer).next = .fetch := rfl
  obtain ⟨due, _, armed⟩ := renewal_fetch_on_schedule punctual stays rfl fetches
  refine ⟨punctual, fetches, rfl, rfl, due, ?_⟩
  exact armed overrun 61000000000 refreshed between rfl rfl

end Runs

end Bearer.Broker

import Bearer.Proofs.Broker.Callers
import Bearer.Proofs.Broker.Clock
import Bearer.Proofs.Broker.Debounce

/-!
The schedule of the renewal. A refresh that lands publishes an interval, and the renewal sets its
timer by it as soon as it runs; a renewal that lands sets its own timer. A timer that was set before
a refresh landed makes no fetch: the renewal that has the lock looks first whether it has missed a
new schedule.
-/
namespace Bearer.Broker

/-- The version of the schedule that the renewal has looked at. -/
def Renewal.seen? : Renewal → Option Nat
  | .armed _ seen | .queued seen | .fetching seen => some seen
  | .stopped => none

/-- The inputs with which the renewal tries for the lock. -/
inductive Tries (b : Broker) (now : Nat) : Nat → Input → Prop where
  | timer (deadline seen : Nat) (found : b.renewal = .armed deadline seen)
      (ripe : deadline ≤ now) : Tries b now seen .timer
  | acquire (seen : Nat) (found : b.renewal = .queued seen) : Tries b now seen (.acquire .renewal)

/-- What the schedule was and what it is after a step. -/
def SameSchedule (b c : Broker) : Prop :=
  c.version = b.version ∧ c.published = b.published

/-- The ways in which a step can touch the lock, the renewal and its schedule. -/
inductive Shift (b : Broker) (now : Nat) (input : Input) (ran : Ran) : Prop where
  | aside (renewal : ran.broker.renewal = b.renewal) (schedule : b.SameSchedule ran.broker)
      (lock : ran.broker.lock = b.lock ∨
        b.lock = none ∧ b.debounced? now = none ∧ ∃ id, ran.broker.lock = some (.caller id))
      (landing : b.landing? input = none)
      (next : input.party? = some .renewal → ran.next = .nothing)
  | left (id : Nat) (own : input = .cancel id) (held : b.lock = some (.caller id))
      (renewal : ran.broker.renewal = b.renewal) (schedule : b.SameSchedule ran.broker)
      (lock : ran.broker.lock = none)
  | landed (id : Nat) (outcome : Except Error Credential) (own : input = .land (.caller id) outcome)
      (landing : b.landing? input = some outcome) (held : b.lock = some (.caller id))
      (renewal : ran.broker.renewal = b.renewal) (version : ran.broker.version = b.version + 1)
      (published : ran.broker.published = b.config.nextInterval outcome)
      (lock : ran.broker.lock = none)
  | rearms (deadline seen : Nat) (own : input = .rearm) (found : b.renewal = .armed deadline seen)
      (stale : b.version ≠ seen)
      (renewal : ran.broker.renewal = .armed (now + b.published.nanos) b.version)
      (schedule : b.SameSchedule ran.broker) (lock : ran.broker.lock = b.lock)
      (next : ran.next = .sleep (now + b.published.nanos))
  | waits (seen : Nat) (tries : b.Tries now seen input) (taken : b.lock ≠ none)
      (renewal : ran.broker.renewal = .queued seen) (schedule : b.SameSchedule ran.broker)
      (lock : ran.broker.lock = b.lock) (next : ran.next = .queue)
  | skips (seen : Nat) (tries : b.Tries now seen input) (free : b.lock = none)
      (stale : b.version ≠ seen)
      (renewal : ran.broker.renewal = .armed (now + b.published.nanos) b.version)
      (schedule : b.SameSchedule ran.broker) (lock : ran.broker.lock = none)
      (next : ran.next = .sleep (now + b.published.nanos))
  | fetches (seen : Nat) (tries : b.Tries now seen input) (free : b.lock = none)
      (current : b.version = seen) (renewal : ran.broker.renewal = .fetching seen)
      (schedule : b.SameSchedule ran.broker) (lock : ran.broker.lock = some .renewal)
      (next : ran.next = .fetch)
  | renewed (seen : Nat) (outcome : Except Error Credential) (own : input = .land .renewal outcome)
      (landing : b.landing? input = some outcome) (found : b.renewal = .fetching seen)
      (renewal : ran.broker.renewal =
        .armed (now + (b.config.nextInterval outcome).nanos) seen)
      (schedule : b.SameSchedule ran.broker) (lock : ran.broker.lock = none)
      (next : ran.next = .sleep (now + (b.config.nextInterval outcome).nanos))
  | stops (own : input = .drop) (last : b.handles = 1) (renewal : ran.broker.renewal = .stopped)
      (lock : ran.broker.lock = if b.lock = some .renewal then none else b.lock)
      (next : ran.next = .nothing)

section Shifts

variable {b : Broker} {now : Nat} {input : Input} {ran : Ran}

theorem sameSchedule {c : Broker} (memory : c.memory = b.memory) : b.SameSchedule c :=
  ⟨congrArg Memory.version memory, congrArg Memory.published memory⟩

/-- A caller that asks or looks leaves the schedule as it is and at most takes the free lock. -/
theorem Moves.aside {id : Nat} (moves : b.Moves now input ran)
    (own : input.party? = some (.caller id)) (ends : b.ends? input = none)
    (landing : b.landing? input = none) (renewal : ran.broker.renewal = b.renewal)
    (memory : ran.broker.memory = b.memory) : b.Shift now input ran := by
  refine .aside renewal (sameSchedule memory) ?_ landing fun other => ?_
  · cases moves.takes own ends with
    | inl taken => exact .inr ⟨taken.2.1, (moves.begins own taken.1).2, id, taken.2.2⟩
    | inr left => exact .inl left.2
  · cases own.symm.trans other

theorem Tries.shift {c : Broker} {seen : Nat} (tries : b.Tries now seen input)
    (lock : c.lock = b.lock) (memory : c.memory = b.memory) :
    b.Shift now input (c.contendRenewal now seen) := by
  obtain ⟨version, published⟩ := sameSchedule memory
  have same := sameSchedule ((memory_contendRenewal c now seen).trans memory)
  cases holder : c.lock with
  | some party =>
      refine .waits seen tries (by simp [← lock, holder]) ?_ same ?_ ?_
      all_goals simp [contendRenewal, holder, enqueue, ← lock]
  | none =>
      have free : b.lock = none := lock ▸ holder
      by_cases current : b.version = seen
      · refine .fetches seen tries free current ?_ same ?_ ?_
        all_goals simp [contendRenewal, holder, renew, version, current]
      · refine .skips seen tries free current ?_ same ?_ ?_
        all_goals
          simp [contendRenewal, holder, renew, version, current, reschedule, arm, unlock_fst,
            published]

/-- Who leaves changes nothing but who has the lock and who waits for it. -/
theorem leave_eq (b : Broker) (party : Party) :
    ∃ lock queue notified, (b.leave party).broker = { b with lock, queue, notified } := by
  simp only [leave]
  split
  · exact ⟨_, _, _, unlock_fst b⟩
  · split
    · exact ⟨_, _, _, notify_fst (b.dequeue party)⟩
    · exact ⟨_, _, _, rfl⟩

theorem renewal_leave (b : Broker) (party : Party) :
    (b.leave party).broker.renewal = b.renewal := by
  obtain ⟨_, _, _, same⟩ := b.leave_eq party
  rw [same]

theorem Moves.shift (h : b.Orderly) (moves : b.Moves now input ran) : b.Shift now input ran := by
  have memory := moves.memory
  cases moves with
  | idle input misfit =>
      refine .aside rfl ⟨rfl, rfl⟩ (.inl rfl) ?_ fun _ => rfl
      cases input with
      | land party outcome => exact if_neg misfit
      | _ => rfl
  | force id absent =>
      exact Moves.aside (.force id absent) rfl rfl rfl turned_contend.renewal memory
  | resolve id failed polls absent =>
      exact Moves.aside (.resolve id failed polls absent) rfl rfl rfl turned_look.renewal memory
  | poll id failed polls left due found ripe =>
      exact Moves.aside (.poll id failed polls left due found ripe) rfl rfl rfl turned_look.renewal
        memory
  | acquire id origin found =>
      exact Moves.aside (.acquire id origin found) rfl rfl rfl turned_contend.renewal memory
  | timer deadline seen found ripe => exact Tries.shift (.timer deadline seen found ripe) rfl rfl
  | acquireRenewal seen found => exact Tries.shift (.acquire seen found) rfl rfl
  | rearm deadline seen found stale =>
      exact .rearms deadline seen rfl found stale rfl (sameSchedule memory) rfl rfl
  | land id origin outcome found =>
      have fetching := phase_fetching_caller.mpr ⟨origin, found⟩
      rw [remembered, if_pos fetching] at memory
      refine .landed id outcome rfl (if_pos fetching) ((h.holds _).mp fetching) ?_ ?_ ?_ ?_
      · exact turned_landRefresh.renewal
      · exact congrArg Memory.version memory
      · exact congrArg Memory.published memory
      · simp [landRefresh, answer, dismiss, unlock_fst]
  | landRenewal seen outcome found =>
      have fetching := phase_fetching_renewal.mpr ⟨seen, found⟩
      rw [remembered, if_pos fetching] at memory
      have schedule : b.SameSchedule (b.landRenewal now seen outcome).broker :=
        ⟨congrArg Memory.version memory, congrArg Memory.published memory⟩
      refine .renewed seen outcome rfl (if_pos fetching) found ?_ schedule ?_ ?_
      all_goals cases outcome <;> simp [Broker.landRenewal, arm, unlock_fst, countBy]
  | cancel id caller found =>
      have renewal : ((b.dismiss id).leave (.caller id)).broker.renewal = b.renewal :=
        renewal_leave (b.dismiss id) (.caller id)
      have lock := lock_leave (b.dismiss id) (.caller id)
      by_cases held : b.lock = some (.caller id)
      · exact .left id rfl held renewal (sameSchedule memory) (lock.trans (if_pos held))
      · exact .aside renewal (sameSchedule memory) (.inl (lock.trans (if_neg held))) rfl
          (by simp [Input.party?])
  | clone => exact .aside rfl (sameSchedule memory) (.inl rfl) rfl (by simp [Input.party?])
  | drop others => exact .aside rfl (sameSchedule memory) (.inl rfl) rfl fun _ => rfl
  | dropLast last => exact .stops rfl last (renewal_leave _ .renewal) (lock_leave _ .renewal) rfl
  | write outcome => exact .aside rfl ⟨rfl, rfl⟩ (.inl rfl) rfl (by simp [Input.party?])

theorem landing_of_landsRefresh (lands : b.landsRefresh input = true) :
    ∃ id outcome, input = .land (.caller id) outcome ∧ b.landing? input = some outcome := by
  cases input with
  | land party outcome =>
      cases party with
      | caller id => exact ⟨id, outcome, rfl, if_pos (of_decide_eq_true lands)⟩
      | renewal => cases lands
  | _ => cases lands

theorem step_shift (h : b.Orderly) (now : Nat) (input : Input) :
    b.Shift now input (b.step now input) :=
  (step_moves b now input).shift h

end Shifts

/-- A caller leaves that holds the lock while the renewal stands in line for it and has missed a
new schedule. The renewal follows that schedule only now. -/
def holdsUp (b : Broker) : Input → Bool
  | .cancel id =>
    b.lock = some (.caller id) &&
      match b.renewal with
      | .queued seen => b.version ≠ seen
      | _ => false
  | _ => false

/-- The moment from which the renewal counts the interval of the schedule that it follows. -/
def countsFrom (b : Broker) (now : Nat) (input : Input) (since : Nat) : Nat :=
  if (b.landing? input).isSome || b.holdsUp input then now else since

/-- The interval that the fetch which landed last asks for. -/
def interval (b : Broker) (input : Input) (before : Time.Interval) : Time.Interval :=
  match b.landing? input with
  | some outcome => b.config.nextInterval outcome
  | none => before

/-- Where the renewal is with respect to the schedule of the last landing, which it counts from
`since`: its timer is set by it and has not run out unnoticed; or it does not know it yet, but will
before the clock moves, unless a caller holds it up; or it fetches, or waits to. -/
inductive Timely (b : Broker) (now since : Nat) (interval : Time.Interval) : Prop where
  | armed (found : b.renewal = .armed (since + interval.nanos) b.version)
      (early : now ≤ since + interval.nanos)
  | behind (deadline seen : Nat) (found : b.renewal = .armed deadline seen)
      (stale : seen < b.version) (published : b.published = interval) (fresh : since = now)
  | waiting (found : b.renewal = .queued b.version)
  | outrun (seen : Nat) (found : b.renewal = .queued seen) (stale : seen < b.version)
      (published : b.published = interval) (fresh : b.lock = none → since = now)
  | fetching (found : b.renewal = .fetching b.version)
  | stopped (found : b.renewal = .stopped)

section Timely

variable {b : Broker} {now since : Nat} {interval : Time.Interval} {input : Input} {ran : Ran}

theorem holdsUp_of_not_queued (input : Input) (other : ∀ seen, b.renewal ≠ .queued seen) :
    b.holdsUp input = false := by
  cases input with
  | cancel id =>
      cases found : b.renewal with
      | queued seen => exact absurd found (other seen)
      | armed _ _ | fetching _ | stopped => simp [holdsUp, found]
  | _ => rfl

theorem countsFrom_of_landing {outcome : Except Error Credential}
    (landing : b.landing? input = some outcome) : b.countsFrom now input since = now := by
  simp [countsFrom, landing]

theorem countsFrom_of_still (landing : b.landing? input = none) (spared : b.holdsUp input = false) :
    b.countsFrom now input since = since := by
  simp [countsFrom, landing, spared]

theorem Tries.inert {seen : Nat} (tries : b.Tries now seen input) :
    b.landing? input = none ∧ b.holdsUp input = false ∧ input.party? = some .renewal := by
  cases tries <;> exact ⟨rfl, rfl, rfl⟩

theorem Tries.saw {seen : Nat} (tries : b.Tries now seen input) :
    b.renewal.seen? = some seen := by
  cases tries with
  | timer _ _ found | acquire _ found => exact congrArg Renewal.seen? found

theorem Timely.seen_le {seen : Nat} (h : b.Timely now since interval)
    (saw : b.renewal.seen? = some seen) : seen ≤ b.version := by
  cases h with
  | armed found _ | waiting found | fetching found =>
      rw [found] at saw
      cases saw
      exact Nat.le_refl _
  | behind _ _ found stale | outrun _ found stale =>
      rw [found] at saw
      cases saw
      exact Nat.le_of_lt stale
  | stopped found =>
      rw [found] at saw
      cases saw

/-- While the renewal stays as it is, so does its place in the schedule. -/
theorem Timely.aside (h : b.Timely now since interval) (renewal : ran.broker.renewal = b.renewal)
    (schedule : b.SameSchedule ran.broker) (landing : b.landing? input = none)
    (lock : ∀ seen, b.renewal = .queued seen → seen < b.version → ran.broker.lock = none →
      b.lock = none ∨ b.countsFrom now input since = now) :
    ran.broker.Timely now (b.countsFrom now input since) interval := by
  obtain ⟨version, published⟩ := schedule
  have counts : (∀ seen, b.renewal ≠ .queued seen) → b.countsFrom now input since = since :=
    fun other => countsFrom_of_still landing (holdsUp_of_not_queued input other)
  cases h with
  | armed found early =>
      rw [counts (by simp [found])]
      exact .armed (by rw [renewal, found, version]) early
  | behind deadline seen found stale same fresh =>
      rw [counts (by simp [found])]
      exact .behind deadline seen (renewal.trans found) (version ▸ stale) (published.trans same)
        fresh
  | waiting found => exact .waiting (by rw [renewal, found, version])
  | outrun seen found stale same fresh =>
      refine .outrun seen (renewal.trans found) (version ▸ stale) (published.trans same)
        fun free => ?_
      cases lock seen found stale free with
      | inl before =>
          simp only [countsFrom, fresh before]
          split <;> rfl
      | inr counted => exact counted
  | fetching found => exact .fetching (by rw [renewal, found, version])
  | stopped found => exact .stopped (renewal.trans found)

/-- The renewal that tries for the lock knows the schedule, or it has missed the last one. -/
theorem Timely.tries {seen : Nat} (h : b.Timely now since interval)
    (tries : b.Tries now seen input) :
    b.version = seen ∨
      seen < b.version ∧ b.published = interval ∧ (b.lock = none → since = now) := by
  cases tries with
  | timer deadline seen found ripe =>
      cases h with
      | armed same early =>
          cases found.symm.trans same
          exact .inl rfl
      | behind _ _ same stale published fresh =>
          cases found.symm.trans same
          exact .inr ⟨stale, published, fun _ => fresh⟩
      | waiting other | outrun _ other | fetching other | stopped other =>
          cases found.symm.trans other
  | acquire seen found =>
      cases h with
      | waiting same =>
          cases found.symm.trans same
          exact .inl rfl
      | outrun _ same stale published fresh =>
          cases found.symm.trans same
          exact .inr ⟨stale, published, fresh⟩
      | armed other | behind _ _ other | fetching other | stopped other =>
          cases found.symm.trans other

theorem Timely.step (h : b.Timely now since interval) (orderly : b.Orderly)
    (shift : b.Shift now input ran) :
    ran.broker.Timely now (b.countsFrom now input since) (b.interval input interval) := by
  cases shift with
  | aside renewal schedule lock landing next =>
      simp only [Broker.interval, landing]
      refine h.aside renewal schedule landing fun _ _ _ free => .inl ?_
      cases lock with
      | inl same => exact same.symm.trans free
      | inr taken => exact taken.1
  | left id own held renewal schedule lock =>
      subst own
      refine h.aside renewal schedule rfl fun seen found stale _ => .inr ?_
      simp [countsFrom, holdsUp, held, found, Nat.ne_of_gt stale]
  | landed id outcome own landing held renewal version published lock =>
      simp only [Broker.interval, landing, countsFrom_of_landing landing]
      cases h with
      | armed found early =>
          exact .behind _ _ (renewal.trans found) (by omega) published rfl
      | behind deadline seen found stale same fresh =>
          exact .behind deadline seen (renewal.trans found) (by omega) published rfl
      | waiting found => exact .outrun _ (renewal.trans found) (by omega) published fun _ => rfl
      | outrun seen found stale same fresh =>
          exact .outrun seen (renewal.trans found) (by omega) published fun _ => rfl
      | fetching found =>
          have fetching := (orderly.holds .renewal).mp (phase_fetching_renewal.mpr ⟨_, found⟩)
          simp [held] at fetching
      | stopped found => exact .stopped (renewal.trans found)
  | rearms deadline seen own found stale renewal schedule lock next =>
      subst own
      have counts : b.countsFrom now .rearm since = since := countsFrom_of_still rfl rfl
      cases h with
      | armed same early =>
          cases found.symm.trans same
          exact absurd rfl stale
      | behind _ _ _ _ published fresh =>
          rw [counts, fresh]
          refine .armed ?_ (Nat.le_add_right ..)
          rw [renewal, schedule.1, published]
          rfl
      | waiting other | outrun _ other | fetching other | stopped other =>
          cases found.symm.trans other
  | waits seen tries taken renewal schedule lock next =>
      obtain ⟨landing, spared, _⟩ := tries.inert
      simp only [Broker.interval, landing]
      obtain current | ⟨stale, published, fresh⟩ := h.tries tries
      · exact .waiting (by rw [renewal, schedule.1, current])
      · refine .outrun seen renewal (schedule.1 ▸ stale) (schedule.2.trans published) fun free => ?_
        exact absurd (lock.symm.trans free) taken
  | skips seen tries free stale renewal schedule lock next =>
      obtain ⟨landing, spared, _⟩ := tries.inert
      obtain current | ⟨_, published, fresh⟩ := h.tries tries
      · exact absurd current stale
      · simp only [Broker.interval, landing, countsFrom_of_still landing spared, fresh free]
        refine .armed ?_ (Nat.le_add_right ..)
        rw [renewal, schedule.1, published]
  | fetches seen tries free current renewal schedule lock next =>
      exact .fetching (by rw [renewal, schedule.1, current])
  | renewed seen outcome own landing found renewal schedule lock next =>
      simp only [Broker.interval, landing, countsFrom_of_landing landing]
      cases h with
      | fetching same =>
          cases found.symm.trans same
          exact .armed (by rw [renewal, schedule.1]) (Nat.le_add_right ..)
      | armed other | behind _ _ other | waiting other | outrun _ other | stopped other =>
          cases found.symm.trans other
  | stops own last renewal lock next => exact .stopped renewal

/-- The clock moves on only as far as the timer allows, and not while there is a new schedule to
follow. -/
theorem Timely.later {till : Nat} (h : b.Timely now since interval) (orderly : b.Orderly)
    (still : b.Still now till) : b.Timely till since interval := by
  obtain ⟨order, idle⟩ := still
  obtain same | moves := Nat.eq_or_lt_of_le order
  · exact same ▸ h
  cases h with
  | armed found early =>
      refine .armed found (Nat.le_of_not_lt fun missed => ?_)
      have asleep := idle _ .renewal early missed
      simp [ready, found] at asleep
  | behind deadline seen found stale published fresh =>
      have asleep := idle now .renewal (Nat.le_refl now) moves
      simp [ready, found, Nat.ne_of_gt stale] at asleep
  | waiting found => exact .waiting found
  | outrun seen found stale published fresh =>
      refine .outrun seen found stale published fun free => ?_
      have standing := (orderly.waits .renewal).mp (phase_queued_renewal.mpr ⟨seen, found⟩)
      rw [Still.queue ⟨order, idle⟩ orderly moves free] at standing
      cases standing
  | fetching found => exact .fetching found
  | stopped found => exact .stopped found

/-- A timer that is set was set by an input of the renewal for that deadline, or was set before. -/
theorem Shift.armed {deadline seen : Nat} (shift : b.Shift now input ran)
    (found : ran.broker.renewal = .armed deadline seen) :
    ran.next = .sleep deadline ∧ input.party? = some .renewal ∨
      b.renewal = .armed deadline seen ∧
        (input.party? = some .renewal → ran.next = .nothing) := by
  cases shift with
  | aside renewal schedule lock landing next => exact .inr ⟨renewal.symm.trans found, next⟩
  | left id own held renewal schedule lock =>
      exact .inr ⟨renewal.symm.trans found, by simp [own, Input.party?]⟩
  | landed id outcome own landing held renewal version published lock =>
      exact .inr ⟨renewal.symm.trans found, by simp [own, Input.party?]⟩
  | rearms _ _ own _ stale renewal schedule lock next =>
      cases found.symm.trans renewal
      exact .inl ⟨next, by rw [own]; rfl⟩
  | skips _ tries free stale renewal schedule lock next =>
      cases found.symm.trans renewal
      exact .inl ⟨next, tries.inert.2.2⟩
  | renewed _ outcome own landing _ renewal schedule lock next =>
      cases found.symm.trans renewal
      exact .inl ⟨next, by rw [own]; rfl⟩
  | waits _ tries taken renewal | fetches _ tries free current renewal | stops _ _ renewal =>
      cases found.symm.trans renewal

/-- The renewal fetches only when it tries for the free lock and knows the schedule. -/
theorem Shift.fetch (shift : b.Shift now input ran) (own : input.party? = some .renewal)
    (fetch : ran.next = .fetch) : b.Tries now b.version input ∧ b.lock = none := by
  cases shift with
  | aside renewal schedule lock landing next => cases (next own).symm.trans fetch
  | left id left => simp [left, Input.party?] at own
  | landed id outcome left => simp [left, Input.party?] at own
  | fetches seen tries free current => exact ⟨current ▸ tries, free⟩
  | rearms _ _ _ _ _ _ _ _ next | waits _ _ _ _ _ _ next | skips _ _ _ _ _ _ _ next
  | renewed _ _ _ _ _ _ _ _ next | stops _ _ _ _ next => cases next.symm.trans fetch

end Timely

/-- A caller left at this moment that held the renewal up. -/
def HeldUp (b : Broker) (inputs : List (Nat × Input)) (moment : Nat) : Prop :=
  ∃ earlier input later, inputs = earlier ++ (moment, input) :: later ∧
    (b.after earlier).holdsUp input = true

theorem HeldUp.append {b : Broker} {inputs : List (Nat × Input)} {moment : Nat}
    (held : b.HeldUp inputs moment) (more : List (Nat × Input)) :
    b.HeldUp (inputs ++ more) moment := by
  obtain ⟨earlier, input, later, rfl, holds⟩ := held
  exact ⟨earlier, input, later ++ more, by simp, holds⟩

section Runs

variable {config : Config} {start : Nat} {outcome : Except Error Credential}

/-- After a punctual run the renewal is in time with the schedule of the last landing, counted from
that landing or from a later moment at which a caller left that had held it up. -/
theorem timely_after {inputs : List (Nat × Input)}
    (punctual : (create config start outcome).Punctual start inputs) :
    let founded := create config start outcome
    let last := founded.lastLanding (start, outcome) inputs
    ∃ since, (founded.after inputs).Timely (clock start inputs) since (config.nextInterval last.2) ∧
      (since = last.1 ∨ last.1 < since ∧ founded.HeldUp inputs since) := by
  intro founded last
  have orderly : founded.Orderly := orderly_create config start outcome
  induction inputs using List.reverseRecOn with
  | nil =>
      refine ⟨start, .armed rfl ?_, .inl rfl⟩
      exact Nat.le_add_right ..
  | append_singleton inputs timed ih =>
      obtain ⟨now, input⟩ := timed
      obtain ⟨before, still⟩ := punctual_concat.mp punctual
      obtain ⟨since, timely, counted⟩ := ih before
      have opening : ((start, outcome) : Nat × Except Error Credential).1 ≤ start :=
        Nat.le_refl start
      have order := Nat.le_trans (lastLanding_le_clock opening before) still.1
      have same : (founded.after inputs).config = config := config_after founded inputs
      have stepped := (timely.later (orderly.after inputs) still).step (orderly.after inputs)
        (step_shift (orderly.after inputs) now input)
      simp only [clock_concat, last, lastLanding_concat, after_append, after_cons, after_nil]
      refine ⟨(founded.after inputs).countsFrom now input since, ?_, ?_⟩
      · cases landing : (founded.after inputs).landing? input with
        | some _ => simpa [interval, landing, same] using stepped
        | none => simpa [interval, landing] using stepped
      · cases landing : (founded.after inputs).landing? input with
        | some _ => exact .inl (countsFrom_of_landing landing)
        | none =>
            cases holds : (founded.after inputs).holdsUp input with
            | true =>
                have counts : (founded.after inputs).countsFrom now input since = now := by
                  simp [countsFrom, holds]
                rw [counts]
                obtain here | later := Nat.eq_or_lt_of_le order
                · exact .inl here.symm
                · exact .inr ⟨later, inputs, input, [], rfl, holds⟩
            | false =>
                rw [countsFrom_of_still landing holds]
                exact counted.imp_right (And.imp_right fun held => held.append [(now, input)])

/-- The same just before an input. -/
theorem timely_before {earlier later : List (Nat × Input)} {now : Nat} {input : Input}
    (punctual : (create config start outcome).Punctual start (earlier ++ (now, input) :: later)) :
    let founded := create config start outcome
    let last := founded.lastLanding (start, outcome) earlier
    ∃ since, (founded.after earlier).Timely now since (config.nextInterval last.2) ∧
      (since = last.1 ∨ last.1 < since ∧ founded.HeldUp earlier since) := by
  intro founded last
  obtain ⟨before, still, _⟩ := punctual_append.mp punctual
  obtain ⟨since, timely, counted⟩ := timely_after before
  have orderly := (orderly_create config start outcome).after earlier
  exact ⟨since, timely.later orderly still, counted⟩

end Runs

end Bearer.Broker

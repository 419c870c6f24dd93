import Bearer.Proofs.Broker.Run

/-!
What a step can do. An input either fits the state, and then one of a few moves is made, or it
changes nothing. Facts about steps are proved by cases on the move.
-/
namespace Bearer.Broker

/-- What a party is doing, as far as the lock is concerned. -/
inductive Phase where
  | away
  | resting
  | queued
  | fetching
  deriving DecidableEq

def Wait.phase : Wait → Phase
  | .pausing _ _ _ => .resting
  | .queued => .queued
  | .fetching => .fetching

def Renewal.phase : Renewal → Phase
  | .armed _ _ => .resting
  | .queued _ => .queued
  | .fetching _ => .fetching
  | .stopped => .away

def phase (b : Broker) : Party → Phase
  | .caller id =>
    match b.caller? id with
    | some caller => caller.wait.phase
    | none => .away
  | .renewal => b.renewal.phase

theorem caller?_place (b : Broker) (caller : Caller) (id : Nat) :
    (b.place caller).caller? id = if caller.id = id then some caller else b.caller? id := by
  by_cases h : caller.id = id
  · simp [caller?, place, h]
  · simp only [caller?, place, h, decide_false, List.find?_cons_of_neg, Bool.false_eq_true,
      not_false_eq_true, if_false, List.find?_filter]
    congr 1
    funext other
    by_cases ho : other.id = id
    · simp [ho, Ne.symm h]
    · simp [ho]

theorem caller?_dismiss (b : Broker) (id other : Nat) :
    (b.dismiss id).caller? other = if id = other then none else b.caller? other := by
  simp only [caller?, dismiss, List.find?_filter]
  by_cases h : id = other
  · subst h
    simp
  · rw [if_neg h]
    congr 1
    funext caller
    by_cases hc : caller.id = other
    · simp [hc, Ne.symm h]
    · simp [hc]

theorem caller?_id {b : Broker} {id : Nat} {caller : Caller} (h : b.caller? id = some caller) :
    caller.id = id := by
  simpa using List.find?_some h

theorem phase_caller {b : Broker} {id : Nat} {caller : Caller} (h : b.caller? id = some caller) :
    b.phase (.caller id) = caller.wait.phase := by
  simp [phase, h]

theorem phase_away {b : Broker} {id : Nat} (h : b.caller? id = none) :
    b.phase (.caller id) = .away := by
  simp [phase, h]

@[simp] theorem phase_place (b : Broker) (caller : Caller) (party : Party) :
    (b.place caller).phase party =
      if party = .caller caller.id then caller.wait.phase else b.phase party := by
  cases party with
  | renewal => rfl
  | caller id =>
      simp only [phase, caller?_place, Party.caller.injEq]
      by_cases h : caller.id = id
      · simp [h]
      · simp [h, Ne.symm h]

@[simp] theorem phase_dismiss (b : Broker) (id : Nat) (party : Party) :
    (b.dismiss id).phase party = if party = .caller id then .away else b.phase party := by
  cases party with
  | renewal => rfl
  | caller other =>
      simp only [phase, caller?_dismiss, Party.caller.injEq]
      by_cases h : id = other
      · simp [h]
      · simp [h, Ne.symm h]

theorem phase_congr {b c : Broker} (callers : b.callers = c.callers)
    (renewal : b.renewal = c.renewal) : b.phase = c.phase := by
  funext party
  cases party <;> simp only [phase, caller?, callers, renewal]

theorem notify_fst (b : Broker) :
    b.notify.1 = { b with notified := b.notified || !b.queue.isEmpty } := by
  rw [notify]
  split
  · next first rest hq hn => simp [hq]
  · next h =>
      have same : (b.notified || !b.queue.isEmpty) = b.notified := by
        cases hn : b.notified with
        | true => rfl
        | false =>
            cases hq : b.queue with
            | nil => rfl
            | cons first rest => exact absurd hn (h first rest hq)
      rw [same]

theorem unlock_fst (b : Broker) :
    b.unlock.1 = { b with lock := none, notified := b.notified || !b.queue.isEmpty } :=
  notify_fst _

@[simp] theorem phase_setRenewal (b : Broker) (renewal : Renewal) (party : Party) :
    ({ b with renewal } : Broker).phase party =
      if party = .renewal then renewal.phase else b.phase party := by
  cases party <;> rfl

@[simp] theorem phase_countBy (b : Broker) (count : Counters → Counters) :
    (b.countBy count).phase = b.phase :=
  phase_congr rfl rfl

@[simp] theorem phase_dequeue (b : Broker) (party : Party) : (b.dequeue party).phase = b.phase :=
  phase_congr rfl rfl

@[simp] theorem phase_notify (b : Broker) : b.notify.1.phase = b.phase := by
  rw [notify_fst]
  exact phase_congr rfl rfl

@[simp] theorem phase_unlock (b : Broker) : b.unlock.1.phase = b.phase :=
  phase_notify _

@[simp] theorem phase_publish (b : Broker) (interval : Time.Interval) :
    (b.publish interval).1.phase = b.phase :=
  phase_congr rfl rfl

@[simp] theorem lock_notify (b : Broker) : b.notify.1.lock = b.lock := by
  rw [notify_fst]

@[simp] theorem queue_notify (b : Broker) : b.notify.1.queue = b.queue := by
  rw [notify_fst]

@[simp] theorem lock_dequeue (b : Broker) (party : Party) : (b.dequeue party).lock = b.lock := rfl

/-- Whether an input fits the state. -/
def Fits (b : Broker) (now : Nat) : Input → Prop
  | .force id | .resolve id _ _ => b.caller? id = none
  | .poll id =>
    ∃ failed polls left due,
      b.caller? id = some ⟨id, .resolving failed, .pausing polls left due⟩ ∧ due ≤ now
  | .timer => ∃ deadline seen, b.renewal = .armed deadline seen ∧ deadline ≤ now
  | .rearm => ∃ deadline seen, b.renewal = .armed deadline seen ∧ b.version ≠ seen
  | .acquire party => b.phase party = .queued
  | .land party _ => b.phase party = .fetching
  | .cancel id => b.caller? id ≠ none
  | .clone | .drop | .write _ => True

/-- The moves of a broker, each with the input that it answers. -/
inductive Moves (b : Broker) (now : Nat) : Input → Ran → Prop where
  | idle (input : Input) (misfit : ¬ b.Fits now input) : Moves b now input b.unchanged
  | force (id : Nat) (absent : b.caller? id = none) :
      Moves b now (.force id)
        (((b.countBy .forcedRefresh).contend now id .forced).after
          [.opened .forceRefresh none, .counted .refresh .attempt])
  | resolve (id : Nat) (failed : String) (polls : Nat) (absent : b.caller? id = none) :
      Moves b now (.resolve id failed polls)
        ((b.look now id failed polls polls).after
          [.opened .resolveNew none, .counted .resolve .attempt])
  | poll (id : Nat) (failed : String) (polls left due : Nat)
      (found : b.caller? id = some ⟨id, .resolving failed, .pausing polls left due⟩)
      (ripe : due ≤ now) : Moves b now (.poll id) (b.look now id failed polls left)
  | timer (deadline seen : Nat) (found : b.renewal = .armed deadline seen)
      (ripe : deadline ≤ now) : Moves b now .timer (b.contendRenewal now seen)
  | rearm (deadline seen : Nat) (found : b.renewal = .armed deadline seen)
      (stale : b.version ≠ seen) : Moves b now .rearm (b.reschedule now)
  | acquire (id : Nat) (origin : Origin) (found : b.caller? id = some ⟨id, origin, .queued⟩) :
      Moves b now (.acquire (.caller id)) ((b.dequeue (.caller id)).contend now id origin)
  | acquireRenewal (seen : Nat) (found : b.renewal = .queued seen) :
      Moves b now (.acquire .renewal) ((b.dequeue .renewal).contendRenewal now seen)
  | land (id : Nat) (origin : Origin) (outcome : Except Error Credential)
      (found : b.caller? id = some ⟨id, origin, .fetching⟩) :
      Moves b now (.land (.caller id) outcome) (b.landRefresh now id origin outcome)
  | landRenewal (seen : Nat) (outcome : Except Error Credential)
      (found : b.renewal = .fetching seen) :
      Moves b now (.land .renewal outcome) (b.landRenewal now seen outcome)
  | cancel (id : Nat) (caller : Caller) (found : b.caller? id = some caller) :
      Moves b now (.cancel id) ((b.dismiss id).leave (.caller id))
  | clone : Moves b now .clone { b with handles := b.handles + 1 }.unchanged
  | drop (others : b.handles ≠ 1) :
      Moves b now .drop { b with handles := b.handles - 1 }.unchanged
  | dropLast (last : b.handles = 1) :
      Moves b now .drop ({ b with handles := 0, renewal := .stopped }.leave .renewal)
  | write (outcome : Except Error Credential) :
      Moves b now (.write outcome) { b with store := b.store.write outcome }.unchanged

theorem phase_queued_caller {b : Broker} {id : Nat} :
    b.phase (.caller id) = .queued ↔ ∃ origin, b.caller? id = some ⟨id, origin, .queued⟩ := by
  cases found : b.caller? id with
  | none => simp [phase, found]
  | some caller =>
      obtain ⟨number, origin, wait⟩ := caller
      cases caller?_id found
      cases wait <;> simp [phase, found, Wait.phase]

theorem phase_queued_renewal {b : Broker} :
    b.phase .renewal = .queued ↔ ∃ seen, b.renewal = .queued seen := by
  cases found : b.renewal <;> simp [phase, found, Renewal.phase]

theorem phase_fetching_caller {b : Broker} {id : Nat} :
    b.phase (.caller id) = .fetching ↔ ∃ origin, b.caller? id = some ⟨id, origin, .fetching⟩ := by
  cases found : b.caller? id with
  | none => simp [phase, found]
  | some caller =>
      obtain ⟨number, origin, wait⟩ := caller
      cases caller?_id found
      cases wait <;> simp [phase, found, Wait.phase]

theorem phase_fetching_renewal {b : Broker} :
    b.phase .renewal = .fetching ↔ ∃ seen, b.renewal = .fetching seen := by
  cases found : b.renewal <;> simp [phase, found, Renewal.phase]

theorem step_idle {b : Broker} {now : Nat} {input : Input} (misfit : ¬ b.Fits now input) :
    b.step now input = b.unchanged := by
  cases input with
  | force id | resolve id _ _ =>
      simp only [step]
      split
      · rfl
      · next absent => exact absurd absent misfit
  | poll id =>
      simp only [step]
      split
      · next number failed polls left due found =>
          cases caller?_id found
          exact if_neg fun ripe => misfit ⟨failed, polls, left, due, found, ripe⟩
      · rfl
  | timer =>
      simp only [step]
      split
      · next deadline seen found => exact if_neg fun ripe => misfit ⟨deadline, seen, found, ripe⟩
      · rfl
  | rearm =>
      simp only [step]
      split
      · next deadline seen found =>
          have same : b.version = seen :=
            Decidable.byContradiction fun stale => misfit ⟨deadline, seen, found, stale⟩
          exact if_pos same
      · rfl
  | acquire party =>
      cases party with
      | caller id =>
          simp only [step, acquireCaller]
          split
          · next number origin found =>
              cases caller?_id found
              exact absurd (phase_queued_caller.mpr ⟨origin, found⟩) misfit
          · rfl
      | renewal =>
          simp only [step, acquireRenewal]
          split
          · next seen found => exact absurd (phase_queued_renewal.mpr ⟨seen, found⟩) misfit
          · rfl
  | land party outcome =>
      cases party with
      | caller id =>
          simp only [step]
          split
          · next number origin found =>
              cases caller?_id found
              exact absurd (phase_fetching_caller.mpr ⟨origin, found⟩) misfit
          · rfl
      | renewal =>
          simp only [step]
          split
          · next seen found => exact absurd (phase_fetching_renewal.mpr ⟨seen, found⟩) misfit
          · rfl
  | cancel id =>
      simp only [step]
      split
      · next caller found =>
          have known : b.caller? id ≠ none := by simp [found]
          exact absurd known misfit
      · rfl
  | clone | drop | write _ => exact absurd trivial misfit

theorem step_moves (b : Broker) (now : Nat) (input : Input) :
    b.Moves now input (b.step now input) := by
  by_cases fits : b.Fits now input
  · cases input with
    | force id =>
        have absent : b.caller? id = none := fits
        simp only [step, absent]
        exact .force id absent
    | resolve id failed polls =>
        have absent : b.caller? id = none := fits
        simp only [step, absent]
        exact .resolve id failed polls absent
    | poll id =>
        obtain ⟨failed, polls, left, due, found, ripe⟩ := fits
        simp only [step, found, ripe, if_true]
        exact .poll id failed polls left due found ripe
    | timer =>
        obtain ⟨deadline, seen, found, ripe⟩ := fits
        simp only [step, found, ripe, if_true]
        exact .timer deadline seen found ripe
    | rearm =>
        obtain ⟨deadline, seen, found, stale⟩ := fits
        simp only [step, found, stale, if_false]
        exact .rearm deadline seen found stale
    | acquire party =>
        cases party with
        | caller id =>
            obtain ⟨origin, found⟩ := phase_queued_caller.mp fits
            simp only [step, acquireCaller, found]
            exact .acquire id origin found
        | renewal =>
            obtain ⟨seen, found⟩ := phase_queued_renewal.mp fits
            simp only [step, acquireRenewal, found]
            exact .acquireRenewal seen found
    | land party outcome =>
        cases party with
        | caller id =>
            obtain ⟨origin, found⟩ := phase_fetching_caller.mp fits
            simp only [step, found]
            exact .land id origin outcome found
        | renewal =>
            obtain ⟨seen, found⟩ := phase_fetching_renewal.mp fits
            simp only [step, found]
            exact .landRenewal seen outcome found
    | cancel id =>
        obtain ⟨caller, found⟩ := Option.ne_none_iff_exists'.mp fits
        simp only [step, found]
        exact .cancel id caller found
    | clone => exact .clone
    | drop =>
        simp only [step, dropHandle]
        split
        · next last => exact .dropLast last
        · next others => exact .drop others
    | write outcome => exact .write outcome
  · rw [step_idle fits]
    exact .idle input fits

@[simp] theorem Ran.after_broker (observed : List Observation) (ran : Ran) :
    (ran.after observed).broker = ran.broker := rfl

@[simp] theorem Ran.waking_broker (woken : List Party) (ran : Ran) :
    (ran.waking woken).broker = ran.broker := rfl

@[simp] theorem Ran.after_next (observed : List Observation) (ran : Ran) :
    (ran.after observed).next = ran.next := rfl

@[simp] theorem Ran.waking_next (woken : List Party) (ran : Ran) :
    (ran.waking woken).next = ran.next := rfl

end Bearer.Broker

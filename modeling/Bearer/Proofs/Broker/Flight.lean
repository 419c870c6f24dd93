import Bearer.Proofs.Broker.Lock

/-!
Calls of the source in flight. A call is followed from the step that says to fetch until it lands or
until the party that waits for it is gone. The first call is made before there is a broker; at every
moment after that the only call in flight is that of the party that holds the lock.
-/
namespace Bearer.Broker

/-- Who calls the source: whoever founds the broker, or a party of it. -/
inductive Fetcher where
  | founder
  | party (party : Party)
  deriving DecidableEq

def Input.party? : Input → Option Party
  | .force id | .resolve id _ _ | .poll id | .cancel id => some (.caller id)
  | .timer | .rearm | .drop => some .renewal
  | .acquire party | .land party _ => some party
  | .clone | .write _ => none

/-- The party whose call an input ends: the call lands, or nobody waits for it any more. -/
def ends? (b : Broker) : Input → Option Party
  | .land party _ => some party
  | .cancel id => some (.caller id)
  | .drop => if b.handles = 1 then some .renewal else none
  | _ => none

/-- The calls in flight after a step. -/
def flying (b : Broker) (now : Nat) (input : Input) (before : List Fetcher) : List Fetcher :=
  let left :=
    match b.ends? input with
    | some party => before.erase (.party party)
    | none => before
  match (b.step now input).next, input.party? with
  | .fetch, some party => .party party :: left
  | _, _ => left

/-- A broker from its foundation on, with the calls of its source in flight. -/
structure Life where
  broker : Option Broker
  inFlight : List Fetcher

namespace Life

def begun : Life :=
  ⟨none, [.founder]⟩

inductive Event where
  | founded (outcome : Except Error Credential)
  | abandoned
  | input (input : Input)

def step (config : Config) (life : Life) (now : Nat) : Event → Life
  | .founded outcome =>
    if .founder ∈ life.inFlight then
      ⟨some (create config now outcome), life.inFlight.erase .founder⟩
    else life
  | .abandoned => { life with inFlight := life.inFlight.erase .founder }
  | .input input =>
    match life.broker with
    | some b => ⟨some (b.step now input).broker, b.flying now input life.inFlight⟩
    | none => life

def run (config : Config) (life : Life) (events : List (Nat × Event)) : Life :=
  events.foldl (fun life timed => life.step config timed.1 timed.2) life

end Life

/-- A step either takes the free lock and fetches, or does neither. -/
def Takes (b : Broker) (party : Party) (ran : Ran) : Prop :=
  (ran.next = .fetch ∧ b.lock = none ∧ ran.broker.lock = some party) ∨
    (ran.next ≠ .fetch ∧ ran.broker.lock = b.lock)

theorem takes_unchanged (b : Broker) (party : Party) : b.Takes party b.unchanged :=
  .inr ⟨by simp [unchanged], rfl⟩

theorem takes_contend (b : Broker) (now id : Nat) (origin : Origin) :
    b.Takes (.caller id) (b.contend now id origin) := by
  rw [contend]
  split
  · next free =>
      simp only [refresh]
      split
      · exact .inr ⟨by simp [answer], by simp [answer, dismiss, unlock_fst, free]⟩
      · exact .inl ⟨rfl, free, rfl⟩
  · exact .inr ⟨by simp, rfl⟩

theorem takes_look (b : Broker) (now id : Nat) (failed : String) (polls left : Nat) :
    b.Takes (.caller id) (b.look now id failed polls left) := by
  simp only [look]
  split
  · exact .inr ⟨by simp [answer], rfl⟩
  · split
    · exact .inr ⟨by simp, rfl⟩
    · exact takes_contend ((b.countBy .fallThrough).countBy .forcedRefresh) now id _

theorem takes_contendRenewal (b : Broker) (now seen : Nat) :
    b.Takes .renewal (b.contendRenewal now seen) := by
  simp only [contendRenewal]
  split
  · next free =>
      simp only [renew]
      split
      · exact .inl ⟨rfl, free, rfl⟩
      · exact .inr ⟨by simp [reschedule, arm], by simp [reschedule, arm, unlock_fst, free]⟩
  · exact .inr ⟨by simp, rfl⟩

theorem Moves.takes {b : Broker} {now : Nat} {input : Input} {ran : Ran} {party : Party}
    (moves : b.Moves now input ran) (own : input.party? = some party)
    (ends : b.ends? input = none) : b.Takes party ran := by
  cases moves with
  | idle input misfit => exact takes_unchanged b party
  | force id absent =>
      cases own
      exact takes_contend (b.countBy .forcedRefresh) now id .forced
  | resolve id failed polls absent =>
      cases own
      exact takes_look b now id failed polls polls
  | poll id failed polls left due found ripe =>
      cases own
      exact takes_look b now id failed polls left
  | timer deadline seen found ripe =>
      cases own
      exact takes_contendRenewal b now seen
  | rearm deadline seen found stale => exact .inr ⟨by simp [reschedule, arm], rfl⟩
  | acquire id origin found =>
      cases own
      exact takes_contend (b.dequeue _) now id origin
  | acquireRenewal seen found =>
      cases own
      exact takes_contendRenewal (b.dequeue _) now seen
  | drop others => exact .inr ⟨by simp [unchanged], rfl⟩
  | dropLast last => simp [ends?, last] at ends
  | land | landRenewal | cancel => cases ends
  | clone | write => cases own

theorem lock_leave (b : Broker) (party : Party) :
    (b.leave party).broker.lock = if b.lock = some party then none else b.lock := by
  simp only [leave]
  by_cases held : b.lock = some party
  · simp [held, unlock_fst]
  · simp only [held, if_false]
    split <;> simp

theorem Moves.gives {b : Broker} {now : Nat} {input : Input} {ran : Ran} {party : Party}
    (moves : b.Moves now input ran) (h : b.Orderly) (ends : b.ends? input = some party) :
    ran.next ≠ .fetch ∧
      ran.broker.lock = if b.lock = some party then none else b.lock := by
  cases moves with
  | idle input misfit =>
      have away : b.phase party ≠ .fetching := by
        cases input with
        | land who outcome =>
            cases ends
            exact misfit
        | cancel id =>
            cases ends
            have absent : b.caller? id = none := Decidable.not_not.mp misfit
            simp [phase_away absent]
        | drop => exact absurd trivial misfit
        | _ => cases ends
      rw [if_neg (mt (h.holds party).mpr away)]
      exact ⟨by simp [unchanged], rfl⟩
  | land id origin outcome found =>
      cases ends
      have held := (h.holds _).mp (phase_caller found)
      exact ⟨by simp [landRefresh, answer], by simp [landRefresh, answer, dismiss, unlock_fst, held]⟩
  | landRenewal seen outcome found =>
      cases ends
      have held := (h.holds _).mp (phase_fetching_renewal.mpr ⟨seen, found⟩)
      exact ⟨by simp [Broker.landRenewal, arm], by simp [Broker.landRenewal, arm, unlock_fst, held]⟩
  | cancel id caller found =>
      cases ends
      exact ⟨by simp [leave], lock_leave (b.dismiss id) (.caller id)⟩
  | drop others => simp [ends?, others] at ends
  | dropLast last =>
      simp only [ends?, last, if_true, Option.some.injEq] at ends
      subst ends
      exact ⟨by simp [leave], lock_leave _ .renewal⟩
  | _ => cases ends

def held (b : Broker) : List Fetcher :=
  (b.lock.map Fetcher.party).toList

theorem erase_held (b : Broker) (party : Party) :
    b.held.erase (.party party) =
      ((if b.lock = some party then none else b.lock).map Fetcher.party).toList := by
  cases hl : b.lock with
  | none => simp [held, hl]
  | some holder =>
      by_cases same : holder = party
      · simp [held, hl, same]
      · simp [held, hl, same]

/-- If before a step the call of the lock's holder is the only one in flight, then so it is after
the step. -/
theorem flying_held {b : Broker} (h : b.Orderly) (now : Nat) (input : Input) :
    b.flying now input b.held = (b.step now input).broker.held := by
  cases ends : b.ends? input with
  | some party =>
      obtain ⟨stays, lock⟩ := (step_moves b now input).gives h ends
      simp only [flying, ends, erase_held, ← lock]
      split
      · next fetch _ => exact absurd fetch stays
      · rfl
  | none =>
      cases own : input.party? with
      | none =>
          cases input <;> first | rfl | cases own
      | some party =>
          simp only [flying, ends, own]
          cases (step_moves b now input).takes own ends with
          | inl taken => simp [held, taken]
          | inr left =>
              split
              · next fetch _ => exact absurd fetch left.1
              · simp [held, left.2]

namespace Life

/-- Either the founder's call is all there is, or nothing is, or there is a broker in order whose
lock says which call is in flight. -/
inductive Sound : Life → Prop where
  | begun : Sound ⟨none, [.founder]⟩
  | ended : Sound ⟨none, []⟩
  | running (b : Broker) (orderly : b.Orderly) : Sound ⟨some b, b.held⟩

theorem founder_not_held (b : Broker) : Fetcher.founder ∉ b.held := by
  cases hl : b.lock <;> simp [held, hl]

theorem Sound.step {config : Config} {life : Life} (h : life.Sound) (now : Nat) (event : Event) :
    (life.step config now event).Sound := by
  cases event with
  | founded outcome =>
      cases h with
      | begun => exact .running _ (orderly_create config now outcome)
      | ended => exact .ended
      | running b orderly =>
          simp only [Life.step, founder_not_held, if_false]
          exact .running b orderly
  | abandoned =>
      cases h with
      | begun => exact .ended
      | ended => exact .ended
      | running b orderly =>
          simp only [Life.step, List.erase_of_not_mem (founder_not_held b)]
          exact .running b orderly
  | input input =>
      cases h with
      | begun => exact .begun
      | ended => exact .ended
      | running b orderly =>
          simp only [Life.step, flying_held orderly]
          exact .running _ (orderly.step now input)

theorem Sound.run {config : Config} {life : Life} (h : life.Sound)
    (events : List (Nat × Event)) : (life.run config events).Sound := by
  induction events generalizing life with
  | nil => exact h
  | cons timed rest ih => exact ih (h.step timed.1 timed.2)

end Life

/-- At most one call of the source is in flight, whatever happens in whatever order. The founder's
ends before there is a broker; a later one is in flight exactly as long as its party holds the
lock. -/
theorem single_flight (config : Config) (events : List (Nat × Life.Event)) :
    let life := Life.begun.run config events
    life.inFlight.length ≤ 1 ∧
    (.founder ∈ life.inFlight → life.broker = none) ∧
    ∀ party, .party party ∈ life.inFlight ↔ ∃ b, life.broker = some b ∧ b.lock = some party := by
  have sound : (Life.begun.run config events).Sound := Life.Sound.begun.run events
  generalize Life.begun.run config events = life at sound ⊢
  cases sound with
  | begun => simp
  | ended => simp
  | running b orderly =>
      cases hl : b.lock <;> simp [held, hl, eq_comm]

end Bearer.Broker

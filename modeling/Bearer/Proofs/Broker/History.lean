import Bearer.Proofs.Broker.Lock

/-!
What a broker remembers of its source. Only a fetch that lands, or a write to the store from
outside, changes the store, the schedule or the time of the last refresh; a party that asks, waits,
is served or leaves changes none of them.
-/
namespace Bearer.Broker

/-- What a broker remembers of the fetches that have landed. -/
structure Memory where
  config : Config
  store : Store
  published : Time.Interval
  version : Nat
  lastRefresh : Option Nat

def memory (b : Broker) : Memory :=
  ⟨b.config, b.store, b.published, b.version, b.lastRefresh⟩

/-- A renewal that lands changes the store, a refresh that lands everything. -/
def Memory.landed (m : Memory) (now : Nat) (party : Party)
    (outcome : Except Error Credential) : Memory :=
  match party with
  | .renewal => { m with store := m.store.write outcome }
  | .caller _ =>
    { m with
      store := m.store.write outcome
      published := m.config.nextInterval outcome
      version := m.version + 1
      lastRefresh := some now }

def landing? (b : Broker) : Input → Option (Except Error Credential)
  | .land party outcome => if b.phase party = .fetching then some outcome else none
  | _ => none

def landings (b : Broker) : List (Nat × Input) → List (Except Error Credential)
  | [] => []
  | (now, input) :: rest => (b.landing? input).toList ++ (b.step now input).broker.landings rest

theorem landings_append (b : Broker) (earlier later : List (Nat × Input)) :
    b.landings (earlier ++ later) = b.landings earlier ++ (b.after earlier).landings later := by
  induction earlier generalizing b with
  | nil => rfl
  | cons timed rest ih => simp [landings, ih]

theorem memory_unlock (b : Broker) : b.unlock.1.memory = { b with lock := none }.memory := by
  rw [unlock_fst]
  rfl

theorem memory_contend (b : Broker) (now id : Nat) (origin : Origin) :
    (b.contend now id origin).broker.memory = b.memory := by
  rw [contend]
  split
  · simp only [refresh]
    split
    · exact memory_unlock (b.countBy .debouncedRefresh)
    · rfl
  · rfl

theorem memory_look (b : Broker) (now id : Nat) (failed : String) (polls left : Nat) :
    (b.look now id failed polls left).broker.memory = b.memory := by
  simp only [look]
  split
  · rfl
  · split
    · rfl
    · exact memory_contend _ now id _

theorem memory_contendRenewal (b : Broker) (now seen : Nat) :
    (b.contendRenewal now seen).broker.memory = b.memory := by
  simp only [contendRenewal]
  split
  · simp only [renew]
    split
    · rfl
    · exact memory_unlock b
  · rfl

theorem memory_leave (b : Broker) (party : Party) : (b.leave party).broker.memory = b.memory := by
  simp only [leave]
  by_cases held : b.lock = some party
  · simp only [held, if_true]
    exact memory_unlock b
  · simp only [held, if_false]
    split
    · rw [notify_fst]
      rfl
    · rfl

/-- What is remembered after an input: it changes only where a fetch lands or the store is written
to. -/
def remembered (b : Broker) (now : Nat) : Input → Memory
  | .land party outcome =>
    if b.phase party = .fetching then b.memory.landed now party outcome else b.memory
  | .write outcome => { b.memory with store := b.store.write outcome }
  | _ => b.memory

theorem Moves.memory {b : Broker} {now : Nat} {input : Input} {ran : Ran}
    (moves : b.Moves now input ran) : ran.broker.memory = b.remembered now input := by
  cases moves with
  | idle input misfit =>
      cases input with
      | land party outcome => exact (if_neg misfit).symm
      | write outcome => exact absurd trivial misfit
      | _ => rfl
  | force id absent => exact memory_contend (b.countBy .forcedRefresh) now id .forced
  | resolve id failed polls absent => exact memory_look b now id failed polls polls
  | poll id failed polls left due found ripe => exact memory_look b now id failed polls left
  | timer deadline seen found ripe => exact memory_contendRenewal b now seen
  | acquire id origin found => exact memory_contend (b.dequeue _) now id origin
  | acquireRenewal seen found => exact memory_contendRenewal (b.dequeue _) now seen
  | land id origin outcome found =>
      rw [remembered, if_pos (phase_fetching_caller.mpr ⟨origin, found⟩)]
      simp [landRefresh, answer, dismiss, unlock_fst, publish, Broker.memory, Memory.landed]
  | landRenewal seen outcome found =>
      rw [remembered, if_pos (phase_fetching_renewal.mpr ⟨seen, found⟩)]
      cases outcome <;>
        simp [Broker.landRenewal, arm, unlock_fst, countBy, Broker.memory, Memory.landed]
  | cancel id caller found => exact memory_leave (b.dismiss id) _
  | dropLast last => exact memory_leave _ .renewal
  | rearm | clone | drop | write => rfl

theorem memory_step (b : Broker) (now : Nat) (input : Input) :
    (b.step now input).broker.memory = b.remembered now input :=
  (step_moves b now input).memory

theorem config_step (b : Broker) (now : Nat) (input : Input) :
    (b.step now input).broker.config = b.config := by
  have config := congrArg Memory.config (memory_step b now input)
  cases input with
  | land party outcome =>
      simp only [remembered] at config
      split at config
      · cases party <;> exact config
      · exact config
  | _ => exact config

theorem config_after (b : Broker) (inputs : List (Nat × Input)) :
    (b.after inputs).config = b.config :=
  after_induction (P := fun c => c.config = b.config)
    (fun c now input h => (config_step c now input).trans h) rfl inputs

end Bearer.Broker

import Bearer.Proofs.Broker.Schedule

/-!
What is left of work that was given up. A caller may be dropped wherever it waits, and the renewal
may be aborted wherever it waits; neither has done anything to the store, the schedule or the time
of the last refresh by then, and the lock passes on. So what a broker remembers is decided by the
fetches that have landed, and whoever asks next finds it as it was.
-/
namespace Bearer.Broker

/-- A fetch that landed. -/
structure Landing where
  moment : Nat
  party : Party
  outcome : Except Error Credential

def Memory.with (m : Memory) (landing : Landing) : Memory :=
  m.landed landing.moment landing.party landing.outcome

def landed? (b : Broker) (now : Nat) (input : Input) : Option Landing :=
  match input with
  | .land party outcome => if b.phase party = .fetching then some ⟨now, party, outcome⟩ else none
  | _ => none

/-- The fetches that land in a run. -/
def landed (b : Broker) : List (Nat × Input) → List Landing
  | [] => []
  | (now, input) :: rest => (b.landed? now input).toList ++ (b.step now input).broker.landed rest

/-- Who gives up with an input: a caller that is dropped, or the renewal with the last handle. -/
def leaver? (b : Broker) : Input → Option Party
  | .cancel id => if b.caller? id = none then none else some (.caller id)
  | .drop => if b.handles = 1 then some .renewal else none
  | _ => none

/-- What happens to a caller that tries for the free lock. -/
def outlook (b : Broker) (now : Nat) : Next :=
  match b.debounced? now with
  | some _ => .answer b.store.current
  | none => .fetch

/-- What is left of a party that has given up: nothing. Whoever stands in line is told that the lock
is free, and whoever gets it finds what was there before. -/
structure Vanished (b c : Broker) (party : Party) : Prop where
  memory : c.memory = b.memory
  away : c.phase party = .away
  lock : c.lock = if b.lock = some party then none else b.lock
  unqueued : party ∉ c.queue
  told : c.lock = none → c.queue ≠ [] → c.notified = true
  next : ∀ later input, c.Asks later input → c.lock = none →
    (c.step later input).next = b.outlook later

/-- The ways in which a step can touch what a broker remembers. -/
inductive Touches (b : Broker) (now : Nat) (input : Input) (c : Broker) : Prop where
  | refreshed (id : Nat) (outcome : Except Error Credential)
      (own : input = .land (.caller id) outcome) (fetching : b.phase (.caller id) = .fetching)
      (store : c.store = b.store.write outcome)
      (published : c.published = b.config.nextInterval outcome)
      (lastRefresh : c.lastRefresh = some now)
  | renewed (outcome : Except Error Credential) (own : input = .land .renewal outcome)
      (fetching : b.phase .renewal = .fetching) (store : c.store = b.store.write outcome)
      (published : c.published = b.published) (lastRefresh : c.lastRefresh = b.lastRefresh)
  | left (party : Party) (own : b.leaver? input = some party) (vanished : b.Vanished c party)
  | untouched (landing : b.landed? now input = none) (stays : b.leaver? input = none)
      (memory : c.memory = b.memory)

section Steps

variable {b c : Broker} {now : Nat} {input : Input}

theorem outlook_congr (memory : c.memory = b.memory) (now : Nat) :
    c.outlook now = b.outlook now := by
  have config : c.config = b.config := congrArg Memory.config memory
  have last : c.lastRefresh = b.lastRefresh := congrArg Memory.lastRefresh memory
  have store : c.store = b.store := congrArg Memory.store memory
  simp only [outlook, debounced?, config, last, store]

theorem Asks.next (asks : b.Asks now input) (free : b.lock = none) :
    (b.step now input).next = b.outlook now := by
  obtain ⟨c, id, origin, observed, step, lock, memory, _⟩ := asks.contends
  rw [step, Ran.after_next, contend_next (lock.trans free)]
  exact outlook_congr memory now

theorem remembered_eq (unwritten : ∀ outcome, input ≠ .write outcome) (now : Nat) :
    b.remembered now input = (b.landed? now input).toList.foldl Memory.with b.memory := by
  cases input with
  | land party outcome =>
      simp only [remembered, landed?]
      split <;> rfl
  | write outcome => exact absurd rfl (unwritten outcome)
  | _ => rfl

theorem leaver?_ends {party : Party} (own : b.leaver? input = some party) :
    b.ends? input = some party := by
  cases input with
  | cancel id =>
      simp only [leaver?] at own
      split at own
      · cases own
      · exact own
  | drop => exact own
  | _ => cases own

theorem phase_leave (b : Broker) (party other : Party) :
    (b.leave party).broker.phase other = b.phase other := by
  obtain ⟨_, _, _, same⟩ := b.leave_eq party
  rw [same]
  exact congrFun (phase_congr rfl rfl) other

theorem away_of_leaver {party : Party} (own : b.leaver? input = some party) (now : Nat) :
    (b.step now input).broker.phase party = .away := by
  cases input with
  | cancel id =>
      cases found : b.caller? id with
      | none => simp [leaver?, found] at own
      | some caller =>
          simp only [leaver?, found, reduceCtorEq, if_false, Option.some.injEq] at own
          subst own
          simp only [step, found]
          rw [phase_leave, phase_dismiss, if_pos rfl]
  | drop =>
      simp only [leaver?] at own
      split at own
      · next last =>
          cases own
          simp only [step, dropHandle, last, if_true]
          rw [phase_leave]
          rfl
      · cases own
  | _ => cases own

theorem vanished_of_leaver {party : Party} (orderly : b.Orderly)
    (own : b.leaver? input = some party) (now : Nat) :
    b.Vanished (b.step now input).broker party := by
  have after := orderly.step now input
  have away := away_of_leaver own now
  have memory : (b.step now input).broker.memory = b.memory := by
    rw [memory_step]
    cases input with
    | cancel id | drop => rfl
    | _ => cases own
  refine ⟨memory, away, ?_, ?_, after.told, fun later next asks free => ?_⟩
  · exact ((step_moves b now input).gives orderly (leaver?_ends own)).2
  · rw [← after.waits, away]
    exact nofun
  · rw [asks.next free]
    exact outlook_congr memory later

theorem step_touches (orderly : b.Orderly) (unwritten : ∀ outcome, input ≠ .write outcome)
    (now : Nat) : b.Touches now input (b.step now input).broker := by
  have memory := memory_step b now input
  cases own : b.leaver? input with
  | some party => exact .left party own (vanished_of_leaver orderly own now)
  | none =>
      cases landing : b.landed? now input with
      | none =>
          rw [remembered_eq unwritten, landing] at memory
          exact .untouched landing own memory
      | some fetched =>
          cases input with
          | land party outcome =>
              have fetching : b.phase party = .fetching := by
                simp only [landed?] at landing
                split at landing
                · assumption
                · cases landing
              rw [remembered, if_pos fetching] at memory
              have store := congrArg Memory.store memory
              have published := congrArg Memory.published memory
              have last := congrArg Memory.lastRefresh memory
              cases party with
              | caller id => exact .refreshed id outcome rfl fetching store published last
              | renewal => exact .renewed outcome rfl fetching store published last
          | _ => cases landing

end Steps

theorem memory_after (b : Broker) {inputs : List (Nat × Input)}
    (unwritten : ∀ timed ∈ inputs, ∀ outcome, timed.2 ≠ .write outcome) :
    (b.after inputs).memory = (b.landed inputs).foldl Memory.with b.memory := by
  induction inputs generalizing b with
  | nil => rfl
  | cons timed rest ih =>
      obtain ⟨now, input⟩ := timed
      have first : (b.step now input).broker.memory =
          (b.landed? now input).toList.foldl Memory.with b.memory := by
        rw [memory_step, remembered_eq (unwritten (now, input) List.mem_cons_self)]
      have others := ih (b.step now input).broker fun timed member =>
        unwritten timed (List.mem_cons_of_mem _ member)
      rw [after_cons, others, landed, List.foldl_append, first]

/-- A time is kept only for a refresh that landed then. -/
theorem landed_of_lastRefresh {b : Broker} (never : b.lastRefresh = none)
    {inputs : List (Nat × Input)} {moment : Nat}
    (last : (b.after inputs).lastRefresh = some moment) :
    ∃ earlier landing between, inputs = earlier ++ (moment, landing) :: between ∧
      (b.after earlier).landsRefresh landing = true := by
  induction inputs using List.reverseRecOn with
  | nil => cases never.symm.trans last
  | append_singleton inputs timed ih =>
      obtain ⟨now, input⟩ := timed
      rw [after_append, after_cons, after_nil, lastRefresh_step] at last
      by_cases lands : (b.after inputs).landsRefresh input = true
      · rw [if_pos lands] at last
        cases last
        exact ⟨inputs, input, [], rfl, lands⟩
      · rw [if_neg lands] at last
        obtain ⟨earlier, landing, between, split, landed⟩ := ih last
        exact ⟨earlier, landing, between ++ [(now, input)], by simp [split], landed⟩

end Bearer.Broker

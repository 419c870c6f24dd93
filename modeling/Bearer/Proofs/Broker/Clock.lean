import Bearer.Proofs.Broker.History

/-!
The clock of a broker. It stands still while a party has something to do, and it moves no further
than to the moment at which the next one has. So whoever sleeps goes on at the very moment for which
its timer was set, and whoever is told to try the lock does so at the moment at which it is told.
-/
namespace Bearer.Broker

/-- Whether a party has something to do: its timer has fired, it was told to try the lock, or it has
a new schedule. -/
def ready (b : Broker) (now : Nat) : Party → Bool
  | .caller id =>
    match b.caller? id with
    | some ⟨_, _, .pausing _ _ due⟩ => due ≤ now
    | some ⟨_, _, .queued⟩ => b.notified && b.queue.head? = some (.caller id)
    | _ => false
  | .renewal =>
    match b.renewal with
    | .armed deadline seen => b.version ≠ seen || deadline ≤ now
    | .queued _ => b.notified && b.queue.head? = some .renewal
    | _ => false

def parties (b : Broker) : List Party :=
  .renewal :: b.callers.map fun caller => .caller caller.id

/-- Nobody has anything to do from one moment until just before another. -/
def Still (b : Broker) (now till : Nat) : Prop :=
  now ≤ till ∧ ∀ moment party, now ≤ moment → moment < till → b.ready moment party = false

/-- A run whose moments are those of the clock. What comes from outside may come at any of them, and
at one moment the parties may go on in any order. -/
def Punctual (b : Broker) (now : Nat) : List (Nat × Input) → Prop
  | [] => True
  | (moment, input) :: rest => b.Still now moment ∧ (b.step moment input).broker.Punctual moment rest

/-- What the clock shows after a run. -/
def clock (now : Nat) (inputs : List (Nat × Input)) : Nat :=
  inputs.foldl (fun _ timed => timed.1) now

@[simp] theorem clock_concat (start now : Nat) (input : Input) (inputs : List (Nat × Input)) :
    clock start (inputs ++ [(now, input)]) = now := by
  simp [clock]

/-- The moment and the outcome of the fetch that has landed last, after one before the run. -/
def lastLanding (b : Broker) (last : Nat × Except Error Credential) :
    List (Nat × Input) → Nat × Except Error Credential
  | [] => last
  | (now, input) :: rest =>
    let last :=
      match b.landing? input with
      | some outcome => (now, outcome)
      | none => last
    (b.step now input).broker.lastLanding last rest

theorem lastLanding_append (b : Broker) (last : Nat × Except Error Credential)
    (earlier later : List (Nat × Input)) :
    b.lastLanding last (earlier ++ later) =
      (b.after earlier).lastLanding (b.lastLanding last earlier) later := by
  induction earlier generalizing b last with
  | nil => rfl
  | cons timed rest ih => exact ih ..

theorem lastLanding_concat (b : Broker) (last : Nat × Except Error Credential)
    (inputs : List (Nat × Input)) (now : Nat) (input : Input) :
    b.lastLanding last (inputs ++ [(now, input)]) =
      match (b.after inputs).landing? input with
      | some outcome => (now, outcome)
      | none => b.lastLanding last inputs :=
  lastLanding_append ..

theorem punctual_append {b : Broker} {now : Nat} {earlier later : List (Nat × Input)} :
    b.Punctual now (earlier ++ later) ↔
      b.Punctual now earlier ∧ (b.after earlier).Punctual (clock now earlier) later := by
  induction earlier generalizing b now with
  | nil => simp [Punctual, clock]
  | cons timed rest ih =>
      simp only [List.cons_append, Punctual, ih, and_assoc]
      rfl

theorem punctual_concat {b : Broker} {start now : Nat} {input : Input}
    {inputs : List (Nat × Input)} :
    b.Punctual start (inputs ++ [(now, input)]) ↔
      b.Punctual start inputs ∧ (b.after inputs).Still (clock start inputs) now := by
  simp [punctual_append, Punctual]

theorem lastLanding_le_clock {b : Broker} {start : Nat} {inputs : List (Nat × Input)}
    {last : Nat × Except Error Credential} (early : last.1 ≤ start)
    (punctual : b.Punctual start inputs) : (b.lastLanding last inputs).1 ≤ clock start inputs := by
  induction inputs generalizing b start last with
  | nil => exact early
  | cons timed rest ih =>
      obtain ⟨now, input⟩ := timed
      obtain ⟨still, later⟩ := punctual
      refine ih ?_ later
      cases b.landing? input with
      | some outcome => exact Nat.le_refl now
      | none => exact Nat.le_trans early still.1

/-- Who stands in line for a free lock is not kept waiting: the first of them has been told. -/
theorem Orderly.head_ready {b : Broker} (h : b.Orderly) (free : b.lock = none)
    (standing : b.queue ≠ []) (now : Nat) : ∃ party, b.ready now party = true := by
  obtain ⟨first, rest, queue⟩ := List.exists_cons_of_ne_nil standing
  have told := h.told free standing
  have queued := (h.waits first).mpr (by simp [queue])
  refine ⟨first, ?_⟩
  cases first with
  | renewal =>
      obtain ⟨seen, found⟩ := phase_queued_renewal.mp queued
      simp [ready, found, told, queue]
  | caller id =>
      obtain ⟨origin, found⟩ := phase_queued_caller.mp queued
      simp [ready, found, told, queue]

/-- Where the clock moves on, nobody stands in line for a free lock. -/
theorem Still.queue {b : Broker} {now till : Nat} (still : b.Still now till) (h : b.Orderly)
    (moves : now < till) (free : b.lock = none) : b.queue = [] := by
  refine Decidable.not_not.mp fun standing => ?_
  obtain ⟨party, ready⟩ := h.head_ready free standing now
  simp [still.2 now party (Nat.le_refl now) moves] at ready

theorem ready_mono {b : Broker} {now later : Nat} {party : Party} (order : now ≤ later)
    (ready : b.ready now party = true) : b.ready later party = true := by
  cases party with
  | renewal =>
      simp only [Broker.ready] at ready ⊢
      split at ready
      · simp only [ne_eq, Bool.or_eq_true, decide_eq_true_eq] at ready ⊢
        exact ready.imp_right fun fired => Nat.le_trans fired order
      · exact ready
      · exact ready
  | caller id =>
      simp only [Broker.ready] at ready ⊢
      split at ready
      · simp only [decide_eq_true_eq] at ready ⊢
        exact Nat.le_trans ready order
      · exact ready
      · exact ready

theorem mem_parties {b : Broker} {now : Nat} {party : Party} (ready : b.ready now party = true) :
    party ∈ b.parties := by
  cases party with
  | renewal => exact List.mem_cons_self
  | caller id =>
      cases found : b.caller? id with
      | none => simp [Broker.ready, found] at ready
      | some caller =>
          have inside := List.mem_of_find?_eq_some found
          exact List.mem_cons_of_mem _
            (List.mem_map.mpr ⟨caller, inside, congrArg Party.caller (caller?_id found)⟩)

/-- `Still` as a check that runs. -/
def isStill (b : Broker) (now till : Nat) : Bool :=
  now ≤ till && (now = till || b.parties.all fun party => !b.ready (till - 1) party)

def isPunctual (b : Broker) (now : Nat) : List (Nat × Input) → Bool
  | [] => true
  | (moment, input) :: rest =>
    b.isStill now moment && (b.step moment input).broker.isPunctual moment rest

theorem still_of_isStill {b : Broker} {now till : Nat} (check : b.isStill now till = true) :
    b.Still now till := by
  simp only [isStill, Bool.and_eq_true, Bool.or_eq_true, decide_eq_true_eq, List.all_eq_true,
    Bool.not_eq_true'] at check
  obtain ⟨order, stands | idle⟩ := check
  · subst stands
    exact ⟨order, fun moment party after before => absurd after (Nat.not_le.mpr before)⟩
  · refine ⟨order, fun moment party after before => Bool.eq_false_iff.mpr fun ready => ?_⟩
    have later := ready_mono (Nat.le_sub_one_of_lt before) ready
    simp [idle party (mem_parties later)] at later

theorem punctual_of_isPunctual {b : Broker} {now : Nat} {inputs : List (Nat × Input)}
    (check : b.isPunctual now inputs = true) : b.Punctual now inputs := by
  induction inputs generalizing b now with
  | nil => trivial
  | cons timed rest ih =>
      simp only [isPunctual, Bool.and_eq_true] at check
      exact ⟨still_of_isStill check.1, ih check.2⟩

end Bearer.Broker

import Bearer.Proofs.Broker.Schedule

/-!
What one caller does in a run. Its acts are the inputs of its own that came to something; what the
others do in between leaves it where it is. A caller that asks for a refresh waits for the lock or
for its fetch until it is served, and never sleeps.
-/
namespace Bearer.Broker

def Next.idle : Next → Bool
  | .nothing => true
  | _ => false

def Next.sleeps : Next → Bool
  | .sleep _ => true
  | _ => false

/-- An act of a caller: its moment, the broker as it finds it, and what it comes to. -/
structure Act where
  moment : Nat
  found : Broker
  ran : Ran

/-- What the caller can tell of an act. -/
def Act.told (act : Act) : Nat × Next :=
  (act.moment, act.ran.next)

def act? (b : Broker) (now id : Nat) (input : Input) : Option Act :=
  let ran := b.step now input
  if input.party? = some (.caller id) && !ran.next.idle then some ⟨now, b, ran⟩ else none

/-- The acts of a caller in a run. -/
def acts (b : Broker) (id : Nat) : List (Nat × Input) → List Act
  | [] => []
  | (now, input) :: rest => (b.act? now id input).toList ++ (b.step now input).broker.acts id rest

/-- Whether an input leaves a caller its errand: nobody sends it on another one, and it is not
dropped. -/
def Input.keeps (id : Nat) : Input → Bool
  | .force other | .resolve other _ _ | .cancel other => other ≠ id
  | _ => true

/-- Whether a run leaves a caller its errand. -/
def keptIn (id : Nat) (inputs : List (Nat × Input)) : Bool :=
  inputs.all fun timed => timed.2.keeps id

section Acts

variable {b : Broker} {now id : Nat} {input : Input} {inputs : List (Nat × Input)}

theorem act?_others (others : input.party? ≠ some (.caller id)) : b.act? now id input = none := by
  simp [act?, others]

theorem act?_idle (idle : b.step now input = b.unchanged) : b.act? now id input = none := by
  simp [act?, idle, unchanged, Next.idle]

theorem act?_own (own : input.party? = some (.caller id))
    (active : (b.step now input).next.idle = false) :
    b.act? now id input = some ⟨now, b, b.step now input⟩ := by
  simp [act?, own, active]

theorem callers_contendRenewal (b : Broker) (now seen : Nat) :
    (b.contendRenewal now seen).broker.callers = b.callers := by
  simp only [contendRenewal]
  split
  · simp only [renew]
    split
    · rfl
    · simp [reschedule, arm, unlock_fst]
  · rfl

theorem callers_landRenewal (b : Broker) (now seen : Nat) (outcome : Except Error Credential) :
    (b.landRenewal now seen outcome).broker.callers = b.callers := by
  cases outcome <;> simp [landRenewal, arm, unlock_fst, countBy]

theorem callers_leave (b : Broker) (party : Party) :
    (b.leave party).broker.callers = b.callers := by
  obtain ⟨lock, queue, notified, same⟩ := leave_eq b party
  rw [same]

theorem Moves.caller?_others {ran : Ran} (moves : b.Moves now input ran)
    (others : input.party? ≠ some (.caller id)) : ran.broker.caller? id = b.caller? id := by
  have differs : ∀ other, input.party? = some (.caller other) → id ≠ other := by
    intro other own same
    exact others (same ▸ own)
  have still : ∀ c : Broker, c.callers = b.callers → c.caller? id = b.caller? id := by
    intro c callers
    simp only [caller?, callers]
  cases moves with
  | idle input misfit => rfl
  | force other absent =>
      have turned : (b.countBy .forcedRefresh).Turned other
          ((b.countBy .forcedRefresh).contend now other .forced).broker := turned_contend
      exact turned.caller? (differs other rfl)
  | resolve other failed polls absent => exact turned_look.caller? (differs other rfl)
  | poll other failed polls left due found ripe => exact turned_look.caller? (differs other rfl)
  | timer deadline seen found ripe => exact still _ (callers_contendRenewal b now seen)
  | rearm deadline seen found stale => rfl
  | acquire other origin found =>
      have turned : (b.dequeue (.caller other)).Turned other
          ((b.dequeue (.caller other)).contend now other origin).broker := turned_contend
      exact turned.caller? (differs other rfl)
  | acquireRenewal seen found =>
      exact still _ (callers_contendRenewal (b.dequeue .renewal) now seen)
  | land other origin outcome found => exact turned_landRefresh.caller? (differs other rfl)
  | landRenewal seen outcome found => exact still _ (callers_landRenewal b now seen outcome)
  | cancel other caller found =>
      have left := callers_leave (b.dismiss other) (.caller other)
      have turned : b.Turned other ((b.dismiss other).leave (.caller other)).broker :=
        turned_dismiss left (renewal_leave _ _)
      exact turned.caller? (differs other rfl)
  | clone | drop | write => rfl
  | dropLast last => exact still _ (callers_leave _ .renewal)

/-- What is not an input of a caller leaves it where it is. -/
theorem caller?_others (others : input.party? ≠ some (.caller id)) :
    (b.step now input).broker.caller? id = b.caller? id :=
  (step_moves b now input).caller?_others others

theorem keptIn_cons {timed : Nat × Input} :
    keptIn id (timed :: inputs) = true ↔ timed.2.keeps id = true ∧ keptIn id inputs = true := by
  simp [keptIn]

/-- An input of a caller that keeps its errand is one that lets it go on. -/
theorem own_of_keeps (kept : input.keeps id = true) (own : input.party? = some (.caller id)) :
    input = .poll id ∨ input = .acquire (.caller id) ∨
      ∃ outcome, input = .land (.caller id) outcome := by
  cases input with
  | force other | resolve other _ _ | cancel other =>
      simp only [Input.party?, Option.some.injEq, Party.caller.injEq] at own
      simp [Input.keeps, own] at kept
  | poll other =>
      simp only [Input.party?, Option.some.injEq, Party.caller.injEq] at own
      exact .inl (congrArg Input.poll own)
  | acquire party =>
      simp only [Input.party?, Option.some.injEq] at own
      exact .inr (.inl (congrArg Input.acquire own))
  | land party outcome =>
      simp only [Input.party?, Option.some.injEq] at own
      exact .inr (.inr ⟨outcome, congrArg (Input.land · outcome) own⟩)
  | timer | rearm | drop => cases own
  | clone | write _ => cases own

/-- A caller that is gone does nothing more, and stays away. -/
theorem acts_absent (absent : b.caller? id = none) (kept : keptIn id inputs = true) :
    b.acts id inputs = [] := by
  induction inputs generalizing b with
  | nil => rfl
  | cons timed rest ih =>
      obtain ⟨now, input⟩ := timed
      obtain ⟨keeps, kept⟩ := keptIn_cons.mp kept
      by_cases own : input.party? = some (.caller id)
      · have idle : b.step now input = b.unchanged := by
          apply step_idle
          obtain rfl | rfl | ⟨outcome, rfl⟩ := own_of_keeps keeps own
          · rintro ⟨failed, polls, left, due, found, -⟩
            cases absent.symm.trans found
          · intro queued
            cases (phase_away absent).symm.trans queued
          · intro fetching
            cases (phase_away absent).symm.trans fetching
        have gone : (b.step now input).broker.caller? id = none := by
          rw [idle]
          exact absent
        simp [acts, act?_idle idle, ih gone kept]
      · have gone : (b.step now input).broker.caller? id = none :=
          (caller?_others own).trans absent
        simp [acts, act?_others own, ih gone kept]

/-- A caller that tries the lock is served, fetches or stands in line. -/
theorem contend_next_awake (b : Broker) (now id : Nat) (origin : Origin) :
    (b.contend now id origin).next.idle = false ∧
      (b.contend now id origin).next.sleeps = false := by
  simp only [contend]
  split
  · simp only [refresh]
    split <;> exact ⟨rfl, rfl⟩
  · exact ⟨rfl, rfl⟩

theorem contend_unrested (b : Broker) (now id : Nat) (origin : Origin) :
    (b.contend now id origin).broker.phase (.caller id) ≠ .resting := by
  simp only [contend]
  split
  · simp only [refresh]
    split
    · simp [answer, Ran.after, Ran.waking]
    · have fetching := phase_place b ⟨id, origin, .fetching⟩ (.caller id)
      rw [if_pos rfl] at fetching
      intro resting
      cases fetching.symm.trans resting
  · have queued := phase_place b ⟨id, origin, .queued⟩ (.caller id)
    rw [if_pos rfl] at queued
    intro resting
    cases queued.symm.trans resting

theorem landRefresh_unrested (b : Broker) (now id : Nat) (origin : Origin)
    (outcome : Except Error Credential) :
    (b.landRefresh now id origin outcome).broker.phase (.caller id) ≠ .resting := by
  simp [landRefresh, answer]

theorem Moves.unrested {ran : Ran} (moves : b.Moves now input ran)
    (own : input.party? = some (.caller id)) (kept : input.keeps id = true)
    (unrested : b.phase (.caller id) ≠ .resting) :
    ran.broker.phase (.caller id) ≠ .resting ∧ ran.next.sleeps = false := by
  obtain rfl | rfl | ⟨outcome, rfl⟩ := own_of_keeps kept own
  · cases moves with
    | idle input misfit => exact ⟨unrested, rfl⟩
    | poll _ failed polls left due found ripe => exact absurd (phase_caller found) unrested
  · cases moves with
    | idle input misfit => exact ⟨unrested, rfl⟩
    | acquire _ origin found =>
        exact ⟨contend_unrested _ now id origin, (contend_next_awake _ now id origin).2⟩
  · cases moves with
    | idle input misfit => exact ⟨unrested, rfl⟩
    | land _ origin outcome found => exact ⟨landRefresh_unrested b now id origin outcome, rfl⟩

/-- Who does not pause between two looks does not come to pause. -/
theorem unrested_step (unrested : b.phase (.caller id) ≠ .resting) (kept : input.keeps id = true)
    (now : Nat) : (b.step now input).broker.phase (.caller id) ≠ .resting := by
  by_cases own : input.party? = some (.caller id)
  · exact ((step_moves b now input).unrested own kept unrested).1
  · have same : (b.step now input).broker.caller? id = b.caller? id := caller?_others own
    simpa only [phase, same] using unrested

theorem unrested_after (unrested : b.phase (.caller id) ≠ .resting)
    (kept : keptIn id inputs = true) : (b.after inputs).phase (.caller id) ≠ .resting := by
  induction inputs generalizing b with
  | nil => exact unrested
  | cons timed rest ih =>
      obtain ⟨keeps, kept⟩ := keptIn_cons.mp kept
      exact ih (unrested_step unrested keeps timed.1) kept

/-- Who does not pause between two looks does not sleep. -/
theorem acts_awake (unrested : b.phase (.caller id) ≠ .resting) (kept : keptIn id inputs = true) :
    ∀ act ∈ b.acts id inputs, act.ran.next.sleeps = false := by
  induction inputs generalizing b with
  | nil => simp [acts]
  | cons timed rest ih =>
      obtain ⟨now, input⟩ := timed
      obtain ⟨keeps, kept⟩ := keptIn_cons.mp kept
      intro act member
      rcases List.mem_append.mp member with first | later
      · simp only [Option.mem_toList, act?] at first
        split at first
        · next own =>
            simp only [Bool.and_eq_true, decide_eq_true_eq] at own
            cases first
            exact ((step_moves b now input).unrested own.1 keeps unrested).2
        · cases first
      · exact ih (unrested_step unrested keeps now) kept act later

end Acts

end Bearer.Broker

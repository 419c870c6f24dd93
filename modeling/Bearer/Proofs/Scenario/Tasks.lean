import Mathlib
import Bearer.Scenario.Engine

/-!
What one task does, whatever other tasks do in between. A task makes its moves one after the other;
where it waits, the others run, so that it goes on in some other world.
-/
namespace Bearer.Scenario.World

variable [Url.Idna]

/-- The moves of a task from a job on, until the frames `below` have an answer, with the requests
that it sends in their order. -/
inductive Runs (id : Nat) (below : List Frame) :
    World → List Frame → Job → List Http.Request → Answer → Prop where
  | answered (w : World) (answer : Answer) : Runs id below w below (.give answer) [] answer
  | waited {w later : World} {frames : List Frame} {sent : List Http.Request} {answer : Answer}
      (goes : Runs id below later frames (.give .elapsed) sent answer) :
      Runs id below w frames .wait sent answer
  | moved {w next : World} {frames above : List Frame} {job work : Job}
      {here sent : List Http.Request} {answer : Answer}
      (under : ∀ given, (frames, job) ≠ (below, .give given)) (busy : job ≠ .wait)
      (moves : w.advance id frames job = (above, work, next))
      (sends : next.requests = here.reverse ++ w.requests)
      (goes : Runs id below next above work sent answer) :
      Runs id below w frames job (here ++ sent) answer

variable {id : Nat} {below frames above : List Frame} {w next : World} {job work : Job}
  {sent : List Http.Request} {answer given : Answer}

theorem runs_give_iff :
    Runs id below w below (.give given) sent answer ↔ sent = [] ∧ answer = given := by
  constructor
  · intro runs
    cases runs with
    | answered => exact ⟨rfl, rfl⟩
    | moved under _ _ _ _ => exact absurd rfl (under given)
  · rintro ⟨rfl, rfl⟩
    exact .answered w answer

theorem runs_wait_iff :
    Runs id below w frames .wait sent answer ↔
      ∃ later, Runs id below later frames (.give .elapsed) sent answer := by
  constructor
  · intro runs
    cases runs with
    | waited goes => exact ⟨_, goes⟩
    | moved _ busy _ _ _ => exact absurd rfl busy
  · rintro ⟨later, goes⟩
    exact .waited goes

/-- A move that is known is the one that is made. -/
theorem runs_move_iff (here : List Http.Request)
    (moves : w.advance id frames job = (above, work, next))
    (under : ∀ given, (frames, job) ≠ (below, .give given)) (busy : job ≠ .wait)
    (sends : next.requests = here.reverse ++ w.requests) :
    Runs id below w frames job sent answer ↔
      ∃ rest, sent = here ++ rest ∧ Runs id below next above work rest answer := by
  constructor
  · intro runs
    cases runs with
    | answered => exact absurd rfl (under answer)
    | waited => exact absurd rfl busy
    | moved _ _ movesToo sendsToo goes =>
        cases moves.symm.trans movesToo
        cases List.reverse_injective (List.append_cancel_right (sendsToo.symm.trans sends))
        exact ⟨_, rfl, goes⟩
  · rintro ⟨rest, rfl, goes⟩
    exact .moved under busy moves sends goes

/-- A move that sends nothing. -/
theorem runs_quiet_iff (moves : w.advance id frames job = (above, work, next))
    (under : ∀ given, (frames, job) ≠ (below, .give given)) (busy : job ≠ .wait)
    (quiet : next.requests = w.requests) :
    Runs id below w frames job sent answer ↔ Runs id below next above work sent answer := by
  rw [runs_move_iff [] moves under busy quiet]
  constructor
  · rintro ⟨rest, rfl, goes⟩
    exact goes
  · exact fun goes => ⟨sent, rfl, goes⟩

theorem ne_below (other : ∀ given, job ≠ .give given) (given : Answer) :
    (frames, job) ≠ (below, .give given) :=
  fun same => other given (congrArg Prod.snd same)

/-- A task that sleeps does what it would do in any world. -/
theorem runs_sleep_iff {due : Nat} {p : Prop}
    (anywhere : ∀ later, Runs id below later frames (.give .elapsed) sent answer ↔ p) :
    Runs id below w frames (.sleep due) sent answer ↔ p := by
  by_cases past : due ≤ w.clock
  · have moves : w.advance id frames (.sleep due) = (frames, .give .elapsed, w) := by
      rw [advance, if_pos past]
    rw [runs_quiet_iff moves (ne_below fun _ same => nomatch same) nofun rfl, anywhere]
  · have moves : w.advance id frames (.sleep due) = (frames, .wait, w.setTimer id due) := by
      rw [advance, if_neg past]
    rw [runs_quiet_iff moves (ne_below fun _ same => nomatch same) nofun rfl, runs_wait_iff]
    constructor
    · rintro ⟨later, goes⟩
      exact (anywhere later).mp goes
    · intro holds
      exact ⟨w, (anywhere w).mpr holds⟩

/-- A task that sends a request does, in any world, what it does with the reply that the wire has
for it. -/
theorem runs_send_iff {request : Http.Request} {p : List Http.Request → Prop}
    (anywhere : ∀ later rest, Runs id below later frames
      (.give (.reply (w.wire.answer request).1.result)) rest answer ↔ p rest)
    (under : ∀ frame, frame :: frames ≠ below) :
    Runs id below w frames (.send request) sent answer ↔
      ∃ rest, sent = request :: rest ∧ p rest := by
  have moves : w.advance id frames (.send request) =
      (.delay (w.wire.answer request).1.result :: frames,
        .sleep (w.clock + (w.wire.answer request).1.delay),
        { w with wire := (w.wire.answer request).2, requests := request :: w.requests }) := rfl
  rw [runs_move_iff [request] moves (ne_below fun _ same => nomatch same) nofun rfl]
  refine exists_congr fun rest => and_congr_right fun _ => ?_
  apply runs_sleep_iff
  intro later
  have wakes : later.advance id (.delay (w.wire.answer request).1.result :: frames)
      (.give .elapsed) = (frames, .give (.reply (w.wire.answer request).1.result), later) := rfl
  have above : ∀ given, (Frame.delay (w.wire.answer request).1.result :: frames,
      Job.give .elapsed) ≠ (below, .give given) :=
    fun given same => under _ (congrArg Prod.fst same)
  rw [runs_quiet_iff wakes above nofun rfl, anywhere]

end Bearer.Scenario.World

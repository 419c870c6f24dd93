import Bearer.Proofs.Broker.Looks
import Bearer.Scenario.Engine

/-!
When a caller looks at the store, and how its polling ends. Between two looks it sleeps until a
timer fires that it sets for one poll interval later. A timer may fire later than the moment for
which it was set: those of a scenario fire on whole milliseconds.
-/
namespace Bearer.Broker

/-- The moments at which a caller looks, from the first on, with timers that fire like these. -/
def firing (fires : Nat → Nat) (interval first : Nat) : Nat → Nat
  | 0 => first
  | k + 1 => firing fires interval (fires (first + interval)) k

/-- The moment for which a caller has set its timer. -/
def timer? (b : Broker) (id : Nat) : Option Nat :=
  match b.caller? id with
  | some ⟨_, _, .pausing _ _ due⟩ => some due
  | _ => none

/-- Whether the timer of a caller always fires when `fires` says: the clock does not move past that
moment as long as the caller has not gone on, and the caller does not go on before. -/
def wakes (fires : Nat → Nat) (b : Broker) (id : Nat) : List (Nat × Input) → Bool
  | [] => true
  | (now, input) :: rest =>
    ((b.timer? id).all fun due =>
      now ≤ fires due && ((b.act? now id input).isNone || fires due ≤ now)) &&
      (b.step now input).broker.wakes fires id rest

/-- Timers that are exact for every look make the looks exact. -/
theorem firing_exact {fires : Nat → Nat} {interval first : Nat}
    (exactly : ∀ i, fires (first + i * interval) = first + i * interval) (k : Nat) :
    firing fires interval first k = first + k * interval := by
  induction k generalizing first with
  | zero => simp [firing]
  | succ k ih =>
      have next := exactly 1
      rw [Nat.one_mul] at next
      rw [firing, next, ih]
      · rw [Nat.succ_mul, Nat.add_assoc, Nat.add_comm (k * interval)]
      · intro i
        have later := exactly (i + 1)
        rw [Nat.succ_mul, Nat.add_comm (i * interval), ← Nat.add_assoc] at later
        exact later

section Pace

variable {b : Broker} {now id polls left due : Nat} {failed : String} {input : Input}
  {inputs rest : List (Nat × Input)} {fires : Nat → Nat}

theorem timer?_pausing
    (found : b.caller? id = some ⟨id, .resolving failed, .pausing polls left due⟩) :
    b.timer? id = some due := by
  simp only [timer?, found]

theorem wakes_pausing
    (found : b.caller? id = some ⟨id, .resolving failed, .pausing polls left due⟩)
    (woken : b.wakes fires id ((now, input) :: rest) = true) :
    now ≤ fires due ∧ (b.act? now id input ≠ none → fires due ≤ now) ∧
      (b.step now input).broker.wakes fires id rest = true := by
  simp only [wakes, timer?_pausing found, Option.all_some, Bool.and_eq_true, Bool.or_eq_true,
    decide_eq_true_eq, Option.isNone_iff_eq_none] at woken
  obtain ⟨⟨before, acts⟩, woken⟩ := woken
  exact ⟨before, acts.resolve_left, woken⟩

theorem wakes_tail (woken : b.wakes fires id ((now, input) :: rest) = true) :
    (b.step now input).broker.wakes fires id rest = true := by
  simp only [wakes, Bool.and_eq_true] at woken
  exact woken.2

/-- When a caller makes its looks: they are never less than one interval apart, and where its timers
fire in a known way, each is made when the timer for it fires. -/
structure Paced (b : Broker) (id : Nat) (failed : String) (polls left due : Nat)
    (first : (Nat → Nat) → Nat) (inputs : List (Nat × Input)) : Prop where
  spaced : ∀ k look, ((b.acts id inputs).take left)[k]? = some look →
    due + k * b.config.pollInterval.nanos ≤ look.moment
  timed : ∀ fires, b.wakes fires id inputs = true → ∀ k look,
    ((b.acts id inputs).take left)[k]? = some look →
      look.moment = firing fires b.config.pollInterval.nanos (first fires) k
  clock : ∀ fires start, (∀ moment, moment ≤ fires moment) → start ≤ first fires →
    b.wakes fires id inputs = true → ∀ others later,
      (b.after inputs).caller? id =
        some ⟨id, .resolving failed, .pausing polls others later⟩ →
      clock start inputs ≤
        firing fires b.config.pollInterval.nanos (first fires) (b.acts id inputs).length

/-- A caller that does not pause any more has made its only look. -/
theorem paced_once (look : Act) (once : (b.acts id ((now, input) :: rest)).take left = [look])
    (same : look.moment = now) (kept : keptIn id rest = true)
    (unrested : (b.step now input).broker.phase (.caller id) ≠ .resting) :
    b.Paced id failed polls left now (fun _ => now) ((now, input) :: rest) := by
  have only : ∀ k act, ((b.acts id ((now, input) :: rest)).take left)[k]? = some act →
      k = 0 ∧ act.moment = now := by
    intro k act found
    rw [once, List.getElem?_singleton] at found
    split at found
    · next first =>
        cases found
        exact ⟨first, same⟩
    · cases found
  refine ⟨?_, ?_, ?_⟩
  · intro k act found
    obtain ⟨rfl, moment⟩ := only k act found
    simp [moment]
  · intro fires _ k act found
    obtain ⟨rfl, moment⟩ := only k act found
    exact moment
  · intro fires start _ _ _ others later found
    have stays := unrested_after unrested kept
    exact absurd (phase_caller found) stays

theorem Glances.paced (glances : b.Glances now id failed polls left input) (several : 0 < left)
    (kept : keptIn id rest = true)
    (pausing : ∀ (c : Broker) left due, 0 < left →
      c.caller? id = some ⟨id, .resolving failed, .pausing polls left due⟩ →
      c.Paced id failed polls left due (fun fires => fires due) rest) :
    b.Paced id failed polls left now (fun _ => now) ((now, input) :: rest) := by
  have acts := glances.acts rest
  rcases glances.comes with ⟨-, absent⟩ | ⟨more, -, waits⟩ | ⟨last, lacks, nothing⟩
  · have gone := phase_away absent
    refine paced_once ⟨now, b, b.step now input⟩ ?_ rfl kept (by simp [gone])
    rw [acts, acts_absent absent kept, List.take_of_length_le several]
  · have taken : (b.acts id ((now, input) :: rest)).take left =
        ⟨now, b, b.step now input⟩ :: ((b.step now input).broker.acts id rest).take (left - 1) := by
      rw [acts, ← Nat.succ_pred_eq_of_pos several]
      rfl
    obtain ⟨spaced, timed, clock⟩ := pausing _ _ _ (by omega) waits
    rw [config_step] at spaced timed clock
    refine ⟨?_, ?_, ?_⟩
    · intro k look found
      rw [taken] at found
      cases k with
      | zero =>
          cases found
          simp
      | succ k =>
          have later := spaced k look found
          rw [Nat.succ_mul]
          omega
    · intro fires woken k look found
      rw [taken] at found
      cases k with
      | zero =>
          cases found
          rfl
      | succ k => exact timed fires (wakes_tail woken) k look found
    · intro fires start late _ woken others later found
      rw [acts, List.length_cons]
      have ahead : now ≤ fires (now + b.config.pollInterval.nanos) :=
        Nat.le_trans (Nat.le_add_right ..) (late _)
      exact clock fires now late ahead (wakes_tail woken) others later found
  · have once : left = 1 := by omega
    refine paced_once ⟨now, b, b.step now input⟩ ?_ rfl kept
      (glances.unrested nothing last)
    rw [acts, once]
    rfl

/-- By induction on the run. The next look is due when the timer fires; what the others do before
that moves neither the timer nor the clock past it. -/
theorem paced_pausing {c : Broker} (several : 0 < left)
    (found : c.caller? id = some ⟨id, .resolving failed, .pausing polls left due⟩)
    (kept : keptIn id inputs = true) :
    c.Paced id failed polls left due (fun fires => fires due) inputs := by
  induction inputs generalizing c left due with
  | nil =>
      refine ⟨by simp [acts], by simp [acts], ?_⟩
      intro fires start _ early _ others later _
      exact early
  | cons timed rest ih =>
      obtain ⟨now, input⟩ := timed
      obtain ⟨keeps, kept⟩ := keptIn_cons.mp kept
      rcases pausing_step found keeps now with ⟨glances, ripe⟩ | ⟨quiet, same⟩
      · obtain ⟨spaced, timed, clock⟩ :=
          glances.paced several kept fun c left due several found => ih several found kept
        have active : c.act? now id input ≠ none := by simp [glances.act?]
        have punctually : ∀ fires, c.wakes fires id ((now, input) :: rest) = true →
            now = fires due := by
          intro fires woken
          obtain ⟨before, acts, -⟩ := wakes_pausing found woken
          exact Nat.le_antisymm before (acts active)
        refine ⟨?_, ?_, ?_⟩
        · intro k look acted
          exact Nat.le_trans (Nat.add_le_add_right ripe _) (spaced k look acted)
        · intro fires woken
          rw [← punctually fires woken]
          exact timed fires woken
        · intro fires start late early woken
          rw [← punctually fires woken] at early ⊢
          exact clock fires start late early woken
      · obtain ⟨spaced, timed, clock⟩ := ih several (same.trans found) kept
        have acts : c.acts id ((now, input) :: rest) = (c.step now input).broker.acts id rest := by
          simp [acts, quiet]
        rw [config_step, ← acts] at spaced timed clock
        refine ⟨spaced, ?_, ?_⟩
        · intro fires woken
          exact timed fires (wakes_tail woken)
        · intro fires start late _ woken
          obtain ⟨before, -, woken⟩ := wakes_pausing found woken
          exact clock fires now late before woken

end Pace

section Verdict

variable {id polls : Nat} {failed : String} {missed : List Act}

/-- Looks that made a caller pause found nothing. -/
theorem findIdx?_pauses (pauses : ∀ look ∈ missed, look.Pauses id failed polls) :
    missed.findIdx? (Act.finds failed) = none :=
  List.findIdx?_eq_none_iff.mpr fun look member => finds_of_lacks (pauses look member).lacks

theorem findIdx?_hit {hit : Act} (pauses : ∀ look ∈ missed, look.Pauses id failed polls)
    (hits : hit.Hits id failed) :
    (missed ++ [hit]).findIdx? (Act.finds failed) = some missed.length := by
  rw [List.findIdx?_append, findIdx?_pauses pauses]
  simp [finds_of_offers hits.offers]

theorem findIdx?_last {last : Act} (pauses : ∀ look ∈ missed, look.Pauses id failed polls)
    (lacks : last.found.Lacks failed) :
    (missed ++ [last]).findIdx? (Act.finds failed) = none := by
  rw [List.findIdx?_append, findIdx?_pauses pauses]
  simp [finds_of_lacks lacks]

theorem countP_sleeps {rest : List Act} (pauses : ∀ look ∈ missed, look.Pauses id failed polls)
    (awake : ∀ act ∈ rest, act.ran.next.sleeps = false) :
    (missed ++ rest).countP (·.ran.next.sleeps) = missed.length := by
  have asleep : missed.countP (·.ran.next.sleeps) = missed.length := by
    apply List.countP_eq_length.mpr
    intro look member
    rw [(pauses look member).next]
    rfl
  have others : rest.countP (·.ran.next.sleeps) = 0 := by
    apply List.countP_eq_zero.mpr
    intro act member
    simp [awake act member]
  rw [List.countP_append, asleep, others, Nat.add_zero]

end Verdict

/-- A caller that wants another credential than one that failed looks at the store at once, and then
whenever a timer fires that it sets for one poll interval later. The first of its looks that finds
one serves it, with no refresh and no fetch. Where none of them does, it has slept once less than it
has looked, and comes to what a refresh comes to that is asked for at the moment of its last look.
So only what the store holds at these moments decides how the polling ends, and it has ended when
the clock has moved past the last of them. -/
theorem resolve_polls_then_refreshes (b : Broker) (start id : Nat) (failed : String) (polls : Nat)
    (rest : List (Nat × Input)) (drawn : b.config.pollJitter.allows polls = true)
    (absent : b.caller? id = none) (kept : keptIn id rest = true) :
    let inputs := (start, Input.resolve id failed polls) :: rest
    let interval := b.config.pollInterval.nanos
    let acts := b.acts id inputs
    let looks := acts.take polls
    0 < looks.length ∧
    (∀ k look, looks[k]? = some look → start + k * interval ≤ look.moment) ∧
    (∀ fires, b.wakes fires id inputs = true → ∀ k look, looks[k]? = some look →
      look.moment = firing fires interval start k ∧
        ((∀ i, fires (start + i * interval) = start + i * interval) →
          look.moment = start + k * interval)) ∧
    match looks.findIdx? (Act.finds failed) with
    | some k =>
      acts.length = k + 1 ∧ (∀ look ∈ acts.take k, look.Pauses id failed polls) ∧
        ∀ look ∈ acts.drop k, look.Hits id failed
    | none =>
      if looks.length < polls then
        acts = looks ∧ (∀ look ∈ looks, look.Pauses id failed polls) ∧
          (∃ due, (b.after inputs).caller? id = some ⟨id, .resolving failed,
            .pausing polls (polls - looks.length) due⟩) ∧
          ∀ fires, (∀ moment, moment ≤ fires moment) → b.wakes fires id inputs = true →
            clock start inputs ≤ firing fires interval start looks.length
      else
        (∀ look ∈ acts.take (polls - 1), look.Pauses id failed polls) ∧
          acts.countP (·.ran.next.sleeps) = polls - 1 ∧
          b.FallsBack id failed inputs (acts.take (polls - 1)) (acts.drop (polls - 1)) := by
  intro inputs interval acts looks
  have several := PollJitter.pos_of_allows drawn
  have first : b.Glances start id failed polls polls (.resolve id failed polls) := .first absent
  have polled : b.Polled id failed polls polls inputs :=
    first.polled several kept fun c left due several found => polled_pausing several found kept
  have paced : b.Paced id failed polls polls start (fun _ => start) inputs :=
    first.paced several kept fun c left due several found => paced_pausing several found kept
  refine ⟨?_, paced.spaced, ?_, ?_⟩
  · simp [looks, acts, inputs, first.acts rest, several]
  · intro fires woken k look acted
    have timed := paced.timed fires woken k look acted
    exact ⟨timed, fun exactly => timed.trans (firing_exact exactly k)⟩
  · cases polled with
    | looking few pauses due found =>
        have whole : looks = acts := List.take_of_length_le (Nat.le_of_lt few)
        have nothing : acts.findIdx? (Act.finds failed) = none := findIdx?_pauses pauses
        have short : acts.length < polls := few
        simp only [whole, nothing, if_pos short]
        refine ⟨trivial, pauses, ⟨due, found⟩, fun fires late woken => ?_⟩
        exact paced.clock fires start late (Nat.le_refl start) woken _ due found
    | found missed hit same few pauses hits =>
        have length : acts.length = missed.length + 1 := by simp [acts, same]
        have whole : looks = missed ++ [hit] := by
          rw [← same]
          exact List.take_of_length_le (by omega)
        have index : looks.findIdx? (Act.finds failed) = some missed.length := by
          rw [whole]
          exact findIdx?_hit pauses hits
        simp only [index]
        refine ⟨length, ?_, ?_⟩
        · simpa [acts, same] using pauses
        · simpa [acts, same] using hits
    | fell missed last others same count pauses lacks awake back =>
        have before : acts.take (polls - 1) = missed := by
          rw [← count]
          simp [acts, same]
        have behind : acts.drop (polls - 1) = last :: others := by
          rw [← count]
          simp [acts, same]
        have whole : looks = missed ++ [last] := by
          simp only [looks, acts, same, ← count, List.take_length_add_append]
          rfl
        have nothing : looks.findIdx? (Act.finds failed) = none := by
          rw [whole]
          exact findIdx?_last pauses lacks
        have spent : ¬ looks.length < polls := by
          simp [whole, count]
        simp only [nothing, if_neg spent, before, behind]
        refine ⟨pauses, ?_, back⟩
        rw [← count]
        simp only [acts, same, countP_sleeps pauses awake]
        rfl

/-- Timers that fire on whole milliseconds are exact for these. -/
theorem tickOf_whole {moment : Nat} (whole : 1000000 ∣ moment) :
    Scenario.World.tickOf moment * 1000000 = moment := by
  obtain ⟨ticks, rfl⟩ := whole
  simp only [Scenario.World.tickOf]
  omega

/-- What the caller would have wanted is in the store only between two of its three looks, and the
last of them finds an error; so it has slept twice when it comes to fetch. Its timers fire on whole
milliseconds, on which its looks are due. -/
theorem change_between_looks_unnoticed :
    let b := create .default 0 (.ok (sample "first"))
    let fires := fun moment => Scenario.World.tickOf moment * 1000000
    let rest : List (Nat × Input) :=
      [(2000000, .write (.ok (sample "second"))), (3000000, .write (.ok (sample "first"))),
        (51000000, .poll 1), (60000000, .write (.error (.httpStatus 503))), (101000000, .poll 1),
        (101500000, .land (.caller 1) (.ok (sample "third")))]
    let inputs := (1000000, Input.resolve 1 "first" 3) :: rest
    let acts := b.acts 1 inputs
    b.config.pollJitter.allows 3 = true ∧ b.caller? 1 = none ∧ keptIn 1 rest = true ∧
      b.wakes fires 1 inputs = true ∧
      (∀ k look, (acts.take 3)[k]? = some look → look.moment = 1000000 + k * 50000000) ∧
      (∀ look ∈ acts.take 2, look.Pauses 1 "first" 3) ∧
      acts.countP (·.ran.next.sleeps) = 2 ∧
      b.FallsBack 1 "first" inputs (acts.take 2) (acts.drop 2) := by
  intro b fires rest inputs acts
  have drawn : b.config.pollJitter.allows 3 = true := by decide
  have woken : b.wakes fires 1 inputs = true := by decide
  have exactly : ∀ i, fires (1000000 + i * 50000000) = 1000000 + i * 50000000 := fun i =>
    tickOf_whole (Nat.dvd_add (Nat.dvd_refl _) (Dvd.dvd.mul_left (by decide) i))
  have run := resolve_polls_then_refreshes b 1000000 1 "first" 3 rest drawn rfl rfl
  exact ⟨drawn, rfl, rfl, woken,
    fun k look acted => (run.2.2.1 fires woken k look acted).2 exactly, run.2.2.2⟩

open Url.PlainNames in
/-- Timers that fire on whole milliseconds make a poll interval of half a millisecond twice as long:
a caller that looks three times and then fetches without delay is done after two milliseconds, not
after two intervals. -/
theorem half_millisecond_polls_late :
    let config : Config :=
      { Config.default with pollInterval := ⟨500000, by decide⟩, pollJitter := ⟨3, 4⟩ }
    let begun : Scenario.World :=
      .create [.script] ⟨[], .ofMillis 7200000, 0, false, 0⟩ ⟨[], [], none⟩ (.broker 0)
    let founded := (begun.perform (.found config)).2
    let resolved := (founded.perform (.resolve 0 "token-1")).2
    config.pollJitter.constant? = some 3 ∧ founded.moment = 0 ∧
      resolved.brokers.map (·.counters.resolverFallThroughs) = [1] ∧
      resolved.fetches = [2, 0] ∧ resolved.moment = 2000000 ∧
      resolved.moment ≠ founded.moment + (3 - 1) * config.pollInterval.nanos := by
  decide +kernel

end Bearer.Broker

import Bearer.Proofs.Broker.Errand
import Bearer.Proofs.Broker.Jitter
import Bearer.Proofs.Broker.Resolve

/-!
How a caller polls for a credential other than one that failed. It looks at the store as often as it
has polls, sleeps between two looks, and stops at the first look that finds one. What is in the
store between two looks is not noticed. After a last look that found nothing it does not sleep again
but goes on as one that asks for a refresh.
-/
namespace Bearer.Broker

/-- The store holds a credential other than the one that failed. -/
def Offers (b : Broker) (failed : String) : Prop :=
  ∃ credential, b.store.current.outcome = .ok credential ∧ credential.value ≠ failed

/-- The store holds nothing of use: an error, or the credential that failed. -/
def Lacks (b : Broker) (failed : String) : Prop :=
  (∃ error, b.store.current.outcome = .error error) ∨ b.Holds failed

/-- Whether a look at the store finds what it is made for. -/
def Act.finds (failed : String) (look : Act) : Bool :=
  (look.found.other? failed).isSome

/-- A look in vain. The caller sleeps until the next one, and nothing else changes. -/
structure Act.Pauses (look : Act) (id : Nat) (failed : String) (polls : Nat) : Prop where
  lacks : look.found.Lacks failed
  next : look.ran.next = .sleep (look.moment + look.found.config.pollInterval.nanos)
  broker : ∃ left, look.ran.broker = look.found.place ⟨id, .resolving failed,
    .pausing polls left (look.moment + look.found.config.pollInterval.nanos)⟩

/-- A look that serves the caller from the store. It is counted, and nothing else changes. -/
structure Act.Hits (look : Act) (id : Nat) (failed : String) : Prop where
  offers : look.found.Offers failed
  next : look.ran.next = .answer look.found.store.current
  broker : look.ran.broker = (look.found.countBy .pollHit).dismiss id

/-- The last look of a caller is in vain, too. With it and from then on it does what it would do had
it not polled but asked for a refresh in that place: it is told the same at the same moments, and
what it leaves behind differs in its errand and in the count of those who fell through. -/
def FallsBack (b : Broker) (id : Nat) (failed : String) (inputs : List (Nat × Input))
    (missed rest : List Act) : Prop :=
  ∃ earlier now input later, inputs = earlier ++ (now, input) :: later ∧
    b.acts id earlier = missed ∧ (b.after earlier).Lacks failed ∧
    let asker := (b.after earlier).dismiss id
    let asking := (now, Input.force id) :: later
    rest.map Act.told = (asker.acts id asking).map Act.told ∧
      b.after inputs = (asker.after asking).fallen id failed

theorem other?_cases (b : Broker) (failed : String) :
    b.other? failed = some b.store.current ∧ b.Offers failed ∨
      b.other? failed = none ∧ b.Lacks failed := by
  simp only [other?]
  split
  · next credential found =>
      by_cases same : credential.value = failed
      · refine .inr ⟨?_, .inr ⟨credential, found, same⟩⟩
        simp [Credential.carries, same]
      · refine .inl ⟨?_, credential, found, same⟩
        simp [Credential.carries, same]
  · next error found => exact .inr ⟨rfl, .inl ⟨error, found⟩⟩

theorem finds_of_offers {look : Act} {failed : String} (offers : look.found.Offers failed) :
    look.finds failed = true := by
  obtain ⟨found, -⟩ | ⟨-, ⟨error, lacks⟩ | ⟨credential, holds, same⟩⟩ :=
    look.found.other?_cases failed
  · simp [Act.finds, found]
  · obtain ⟨credential, holds, -⟩ := offers
    cases lacks.symm.trans holds
  · obtain ⟨other, held, differs⟩ := offers
    cases holds.symm.trans held
    exact absurd same differs

theorem finds_of_lacks {look : Act} {failed : String} (lacks : look.found.Lacks failed) :
    look.finds failed = false := by
  obtain ⟨-, credential, held, differs⟩ | ⟨nothing, -⟩ := look.found.other?_cases failed
  · obtain ⟨error, failure⟩ | ⟨other, holds, same⟩ := lacks
    · cases failure.symm.trans held
    · cases holds.symm.trans held
      exact absurd same differs
  · simp [Act.finds, nothing]

/-- A caller looks at the store, for the first time or again, with this many looks to make. -/
inductive Glances (b : Broker) (now id : Nat) (failed : String) (polls : Nat) :
    Nat → Input → Prop where
  | first (absent : b.caller? id = none) :
      Glances b now id failed polls polls (.resolve id failed polls)
  | again (left due : Nat)
      (found : b.caller? id = some ⟨id, .resolving failed, .pausing polls left due⟩)
      (ripe : due ≤ now) : Glances b now id failed polls left (.poll id)

section Looks

variable {b : Broker} {start now id polls left due : Nat} {failed : String} {input : Input}
  {inputs : List (Nat × Input)}

theorem Glances.own (glances : b.Glances now id failed polls left input) :
    input.party? = some (.caller id) := by
  cases glances <;> rfl

theorem Glances.step (glances : b.Glances now id failed polls left input) :
    ∃ said, b.step now input = (b.look now id failed polls left).after said := by
  cases glances with
  | first absent =>
      refine ⟨[.opened .resolveNew none, .counted .resolve .attempt], ?_⟩
      simp only [Broker.step, absent]
  | again left due found ripe =>
      refine ⟨[], ?_⟩
      simp only [Broker.step, found, ripe, if_true]
      rfl

theorem look_hit {snapshot : Snapshot} (found : b.other? failed = some snapshot) :
    b.look now id failed polls left =
      (b.countBy .pollHit).answer id (.resolving failed) snapshot := by
  simp only [look, found]

theorem look_pause (nothing : b.other? failed = none) (more : 1 < left) :
    b.look now id failed polls left =
      ⟨b.place ⟨id, .resolving failed,
          .pausing polls (left - 1) (now + b.config.pollInterval.nanos)⟩,
        .sleep (now + b.config.pollInterval.nanos), [], []⟩ := by
  simp only [look, nothing, more, if_true]

theorem look_fall (nothing : b.other? failed = none) (last : ¬ 1 < left) :
    b.look now id failed polls left =
      (((b.countBy .fallThrough).countBy .forcedRefresh).contend now id (.resolving failed)).after
        [.emitted (.fellThrough polls) (some .resolveNew)] := by
  simp only [look, nothing, last, if_false]

theorem look_awake : (b.look now id failed polls left).next.idle = false := by
  simp only [look]
  split
  · rfl
  · split
    · rfl
    · exact (contend_next_awake _ now id (.resolving failed)).1

theorem Glances.act? (glances : b.Glances now id failed polls left input) :
    b.act? now id input = some ⟨now, b, b.step now input⟩ := by
  obtain ⟨said, step⟩ := glances.step
  apply act?_own glances.own
  rw [step]
  exact look_awake

theorem Glances.acts (glances : b.Glances now id failed polls left input)
    (rest : List (Nat × Input)) :
    b.acts id ((now, input) :: rest) =
      ⟨now, b, b.step now input⟩ :: (b.step now input).broker.acts id rest := by
  simp [Broker.acts, glances.act?]

/-- What comes of a look: the caller is served, or it pauses, or it has no look left. -/
theorem Glances.comes (glances : b.Glances now id failed polls left input) :
    let look : Act := ⟨now, b, b.step now input⟩
    look.Hits id failed ∧ (b.step now input).broker.caller? id = none ∨
      1 < left ∧ look.Pauses id failed polls ∧
        (b.step now input).broker.caller? id = some ⟨id, .resolving failed,
          .pausing polls (left - 1) (now + b.config.pollInterval.nanos)⟩ ∨
      ¬ 1 < left ∧ b.Lacks failed ∧ b.other? failed = none := by
  intro look
  obtain ⟨said, step⟩ := glances.step
  obtain ⟨found, offers⟩ | ⟨nothing, lacks⟩ := b.other?_cases failed
  · rw [look_hit found] at step
    refine .inl ⟨⟨offers, ?_, ?_⟩, ?_⟩
    · exact congrArg Ran.next step
    · exact congrArg Ran.broker step
    · rw [step]
      exact (caller?_dismiss _ id id).trans (if_pos rfl)
  · by_cases more : 1 < left
    · rw [look_pause nothing more] at step
      refine .inr (.inl ⟨more, ⟨lacks, ?_, left - 1, ?_⟩, ?_⟩)
      · exact congrArg Ran.next step
      · exact congrArg Ran.broker step
      · rw [step]
        exact (caller?_place b _ id).trans (if_pos rfl)
    · exact .inr (.inr ⟨more, lacks, nothing⟩)

/-- What happens while a caller pauses is not an act of it, unless it is its next look. -/
theorem pausing_step (found : b.caller? id = some ⟨id, .resolving failed, .pausing polls left due⟩)
    (kept : input.keeps id = true) (now : Nat) :
    b.Glances now id failed polls left input ∧ due ≤ now ∨
      b.act? now id input = none ∧ (b.step now input).broker.caller? id = b.caller? id := by
  by_cases own : input.party? = some (.caller id)
  · -- Of its own inputs only a ripe look fits while it pauses.
    have resting := phase_caller found
    have idle : ¬ b.Fits now input →
        b.act? now id input = none ∧ (b.step now input).broker.caller? id = b.caller? id := by
      intro misfit
      have unchanged := step_idle misfit
      exact ⟨act?_idle unchanged, by rw [unchanged]; rfl⟩
    obtain rfl | rfl | ⟨outcome, rfl⟩ := own_of_keeps kept own
    · by_cases ripe : due ≤ now
      · exact .inl ⟨.again left due found ripe, ripe⟩
      · apply Or.inr
        apply idle
        rintro ⟨other, polls, left, later, same, ripe'⟩
        cases found.symm.trans same
        exact ripe ripe'
    · apply Or.inr
      apply idle
      intro queued
      cases resting.symm.trans queued
    · apply Or.inr
      apply idle
      intro fetching
      cases resting.symm.trans fetching
  · exact .inr ⟨act?_others own, caller?_others own⟩

/-- Who has left does not notice when it asks for a refresh that it has left already. -/
theorem contend_dismiss (b : Broker) (now id : Nat) (origin : Origin) :
    (b.dismiss id).contend now id origin = b.contend now id origin := by
  have twice : ∀ c : Broker, (c.dismiss id).dismiss id = c.dismiss id := by
    intro c
    simp [dismiss, List.filter_filter]
  have placed : ∀ wait, (b.dismiss id).place ⟨id, origin, wait⟩ = b.place ⟨id, origin, wait⟩ := by
    intro wait
    simp [dismiss, place, List.filter_filter]
  have lock : (b.dismiss id).lock = b.lock := rfl
  have recent : (b.dismiss id).debounced? now = b.debounced? now := rfl
  have unlocked : ((b.dismiss id).countBy .debouncedRefresh).unlock =
      ((b.countBy .debouncedRefresh).unlock.1.dismiss id,
        (b.countBy .debouncedRefresh).unlock.2) := by
    obtain ⟨config, store, counters, published, version, last, lock, queue, notified, callers,
      renewal, handles⟩ := b
    cases queue <;> cases notified <;> rfl
  simp only [contend, lock, refresh, recent, placed, unlocked, answer, twice]
  rfl

theorem fallen_dismiss (b : Broker) (id : Nat) (failed : String) :
    (b.dismiss id).fallen id failed = (b.countBy .fallThrough).dismiss id := by
  have others : ∀ caller ∈ b.callers.filter (·.id ≠ id), caller.sent id failed = caller := by
    intro caller member
    have differs : caller.id ≠ id := by simpa using (List.mem_filter.mp member).2
    obtain ⟨number, origin, wait⟩ := caller
    simp only [Caller.sent, if_neg differs]
  simp only [fallen, dismiss, countBy, List.map_congr_left others, List.map_id']

theorem force_dismissed (b : Broker) (now id : Nat) :
    (b.dismiss id).step now (.force id) =
      (((b.dismiss id).countBy .forcedRefresh).contend now id .forced).after
        [.opened .forceRefresh none, .counted .refresh .attempt] := by
  have absent : (b.dismiss id).caller? id = none := (caller?_dismiss b id id).trans (if_pos rfl)
  simp only [step, absent]

/-- A last look in vain comes to what a refresh comes to that is asked for in its place. -/
theorem Glances.follows (glances : b.Glances now id failed polls left input)
    (nothing : b.other? failed = none) (last : ¬ 1 < left) :
    Ran.Follows id failed (b.step now input) ((b.dismiss id).step now (.force id)) := by
  obtain ⟨said, step⟩ := glances.step
  have contended := follows_contend ((b.dismiss id).countBy .forcedRefresh) now id id failed .forced
  have errand : Origin.forced.sent id failed id = .resolving failed := if_pos rfl
  have counted : ((b.dismiss id).countBy .forcedRefresh).fallen id failed =
      ((b.countBy .fallThrough).countBy .forcedRefresh).dismiss id :=
    fallen_dismiss (b.countBy .forcedRefresh) id failed
  rw [errand, counted, contend_dismiss] at contended
  rw [step, look_fall nothing last, force_dismissed]
  exact (contended.after _ []).after _ _

end Looks

/-- How a caller gets through its looks, with this many to make: it still looks, or it has found
what it looks for, or it has fallen back on a refresh. -/
inductive Polled (b : Broker) (id : Nat) (failed : String) (polls left : Nat)
    (inputs : List (Nat × Input)) : Prop where
  | looking (few : (b.acts id inputs).length < left)
      (pauses : ∀ look ∈ b.acts id inputs, look.Pauses id failed polls) (due : Nat)
      (found : (b.after inputs).caller? id = some ⟨id, .resolving failed,
        .pausing polls (left - (b.acts id inputs).length) due⟩)
  | found (missed : List Act) (hit : Act) (same : b.acts id inputs = missed ++ [hit])
      (few : missed.length < left) (pauses : ∀ look ∈ missed, look.Pauses id failed polls)
      (hits : hit.Hits id failed)
  | fell (missed : List Act) (last : Act) (rest : List Act)
      (same : b.acts id inputs = missed ++ last :: rest) (count : missed.length + 1 = left)
      (pauses : ∀ look ∈ missed, look.Pauses id failed polls) (lacks : last.found.Lacks failed)
      (awake : ∀ act ∈ last :: rest, act.ran.next.sleeps = false)
      (back : b.FallsBack id failed inputs missed (last :: rest))

section Runs

variable {b : Broker} {start now id polls left due : Nat} {failed : String} {input : Input}
  {inputs rest : List (Nat × Input)}

/-- What happens before a caller acts again is not noticed by it. -/
theorem Polled.later (polled : (b.step now input).broker.Polled id failed polls left rest)
    (quiet : b.act? now id input = none) :
    b.Polled id failed polls left ((now, input) :: rest) := by
  have same : b.acts id ((now, input) :: rest) = (b.step now input).broker.acts id rest := by
    simp [acts, quiet]
  cases polled with
  | looking few pauses due found =>
      rw [← same] at few pauses found
      exact .looking few pauses due found
  | found missed hit acts few pauses hits =>
      exact .found missed hit (same.trans acts) few pauses hits
  | fell missed last others acts count pauses lacks awake back =>
      refine .fell missed last others (same.trans acts) count pauses lacks awake ?_
      obtain ⟨earlier, moment, final, later, split, before, lacks, told, after⟩ := back
      refine ⟨(now, input) :: earlier, moment, final, later, by rw [split]; rfl, ?_, lacks, told,
        after⟩
      simp [Broker.acts, quiet, before]

/-- A look in vain that is not the last one leads to the next. -/
theorem Polled.pause {look : Act}
    (polled : (b.step now input).broker.Polled id failed polls (left - 1) rest)
    (first : ∀ rest, b.acts id ((now, input) :: rest) =
      look :: (b.step now input).broker.acts id rest)
    (pauses : look.Pauses id failed polls) (more : 1 < left) :
    b.Polled id failed polls left ((now, input) :: rest) := by
  have behind : ∀ missed : List Act, (∀ look ∈ missed, look.Pauses id failed polls) →
      ∀ other ∈ look :: missed, other.Pauses id failed polls := fun missed others =>
    List.forall_mem_cons.mpr ⟨pauses, others⟩
  cases polled with
  | looking few others due found =>
      have length := congrArg List.length (first rest)
      rw [List.length_cons] at length
      refine .looking (by omega) ?_ due ?_
      · rw [first rest]
        exact behind _ others
      · rw [after_cons, found, length, Nat.sub_sub, Nat.add_comm 1]
  | found missed hit acts few others hits =>
      refine .found (look :: missed) hit ?_ ?_ (behind missed others) hits
      · rw [first rest, acts]
        rfl
      · rw [List.length_cons]
        omega
  | fell missed last more' acts count others lacks awake back =>
      refine .fell (look :: missed) last more' ?_ ?_ (behind missed others) lacks awake ?_
      · rw [first rest, acts]
        rfl
      · rw [List.length_cons]
        omega
      · obtain ⟨earlier, moment, final, later, split, before, lacks, told, after⟩ := back
        refine ⟨(now, input) :: earlier, moment, final, later, by rw [split]; rfl, ?_, lacks, told,
          after⟩
        rw [first earlier, before]

theorem Glances.unrested (glances : b.Glances now id failed polls left input)
    (nothing : b.other? failed = none) (last : ¬ 1 < left) :
    (b.step now input).broker.phase (.caller id) ≠ .resting := by
  rw [(glances.follows nothing last).broker, phase_fallen, force_dismissed]
  exact contend_unrested _ now id .forced

/-- From a last look in vain on the caller goes the way of a refresh. -/
theorem Glances.fallsBack (glances : b.Glances now id failed polls left input)
    (nothing : b.other? failed = none) (last : ¬ 1 < left) (lacks : b.Lacks failed)
    (kept : keptIn id rest = true) :
    let look : Act := ⟨now, b, b.step now input⟩
    let others := (b.step now input).broker.acts id rest
    (∀ act ∈ look :: others, act.ran.next.sleeps = false) ∧
      b.FallsBack id failed ((now, input) :: rest) [] (look :: others) := by
  intro look others
  have follows := glances.follows nothing last
  have asked := force_dismissed b now id
  have awake := contend_next_awake ((b.dismiss id).countBy .forcedRefresh) now id .forced
  have unrested : ((b.dismiss id).step now (.force id)).broker.phase (.caller id) ≠ .resting := by
    rw [asked]
    exact contend_unrested _ now id .forced
  obtain ⟨told, after⟩ := run_fallen failed unrested kept
  constructor
  · refine List.forall_mem_cons.mpr ⟨?_, acts_awake (glances.unrested nothing last) kept⟩
    simp only [look, follows.next, asked]
    exact awake.2
  · have active : ((b.dismiss id).step now (.force id)).next.idle = false := by
      rw [asked]
      exact awake.1
    have first : (b.dismiss id).act? now id (.force id) =
        some ⟨now, b.dismiss id, (b.dismiss id).step now (.force id)⟩ := act?_own rfl active
    have asks : (b.dismiss id).acts id ((now, .force id) :: rest) =
        ⟨now, b.dismiss id, (b.dismiss id).step now (.force id)⟩ ::
          ((b.dismiss id).step now (.force id)).broker.acts id rest := by
      simp [Broker.acts, first]
    refine ⟨[], now, input, rest, rfl, rfl, lacks, ?_, ?_⟩
    · simp only [after_nil, asks, List.map_cons, ← told, look, others, follows.broker, Act.told,
        follows.next]
    · simp only [after_cons, after_nil, follows.broker, after]

/-- A look decides how the caller goes on; only where it is in vain and not the last one does what
comes later matter for its polling. -/
theorem Glances.polled (glances : b.Glances now id failed polls left input) (several : 0 < left)
    (kept : keptIn id rest = true)
    (pausing : ∀ (c : Broker) left due, 0 < left →
      c.caller? id = some ⟨id, .resolving failed, .pausing polls left due⟩ →
      c.Polled id failed polls left rest) :
    b.Polled id failed polls left ((now, input) :: rest) := by
  rcases glances.comes with ⟨hits, absent⟩ | ⟨more, pauses, waits⟩ | ⟨last, lacks, nothing⟩
  · -- The caller is gone, so this was its last act.
    have alone : b.acts id ((now, input) :: rest) = [] ++ [⟨now, b, b.step now input⟩] := by
      rw [glances.acts, acts_absent absent kept]
      rfl
    exact .found [] _ alone several (by simp) hits
  · exact (pausing _ _ _ (by omega) waits).pause glances.acts pauses more
  · obtain ⟨awake, back⟩ := glances.fallsBack nothing last lacks kept
    exact .fell [] _ _ (glances.acts rest) (by simp only [List.length_nil]; omega) (by simp) lacks
      awake back

/-- A caller polls while it pauses. By induction on the run; a look of its own leaves it pausing
with one look less, and any other input with as many as before. -/
theorem polled_pausing {c : Broker} (several : 0 < left)
    (found : c.caller? id = some ⟨id, .resolving failed, .pausing polls left due⟩)
    (kept : keptIn id inputs = true) : c.Polled id failed polls left inputs := by
  induction inputs generalizing c left due with
  | nil => exact .looking several (by simp [acts]) due found
  | cons timed rest ih =>
      obtain ⟨now, input⟩ := timed
      obtain ⟨keeps, kept⟩ := keptIn_cons.mp kept
      rcases pausing_step found keeps now with ⟨glances, -⟩ | ⟨quiet, same⟩
      · exact glances.polled several kept fun c left due several found => ih several found kept
      · exact (ih several (same.trans found) kept).later quiet

end Runs

end Bearer.Broker

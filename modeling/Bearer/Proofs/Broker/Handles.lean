import Bearer.Proofs.Broker.Freshness

/-!
Handles of a broker. No step but the drop of the last one reads how many there are, so a run goes the
same way without the handles that are made and dropped in it. With the last handle the renewal is
gone, whatever it was doing; a caller works through a handle that it borrows, so then nobody is left
who could fetch.
-/
namespace Bearer.Broker

/-- The same broker with another number of handles. -/
def withHandles (b : Broker) (n : Nat) : Broker :=
  { b with handles := n }

def Ran.withHandles (ran : Ran) (n : Nat) : Ran :=
  { ran with broker := ran.broker.withHandles n }

/-- Whether an input is only about handles. -/
def Input.handling : Input → Bool
  | .clone | .drop => true
  | _ => false

/-- A run without the handles that are made and dropped in it. -/
def unhandled (inputs : List (Nat × Input)) : List (Nat × Input) :=
  inputs.filter (!·.2.handling)

/-- Whether there is the handle that an input needs. A caller begins through a handle, and the last
one is not dropped before every caller is gone. -/
def lends (b : Broker) : Input → Bool
  | .force _ | .resolve _ _ _ | .clone => 0 < b.handles
  | .drop => 1 < b.handles || b.handles = 1 && b.callers.isEmpty
  | _ => true

def lent (b : Broker) : List (Nat × Input) → Bool
  | [] => true
  | (now, input) :: rest => b.lends input && (b.step now input).broker.lent rest

/-- The fetches that begin in a run, each with its moment and with who makes it. -/
def fetches (b : Broker) : List (Nat × Input) → List (Nat × Party)
  | [] => []
  | (now, input) :: rest =>
    (match (b.step now input).next with
      | .fetch => (input.party?.map fun party => (now, party)).toList
      | _ => []) ++ (b.step now input).broker.fetches rest

section Steps

variable (b : Broker) (n now : Nat)

theorem notify_withHandles :
    (b.withHandles n).notify = (b.notify.1.withHandles n, b.notify.2) := by
  obtain ⟨config, store, counters, published, version, last, lock, queue, notified, callers,
    renewal, handles⟩ := b
  cases queue <;> cases notified <;> rfl

theorem unlock_withHandles :
    (b.withHandles n).unlock = (b.unlock.1.withHandles n, b.unlock.2) :=
  notify_withHandles { b with lock := none } n

theorem refresh_withHandles (id : Nat) (origin : Origin) :
    (b.withHandles n).refresh now id origin = (b.refresh now id origin).withHandles n := by
  have same : (b.withHandles n).debounced? now = b.debounced? now := rfl
  have unlocked := unlock_withHandles (b.countBy .debouncedRefresh) n
  have counted : (b.withHandles n).countBy .debouncedRefresh =
      (b.countBy .debouncedRefresh).withHandles n := rfl
  simp only [refresh, same, counted, unlocked]
  cases b.debounced? now <;> rfl

theorem contend_withHandles (id : Nat) (origin : Origin) :
    (b.withHandles n).contend now id origin = (b.contend now id origin).withHandles n := by
  have same : (b.withHandles n).lock = b.lock := rfl
  simp only [contend, same, refresh_withHandles]
  cases b.lock <;> rfl

theorem look_withHandles (id : Nat) (failed : String) (polls left : Nat) :
    (b.withHandles n).look now id failed polls left =
      (b.look now id failed polls left).withHandles n := by
  have same : (b.withHandles n).other? failed = b.other? failed := rfl
  have contended := contend_withHandles ((b.countBy .fallThrough).countBy .forcedRefresh) n now id
    (.resolving failed)
  have counted : ((b.withHandles n).countBy .fallThrough).countBy .forcedRefresh =
      ((b.countBy .fallThrough).countBy .forcedRefresh).withHandles n := rfl
  simp only [look, same, counted, contended]
  cases b.other? failed with
  | some snapshot => rfl
  | none => by_cases more : 1 < left <;> simp only [more, if_true, if_false] <;> rfl

theorem renew_withHandles (seen : Nat) :
    (b.withHandles n).renew now seen = (b.renew now seen).withHandles n := by
  have same : (b.withHandles n).version = b.version := rfl
  simp only [renew, same, unlock_withHandles]
  by_cases current : b.version = seen <;> simp only [current, if_true, if_false] <;> rfl

theorem contendRenewal_withHandles (seen : Nat) :
    (b.withHandles n).contendRenewal now seen = (b.contendRenewal now seen).withHandles n := by
  have same : (b.withHandles n).lock = b.lock := rfl
  simp only [contendRenewal, same, renew_withHandles]
  cases b.lock <;> rfl

theorem landRefresh_withHandles (id : Nat) (origin : Origin) (outcome : Except Error Credential) :
    (b.withHandles n).landRefresh now id origin outcome =
      (b.landRefresh now id origin outcome).withHandles n := by
  let stored : Broker := { b with store := b.store.write outcome, lastRefresh := some now }
  let told := stored.publish (b.config.nextInterval outcome)
  exact congrArg (fun unlocked : Broker × List Party =>
      (unlocked.1.answer id origin unlocked.1.store.current).waking (told.2 ++ unlocked.2))
    (unlock_withHandles told.1 n)

theorem landRenewal_withHandles (seen : Nat) (outcome : Except Error Credential) :
    (b.withHandles n).landRenewal now seen outcome =
      (b.landRenewal now seen outcome).withHandles n := by
  have behind := fun stored : Broker => congrArg (fun unlocked : Broker × List Party =>
      ((unlocked.1.arm (now + (unlocked.1.config.nextInterval outcome).nanos) seen).after
        (reported unlocked.1.config outcome ++ [.counted .renewal (.of outcome)])).waking unlocked.2)
    (unlock_withHandles stored n)
  let stored : Broker := { b with store := b.store.write outcome }
  cases outcome with
  | ok c => exact behind stored
  | error e => exact behind (stored.countBy .renewalFailure)

theorem leave_withHandles (party : Party) :
    (b.withHandles n).leave party = (b.leave party).withHandles n := by
  have unlocked := unlock_withHandles b n
  have notified := notify_withHandles (b.dequeue party) n
  have lock : (b.withHandles n).lock = b.lock := rfl
  have queue : (b.withHandles n).queue = b.queue := rfl
  have told : (b.withHandles n).notified = b.notified := rfl
  have out : (b.withHandles n).dequeue party = (b.dequeue party).withHandles n := rfl
  simp only [leave, lock, queue, told, out, unlocked, notified]
  split
  · rfl
  · split <;> rfl

theorem step_withHandles {input : Input} (other : input.handling = false) :
    (b.withHandles n).step now input = (b.step now input).withHandles n := by
  have found : ∀ id, (b.withHandles n).caller? id = b.caller? id := fun _ => rfl
  have renewal : (b.withHandles n).renewal = b.renewal := rfl
  have version : (b.withHandles n).version = b.version := rfl
  cases input with
  | force id =>
      have contended := contend_withHandles (b.countBy .forcedRefresh) n now id .forced
      simp only [step, found]
      cases b.caller? id with
      | some _ => rfl
      | none => exact congrArg (Ran.after _) contended
  | resolve id failed polls =>
      simp only [step, found, look_withHandles]
      cases b.caller? id <;> rfl
  | poll id =>
      simp only [step, found, look_withHandles]
      split
      · split <;> rfl
      · rfl
  | timer =>
      simp only [step, renewal, contendRenewal_withHandles]
      split
      · split <;> rfl
      · rfl
  | rearm =>
      simp only [step, renewal, version]
      split
      · split <;> rfl
      · rfl
  | acquire party =>
      cases party with
      | caller id =>
          simp only [step, acquireCaller, found]
          split
          · exact contend_withHandles (b.dequeue (.caller id)) n now id _
          · rfl
      | renewal =>
          simp only [step, acquireRenewal, renewal]
          split
          · exact contendRenewal_withHandles (b.dequeue .renewal) n now _
          · rfl
  | land party outcome =>
      cases party with
      | caller id =>
          simp only [step, found, landRefresh_withHandles]
          split <;> rfl
      | renewal =>
          simp only [step, renewal, landRenewal_withHandles]
          split <;> rfl
  | cancel id =>
      simp only [step, found]
      cases b.caller? id with
      | some _ => exact leave_withHandles (b.dismiss id) n (.caller id)
      | none => rfl
  | write outcome => rfl
  | clone | drop => cases other

theorem handles_step {input : Input} (other : input.handling = false) :
    (b.step now input).broker.handles = b.handles :=
  congrArg (fun ran => ran.broker.handles) (step_withHandles b b.handles now other)

/-- A handle that is made, or dropped while others stay, makes no difference but in the count. -/
theorem handling_spares {input : Input} (own : input.handling = true)
    (live : 0 < (b.step now input).broker.handles) :
    (b.step now input).next = .nothing ∧ ∃ count, (b.step now input).broker = b.withHandles count := by
  cases input with
  | clone => exact ⟨rfl, _, rfl⟩
  | drop =>
      simp only [step, dropHandle] at live ⊢
      split at live
      · simp [handles_leave] at live
      · next others =>
          rw [if_neg others]
          exact ⟨rfl, _, rfl⟩
  | _ => cases own

end Steps

section Runs

variable {b : Broker} {inputs : List (Nat × Input)}

/-- There is no way back from no handles. -/
theorem handles_gone (gone : b.handles = 0) (lent : b.lent inputs = true) :
    (b.after inputs).handles = 0 := by
  induction inputs generalizing b with
  | nil => exact gone
  | cons timed rest ih =>
      obtain ⟨now, input⟩ := timed
      simp only [Broker.lent, Bool.and_eq_true] at lent
      apply ih _ lent.2
      cases own : input.handling with
      | false => rw [handles_step b now own, gone]
      | true => cases input <;> simp [Input.handling, lends, gone] at own lent

theorem live_of_after (lent : b.lent inputs = true) (live : 0 < (b.after inputs).handles) :
    0 < b.handles := by
  refine Nat.pos_of_ne_zero fun gone => ?_
  rw [handles_gone gone lent] at live
  exact Nat.lt_irrefl 0 live

theorem Punctual.sooner {start now : Nat} (still : b.Still start now)
    (punctual : b.Punctual now inputs) : b.Punctual start inputs := by
  cases inputs with
  | nil => trivial
  | cons timed rest =>
      obtain ⟨moment, input⟩ := timed
      obtain ⟨further, later⟩ := punctual
      refine ⟨⟨Nat.le_trans still.1 further.1, fun time party since till => ?_⟩, later⟩
      by_cases early : time < now
      · exact still.2 time party since early
      · exact further.2 time party (Nat.le_of_not_lt early) till

/-- While a handle is left, the run goes as it would have gone with one handle all along. -/
theorem after_unhandled (lent : b.lent inputs = true) (live : 0 < (b.after inputs).handles)
    (n : Nat) :
    (b.withHandles n).after (unhandled inputs) = (b.after inputs).withHandles n ∧
      (b.withHandles n).fetches (unhandled inputs) = b.fetches inputs := by
  induction inputs generalizing b with
  | nil => exact ⟨rfl, rfl⟩
  | cons timed rest ih =>
      obtain ⟨now, input⟩ := timed
      simp only [Broker.lent, Bool.and_eq_true] at lent
      obtain ⟨same, fetched⟩ := ih lent.2 live
      cases own : input.handling with
      | false =>
          have kept : unhandled ((now, input) :: rest) = (now, input) :: unhandled rest := by
            simp [unhandled, own]
          have step := step_withHandles b n now own
          rw [kept, after_cons, Broker.fetches, Broker.fetches, step]
          exact ⟨same, congrArg _ fetched⟩
      | true =>
          have left : unhandled ((now, input) :: rest) = unhandled rest := by
            simp [unhandled, own]
          obtain ⟨nothing, count, counted⟩ :=
            handling_spares b now own (live_of_after lent.2 live)
          rw [left, after_cons, Broker.fetches, nothing]
          rw [counted] at same fetched ⊢
          exact ⟨same, fetched⟩

/-- The timers run to the same moments, with the handles and without. -/
theorem Punctual.unhandled {start : Nat} (punctual : b.Punctual start inputs)
    (lent : b.lent inputs = true) (live : 0 < (b.after inputs).handles) (n : Nat) :
    (b.withHandles n).Punctual start (unhandled inputs) := by
  induction inputs generalizing b start with
  | nil => trivial
  | cons timed rest ih =>
      obtain ⟨now, input⟩ := timed
      simp only [Broker.lent, Bool.and_eq_true] at lent
      obtain ⟨still, later⟩ := punctual
      have others := ih later lent.2 live
      cases own : input.handling with
      | false =>
          have kept : Broker.unhandled ((now, input) :: rest) =
              (now, input) :: Broker.unhandled rest := by
            simp [Broker.unhandled, own]
          rw [kept, Punctual, step_withHandles b n now own]
          exact ⟨still, others⟩
      | true =>
          have left : Broker.unhandled ((now, input) :: rest) = Broker.unhandled rest := by
            simp [Broker.unhandled, own]
          obtain ⟨_, count, counted⟩ := handling_spares b now own (live_of_after lent.2 live)
          rw [counted] at others
          rw [left]
          exact Punctual.sooner (b := b.withHandles n) still others

end Runs

/-- Who works for a broker: the renewal while there is a handle, and callers only then. -/
structure Tended (b : Broker) : Prop where
  renewal : b.renewal = .stopped ↔ b.handles = 0
  callers : b.handles = 0 → b.callers = []

theorem tended_create (config : Config) (start : Nat) (outcome : Except Error Credential) :
    (create config start outcome).Tended :=
  ⟨by simp [create], fun _ => rfl⟩

section Ends

variable {b : Broker} {now : Nat} {input : Input} {inputs : List (Nat × Input)}

/-- Only the drop of the last handle stops the renewal. -/
theorem stopped_step_iff (orderly : b.Orderly) (other : input ≠ .drop) :
    (b.step now input).broker.renewal = .stopped ↔ b.renewal = .stopped := by
  cases step_shift orderly now input with
  | aside renewal | left _ _ _ renewal | landed _ _ _ _ _ renewal => rw [renewal]
  | rearms _ _ _ found _ renewal | renewed _ _ _ _ found renewal => simp [found, renewal]
  | waits _ tries _ renewal | skips _ tries _ _ renewal | fetches _ tries _ _ renewal =>
      cases tries with
      | timer _ _ found | acquire _ found => simp [found, renewal]
  | stops own => exact absurd own other

/-- Nobody is left who could do anything. -/
theorem Tended.misfit (h : b.Tended) (gone : b.handles = 0) (lends : b.lends input = true)
    (unwritten : ∀ outcome, input ≠ .write outcome) : ¬ b.Fits now input := by
  have stopped := h.renewal.mpr gone
  have nobody : ∀ id, b.caller? id = none := fun id => by
    rw [caller?, h.callers gone, List.find?_nil]
  have away : ∀ party, b.phase party = .away := fun party => by
    cases party with
    | caller id => exact phase_away (nobody id)
    | renewal => rw [phase, stopped, Renewal.phase]
  cases input with
  | force | resolve | clone | drop => simp [Broker.lends, gone] at lends
  | write outcome => exact absurd rfl (unwritten outcome)
  | _ => simp [Fits, nobody, stopped, away]

/-- A handle is dropped: others stay, or no caller is left either. -/
theorem tended_dropHandle (running : b.renewal ≠ .stopped) (lends : b.lends .drop = true) :
    b.dropHandle.broker.Tended := by
  simp only [Broker.lends, Bool.or_eq_true, decide_eq_true_eq, Bool.and_eq_true,
    List.isEmpty_iff] at lends
  unfold dropHandle
  split
  · next last =>
      have alone : b.callers = [] := by
        cases lends with
        | inl more => omega
        | inr idle => exact idle.2
      obtain ⟨_, _, _, same⟩ := leave_eq { b with handles := 0, renewal := .stopped } .renewal
      rw [same]
      exact ⟨by simp, fun _ => alone⟩
  · next others =>
      have more : b.handles - 1 ≠ 0 := by
        omega
      refine ⟨?_, fun none => absurd none more⟩
      simpa only [unchanged, more, iff_false] using running

theorem Tended.step (h : b.Tended) (orderly : b.Orderly) (lends : b.lends input = true)
    (now : Nat) : (b.step now input).broker.Tended := by
  by_cases gone : b.handles = 0
  · by_cases written : ∃ outcome, input = .write outcome
    · obtain ⟨outcome, rfl⟩ := written
      exact ⟨h.renewal, h.callers⟩
    · rw [step_idle (h.misfit gone lends fun outcome own => written ⟨outcome, own⟩)]
      exact h
  · have running := mt h.renewal.mp gone
    cases own : input.handling with
    | false =>
        have other : input ≠ .drop := by
          rintro rfl
          cases own
        have live : (b.step now input).broker.handles ≠ 0 := by
          rwa [handles_step b now own]
        refine ⟨?_, fun none => absurd none live⟩
        simpa only [stopped_step_iff orderly other, live, iff_false] using running
    | true =>
        cases input with
        | clone =>
            refine ⟨?_, nofun⟩
            simpa [Broker.step, unchanged] using running
        | drop => exact tended_dropHandle running lends
        | _ => cases own

theorem Tended.after (h : b.Tended) (orderly : b.Orderly) (lent : b.lent inputs = true) :
    (b.after inputs).Tended := by
  induction inputs generalizing b with
  | nil => exact h
  | cons timed rest ih =>
      obtain ⟨now, input⟩ := timed
      simp only [Broker.lent, Bool.and_eq_true] at lent
      exact ih (h.step orderly lent.1 now) (orderly.step now input) lent.2

theorem Tended.unlocked (h : b.Tended) (orderly : b.Orderly) (gone : b.handles = 0) :
    b.lock = none := by
  refine Decidable.byContradiction fun taken => ?_
  obtain ⟨party, fetching⟩ := orderly.fetching taken
  cases party with
  | caller id => simp [phase, caller?, h.callers gone] at fetching
  | renewal => simp [phase, h.renewal.mpr gone, Renewal.phase] at fetching

/-- Without handles nothing happens any more, whatever still comes. -/
theorem Tended.silent (h : b.Tended) (gone : b.handles = 0) (lent : b.lent inputs = true) :
    b.fetches inputs = [] ∧ b.landings inputs = [] ∧
      ((∀ timed ∈ inputs, ∀ written, timed.2 ≠ .write written) → b.after inputs = b) := by
  induction inputs generalizing b with
  | nil => exact ⟨rfl, rfl, fun _ => rfl⟩
  | cons timed rest ih =>
      obtain ⟨now, input⟩ := timed
      simp only [Broker.lent, Bool.and_eq_true] at lent
      by_cases written : ∃ outcome, input = .write outcome
      · obtain ⟨outcome, rfl⟩ := written
        have stored : (b.step now (.write outcome)).broker.Tended := ⟨h.renewal, h.callers⟩
        obtain ⟨fetches, landings, _⟩ := ih stored gone lent.2
        refine ⟨?_, ?_, fun unwritten => ?_⟩
        · simpa [Broker.fetches, Broker.step, unchanged] using fetches
        · simpa [Broker.landings, landing?] using landings
        · exact absurd rfl (unwritten _ List.mem_cons_self outcome)
      · have unwritten : ∀ outcome, input ≠ .write outcome := fun outcome own =>
          written ⟨outcome, own⟩
        have misfit : ¬ b.Fits now input := h.misfit gone lent.1 unwritten
        have idle := step_idle misfit
        have ignored : b.landing? input = none := by
          cases input with
          | land party outcome => exact if_neg misfit
          | _ => rfl
        rw [idle] at lent
        obtain ⟨fetches, landings, same⟩ := ih h gone lent.2
        refine ⟨?_, ?_, fun all => ?_⟩
        · simpa [Broker.fetches, idle, unchanged] using fetches
        · simpa [Broker.landings, ignored, idle, unchanged] using landings
        · rw [after_cons, idle]
          exact same fun timed member => all timed (List.mem_cons_of_mem _ member)

end Ends

/-- The renewal lives as long as the handles. While one is left, the run is the one without the
handles that were made and dropped in it: the store is the same, and the same fetches begin at the
same moments, to which the timers run there too. Once the last is gone, no fetch begins or lands,
whatever the renewal was doing, and the store keeps what has landed last. -/
theorem renewal_lives_with_handles (config : Config) (start : Nat)
    (outcome : Except Error Credential) (inputs : List (Nat × Input))
    (lent : (create config start outcome).lent inputs = true) :
    let founded := create config start outcome
    let b := founded.after inputs
    (b.renewal = .stopped ↔ b.handles = 0) ∧
    (0 < b.handles →
      founded.after (unhandled inputs) = b.withHandles 1 ∧
      founded.fetches (unhandled inputs) = founded.fetches inputs ∧
      (founded.Punctual start inputs → founded.Punctual start (unhandled inputs))) ∧
    (b.handles = 0 → b.callers = [] ∧ b.lock = none ∧
      ∀ later, b.lent later = true → b.fetches later = [] ∧ b.landings later = [] ∧
        ((∀ timed ∈ later, ∀ written, timed.2 ≠ .write written) → b.after later = b)) ∧
    ((∀ timed ∈ inputs, ∀ written, timed.2 ≠ .write written) →
      (produced outcome (founded.landings inputs)).getLast? = some b.store.current) := by
  intro founded b
  have orderly := orderly_create config start outcome
  have tended : b.Tended := (tended_create config start outcome).after orderly lent
  refine ⟨tended.renewal, fun live => ?_, fun gone => ?_, fun unwritten => ?_⟩
  · obtain ⟨same, fetched⟩ := after_unhandled lent live 1
    exact ⟨same, fetched, fun punctual => punctual.unhandled lent live 1⟩
  · exact ⟨tended.callers gone, tended.unlocked (orderly.after inputs) gone,
      fun later lent => tended.silent gone lent⟩
  · rw [show b.store = _ from store_after founded unwritten]
    exact (foldl_write outcome _).2

/-- A second handle comes and goes; the last one is dropped in the middle of a fetch, which does not
land. -/
theorem last_handle_dropped_during_fetch :
    let earlier : List (Nat × Input) :=
      [(1000000000, .clone), (60000000000, .timer),
        (61000000000, .land .renewal (.ok (sample "second"))), (62000000000, .drop),
        (121000000000, .timer)]
    let later : List (Nat × Input) :=
      [(123000000000, .land .renewal (.ok (sample "third"))), (183000000000, .timer)]
    let founded := create .default 0 (.ok (sample "first"))
    let b := founded.after earlier
    let dropped := founded.after (earlier ++ [(122000000000, .drop)])
    founded.lent (earlier ++ [(122000000000, .drop)]) = true ∧ founded.lent earlier = true ∧
      founded.after (unhandled earlier) = b.withHandles 1 ∧
      founded.fetches earlier = [(60000000000, .renewal), (121000000000, .renewal)] ∧
      b.lock = some .renewal ∧ dropped.renewal = .stopped ∧ dropped.lock = none ∧
      dropped.landings later = [] ∧ dropped.after later = dropped ∧
      dropped.store.current = ⟨1, .ok (sample "second")⟩ := by
  intro earlier later founded b dropped
  have lent : founded.lent earlier = true := by
    decide +kernel
  have lentThen : founded.lent (earlier ++ [(122000000000, .drop)]) = true := by
    decide +kernel
  have live : 0 < b.handles := by
    decide +kernel
  have gone : dropped.handles = 0 := by
    decide +kernel
  obtain ⟨_, running, _, _⟩ :=
    renewal_lives_with_handles .default 0 (.ok (sample "first")) earlier lent
  obtain ⟨same, _, _⟩ := running live
  obtain ⟨stopped, _, ended, _⟩ :=
    renewal_lives_with_handles .default 0 (.ok (sample "first")) _ lentThen
  obtain ⟨_, unlocked, silent⟩ := ended gone
  obtain ⟨_, landings, kept⟩ := silent later (by decide +kernel)
  exact ⟨lentThen, lent, same, by decide +kernel, by decide +kernel, stopped.mpr gone, unlocked,
    landings, kept (by simp [later]), rfl⟩

end Bearer.Broker

import Bearer.Proofs.Broker.Flight
import Bearer.Proofs.Broker.History

/-!
How far apart the fetches of refreshes are. A refresh that gets the lock fetches only where the
debounce window has passed since a refresh last landed, and none begins while another holds the
lock. So the fetches of a run in which no caller leaves are a window apart, however many callers ask
for them and however often the renewal fetches in between.
-/
namespace Bearer.Broker

/-- The inputs with which a caller tries for the lock. -/
inductive Asks (b : Broker) (now : Nat) : Input → Prop where
  | force (id : Nat) (absent : b.caller? id = none) : Asks b now (.force id)
  | resolve (id : Nat) (failed : String) (polls : Nat) (absent : b.caller? id = none)
      (miss : b.other? failed = none) (last : polls ≤ 1) : Asks b now (.resolve id failed polls)
  | poll (id : Nat) (failed : String) (polls left due : Nat)
      (found : b.caller? id = some ⟨id, .resolving failed, .pausing polls left due⟩)
      (ripe : due ≤ now) (miss : b.other? failed = none) (last : left ≤ 1) : Asks b now (.poll id)
  | acquire (id : Nat) (origin : Origin) (found : b.caller? id = some ⟨id, origin, .queued⟩) :
      Asks b now (.acquire (.caller id))

def begins (b : Broker) (now : Nat) (input : Input) : Bool :=
  match (b.step now input).next, input.party? with
  | .fetch, some (.caller _) => true
  | _, _ => false

/-- The moments of a run at which a caller's fetch begins. -/
def beginnings (b : Broker) : List (Nat × Input) → List Nat
  | [] => []
  | (now, input) :: rest =>
    (if b.begins now input then [now] else []) ++ (b.step now input).broker.beginnings rest

/-- A caller's fetch lands with this input, with a credential or without. -/
def landsRefresh (b : Broker) : Input → Bool
  | .land (.caller id) _ => b.phase (.caller id) = .fetching
  | _ => false

theorem lastRefresh_step (b : Broker) (now : Nat) (input : Input) :
    (b.step now input).broker.lastRefresh =
      if b.landsRefresh input then some now else b.lastRefresh := by
  have last := congrArg Memory.lastRefresh (memory_step b now input)
  cases input with
  | land party outcome =>
      cases party with
      | renewal =>
          simp only [remembered] at last
          split at last <;> exact last
      | caller id =>
          simp only [remembered] at last
          by_cases fetching : b.phase (.caller id) = .fetching
          · rw [if_pos fetching] at last
            rw [if_pos (by simpa [landsRefresh] using fetching)]
            exact last
          · rw [if_neg fetching] at last
            rw [if_neg (by simpa [landsRefresh] using fetching)]
            exact last
  | _ => exact last

theorem debounced?_eq_none_iff {b : Broker} {now : Nat} :
    b.debounced? now = none ↔
      ∀ landed, b.lastRefresh = some landed →
        b.config.debounceWindow.nanos ≤ now - landed := by
  cases last : b.lastRefresh <;> simp [debounced?, last]

@[simp] theorem Ran.after_after (earlier later : List Observation) (ran : Ran) :
    (ran.after later).after earlier = ran.after (earlier ++ later) := by
  simp [Ran.after]

theorem contend_next {b : Broker} {now id : Nat} {origin : Origin} (free : b.lock = none) :
    (b.contend now id origin).next =
      match b.debounced? now with
      | some _ => .answer b.store.current
      | none => .fetch := by
  simp only [contend, free, refresh]
  split <;> simp [answer, unlock_fst, countBy, *]

theorem contend_fetches {b : Broker} {now id since : Nat} {origin : Origin}
    (recent : b.debounced? now = some since) :
    (b.contend now id origin).broker.counters.fetches = b.counters.fetches := by
  simp only [contend]
  split
  · simp [refresh, recent, answer, dismiss, unlock_fst, countBy, Counters.debouncedRefresh]
  · rfl

theorem Asks.contends {b : Broker} {now : Nat} {input : Input} (asks : b.Asks now input) :
    ∃ c id origin observed, b.step now input = (Broker.contend c now id origin).after observed ∧
      c.lock = b.lock ∧ c.memory = b.memory ∧ c.counters.fetches = b.counters.fetches := by
  cases asks with
  | force id absent =>
      refine ⟨b.countBy .forcedRefresh, id, .forced,
        [.opened .forceRefresh none, .counted .refresh .attempt], ?_, rfl, rfl, rfl⟩
      simp only [Broker.step, absent]
  | resolve id failed polls absent miss last =>
      refine ⟨(b.countBy .fallThrough).countBy .forcedRefresh, id, .resolving failed,
        [.opened .resolveNew none, .counted .resolve .attempt,
          .emitted (.fellThrough polls) (some .resolveNew)], ?_, rfl, rfl, rfl⟩
      simp only [Broker.step, absent, look, miss, Nat.not_lt.mpr last, if_false, Ran.after_after]
      rfl
  | poll id failed polls left due found ripe miss last =>
      refine ⟨(b.countBy .fallThrough).countBy .forcedRefresh, id, .resolving failed,
        [.emitted (.fellThrough polls) (some .resolveNew)], ?_, rfl, rfl, rfl⟩
      simp only [Broker.step, found, ripe, look, miss, Nat.not_lt.mpr last, if_true, if_false]
  | acquire id origin found =>
      refine ⟨b.dequeue (.caller id), id, origin, [], ?_, rfl, rfl, rfl⟩
      simp only [Broker.step, acquireCaller, found]
      rfl

/-- A refresh that gets the lock within the debounce window after a landing is served from the
store and makes no call of the source. -/
theorem Asks.absorbed {b : Broker} {now since : Nat} {input : Input} (asks : b.Asks now input)
    (recent : b.debounced? now = some since) :
    (b.step now input).broker.counters.fetches = b.counters.fetches ∧
      (b.lock = none → (b.step now input).next = .answer b.store.current) := by
  obtain ⟨c, id, origin, observed, step, lock, memory, fetches⟩ := asks.contends
  have same : c.debounced? now = some since := by
    have config : c.config = b.config := congrArg Memory.config memory
    have last : c.lastRefresh = b.lastRefresh := congrArg Memory.lastRefresh memory
    rw [← recent, debounced?, debounced?, config, last]
  have store : c.store = b.store := congrArg Memory.store memory
  rw [step]
  refine ⟨(contend_fetches same).trans fetches, fun free => ?_⟩
  simp only [Ran.after_next, contend_next (lock.trans free), same, store]

theorem contend_fetch {b : Broker} {now id : Nat} {origin : Origin}
    (fetch : (b.contend now id origin).next = .fetch) :
    b.lock = none ∧ b.debounced? now = none := by
  have free : b.lock = none := by
    cases lock : b.lock with
    | none => rfl
    | some holder => simp [contend, lock] at fetch
  rw [contend_next free] at fetch
  refine ⟨free, ?_⟩
  split at fetch
  · cases fetch
  · next fresh => exact fresh

theorem look_fetch {b : Broker} {now id polls left : Nat} {failed : String}
    (fetch : (b.look now id failed polls left).next = .fetch) :
    b.lock = none ∧ b.debounced? now = none := by
  simp only [look] at fetch
  split at fetch
  · cases fetch
  · split at fetch
    · cases fetch
    · exact contend_fetch (b := (b.countBy .fallThrough).countBy .forcedRefresh) fetch

theorem Moves.begins {b : Broker} {now id : Nat} {input : Input} {ran : Ran}
    (moves : b.Moves now input ran) (own : input.party? = some (.caller id))
    (fetch : ran.next = .fetch) : b.lock = none ∧ b.debounced? now = none := by
  cases moves with
  | idle input misfit => cases fetch
  | force id absent => exact contend_fetch (b := b.countBy .forcedRefresh) fetch
  | resolve id failed polls absent => exact look_fetch fetch
  | poll id failed polls left due found ripe => exact look_fetch fetch
  | acquire id origin found => exact contend_fetch (b := b.dequeue _) fetch
  | land id origin outcome found => cases fetch
  | cancel id caller found =>
      simp only [leave] at fetch
      cases fetch
  | timer | rearm | acquireRenewal | landRenewal | clone | drop | dropLast | write => cases own

theorem begins_iff {b : Broker} {now : Nat} {input : Input} :
    b.begins now input ↔
      (b.step now input).next = .fetch ∧ ∃ id, input.party? = some (.caller id) := by
  simp only [begins]
  split
  · next id fetch own => simp [fetch, own]
  · next other =>
      refine ⟨by simp, fun ⟨fetch, id, own⟩ => absurd own (other id fetch)⟩

theorem begins_spaced {b : Broker} (h : b.Orderly) {now : Nat} {input : Input}
    (begins : b.begins now input) :
    b.lock = none ∧
      (∀ landed, b.lastRefresh = some landed →
        b.config.debounceWindow.nanos ≤ now - landed) ∧
      ∃ id, (b.step now input).broker.lock = some (.caller id) := by
  obtain ⟨fetch, id, own⟩ := begins_iff.mp begins
  obtain ⟨free, fresh⟩ := (step_moves b now input).begins own fetch
  refine ⟨free, debounced?_eq_none_iff.mp fresh, id, ?_⟩
  cases ends : b.ends? input with
  | some party => exact absurd fetch ((step_moves b now input).gives h ends).1
  | none =>
      cases (step_moves b now input).takes own ends with
      | inl taken => exact taken.2.2
      | inr left => exact absurd fetch left.1

/-- A caller that holds the lock and does not leave keeps it until its fetch has landed. -/
theorem kept_until_landing {b : Broker} (h : b.Orderly) {now id : Nat} {input : Input}
    (held : b.lock = some (.caller id)) (stays : ∀ id, input ≠ .cancel id) :
    (b.step now input).broker.lock = some (.caller id) ∨ b.landsRefresh input = true := by
  have moves := step_moves b now input
  cases ends : b.ends? input with
  | some party =>
      by_cases own : party = .caller id
      · subst own
        have fetching := (h.holds (.caller id)).mpr held
        cases input with
        | land who outcome =>
            cases ends
            exact .inr (by simpa [landsRefresh] using fetching)
        | cancel other => exact absurd rfl (stays other)
        | drop => simp [ends?] at ends
        | _ => cases ends
      · have gives := (moves.gives h ends).2
        rw [held, if_neg (by simpa [eq_comm] using own)] at gives
        exact .inl gives
  | none =>
      cases own : input.party? with
      | none =>
          left
          cases input <;> first | exact held | cases own
      | some party =>
          cases moves.takes own ends with
          | inl taken => simp [held] at taken
          | inr left => exact .inl (left.2.trans held)

/-- From a moment on, the fetches of a run in which no caller leaves begin a window apart, a window
after the last landing before, and a window after that moment where a caller holds the lock. -/
theorem beginnings_spaced {b : Broker} (h : b.Orderly) {since : Nat}
    {inputs : List (Nat × Input)} (times : (since :: inputs.map Prod.fst).Pairwise (· ≤ ·))
    (stays : ∀ timed ∈ inputs, ∀ id, timed.2 ≠ .cancel id)
    (past : ∀ landed, b.lastRefresh = some landed → landed ≤ since) :
    (b.beginnings inputs).Pairwise (fun s t => s + b.config.debounceWindow.nanos ≤ t) ∧
      ∀ t ∈ b.beginnings inputs,
        (∀ landed, b.lastRefresh = some landed → landed + b.config.debounceWindow.nanos ≤ t) ∧
        (∀ id, b.lock = some (.caller id) → since + b.config.debounceWindow.nanos ≤ t) := by
  induction inputs generalizing b since with
  | nil => simp [beginnings]
  | cons timed rest ih =>
      obtain ⟨now, input⟩ := timed
      obtain ⟨from_since, later⟩ := List.pairwise_cons.mp times
      have since_now : since ≤ now := from_since now (by simp)
      have last := lastRefresh_step b now input
      have past' : ∀ landed,
          (b.step now input).broker.lastRefresh = some landed → landed ≤ now := by
        intro landed eq
        rw [last] at eq
        split at eq
        · cases eq
          exact Nat.le_refl now
        · exact Nat.le_trans (past landed eq) since_now
      obtain ⟨apart, after⟩ := ih (h.step now input) later
        (fun timed member => stays timed (List.mem_cons_of_mem _ member)) past'
      rw [config_step] at apart after
      by_cases begins : b.begins now input = true
      · obtain ⟨free, fresh, id, taken⟩ := begins_spaced h begins
        have window : ∀ landed, b.lastRefresh = some landed →
            landed + b.config.debounceWindow.nanos ≤ now := by
          intro landed eq
          have elapsed := fresh landed eq
          have order := Nat.le_trans (past landed eq) since_now
          omega
        simp only [beginnings, begins, if_true, List.singleton_append, List.pairwise_cons,
          List.mem_cons]
        refine ⟨⟨fun t member => (after t member).2 id taken, apart⟩, ?_⟩
        rintro t (rfl | member)
        · exact ⟨window, by simp [free]⟩
        · have next := (after t member).2 id taken
          refine ⟨fun landed eq => ?_, by simp [free]⟩
          have before := window landed eq
          omega
      · have skip : b.beginnings ((now, input) :: rest) =
            (b.step now input).broker.beginnings rest := by
          simp [beginnings, begins]
        rw [skip]
        refine ⟨apart, fun t member => ?_⟩
        obtain ⟨landing, holding⟩ := after t member
        rw [last] at landing
        constructor
        · intro landed eq
          split at landing
          · have next := landing now rfl
            have before := past landed eq
            omega
          · exact landing landed eq
        · intro id held
          have next : now + b.config.debounceWindow.nanos ≤ t := by
            cases kept_until_landing h held (stays (now, input) List.mem_cons_self) with
            | inl kept => exact holding id kept
            | inr lands =>
                rw [if_pos lands] at landing
                exact landing now rfl
          omega

theorem length_spaced {window since till : Nat} {times : List Nat}
    (apart : times.Pairwise (fun s t => s + window ≤ t))
    (within : ∀ t ∈ times, since ≤ t ∧ t ≤ till) :
    times.length * window ≤ till - since + window := by
  induction times generalizing since with
  | nil => simp
  | cons first rest ih =>
      obtain ⟨ahead, apart⟩ := List.pairwise_cons.mp apart
      obtain ⟨lower, upper⟩ := within first List.mem_cons_self
      cases rest with
      | nil => simp
      | cons second rest =>
          have step := ahead second List.mem_cons_self
          have bound : (second :: rest).length * window ≤ till - (first + window) + window :=
            ih apart fun t member =>
              ⟨ahead t member, (within t (List.mem_cons_of_mem _ member)).2⟩
          have top := (within second (by simp)).2
          rw [List.length_cons, Nat.succ_mul]
          omega

theorem lastRefresh_after {b : Broker} {since : Nat} {inputs : List (Nat × Input)}
    (times : ∀ timed ∈ inputs, since ≤ timed.1)
    (landed : ∃ moment, b.lastRefresh = some moment ∧ since ≤ moment) :
    ∃ moment, (b.after inputs).lastRefresh = some moment ∧ since ≤ moment := by
  induction inputs generalizing b with
  | nil => exact landed
  | cons timed rest ih =>
      apply ih
      · exact fun other member => times other (List.mem_cons_of_mem _ member)
      · rw [lastRefresh_step]
        split
        · exact ⟨timed.1, rfl, times timed List.mem_cons_self⟩
        · exact landed

/-- Where a caller's fetch has landed before, a caller's fetch begins only when the window has
passed since, and a refresh that gets the lock earlier is served from the store without a call of
the source. So where no caller leaves, a span of time sees no more fetches begin than windows fit
into it, and one more. -/
theorem refresh_spacing (config : Config) (start : Nat) (outcome : Except Error Credential)
    (inputs : List (Nat × Input)) (times : (inputs.map Prod.fst).Pairwise (· ≤ ·))
    (stays : ∀ timed ∈ inputs, ∀ id, timed.2 ≠ .cancel id) :
    let founded := create config start outcome
    let window := config.debounceWindow.nanos
    (∀ earlier s landing between t input later,
      inputs = earlier ++ (s, landing) :: (between ++ (t, input) :: later) →
      (founded.after earlier).landsRefresh landing = true →
      let b := founded.after (earlier ++ (s, landing) :: between)
      (b.begins t input = true → s + window ≤ t) ∧
      (t < s + window → b.Asks t input →
        (b.step t input).broker.counters.fetches = b.counters.fetches ∧
        (b.lock = none → (b.step t input).next = .answer b.store.current))) ∧
    (0 < window → ∀ since span,
      ((founded.beginnings inputs).filter fun t => since ≤ t && t ≤ since + span).length ≤
        span / window + 1) := by
  intro founded window
  have orderly : founded.Orderly := orderly_create config start outcome
  constructor
  · intro earlier s landing between t input later split lands b
    have order : ∀ timed ∈ between ++ (t, input) :: later, s ≤ timed.1 := by
      intro timed member
      rw [split, List.map_append, List.map_cons] at times
      have tail := (List.pairwise_append.mp times).2.1
      exact (List.pairwise_cons.mp tail).1 timed.1 (List.mem_map_of_mem member)
    obtain ⟨landed, last, recent⟩ : ∃ landed, b.lastRefresh = some landed ∧ s ≤ landed := by
      rw [show b = ((founded.after earlier).step s landing).broker.after between from
        after_append ..]
      apply lastRefresh_after
      · exact fun timed member => order timed (List.mem_append_left _ member)
      · exact ⟨s, by rw [lastRefresh_step, if_pos lands], Nat.le_refl s⟩
    have same : b.config = config := config_after founded _
    constructor
    · intro begins
      obtain ⟨_, fresh, _⟩ := begins_spaced (orderly.after _) begins
      have elapsed := fresh landed last
      have before := order (t, input) (by simp)
      rw [same] at elapsed
      simp only [window] at *
      omega
    · intro early asks
      cases since : b.debounced? t with
      | some since => exact asks.absorbed since
      | none =>
          have elapsed := debounced?_eq_none_iff.mp since landed last
          have before := order (t, input) (by simp)
          rw [same] at elapsed
          simp only [window] at *
          omega
  · intro positive since span
    have ordered : (0 :: inputs.map Prod.fst).Pairwise (· ≤ ·) :=
      List.pairwise_cons.mpr ⟨fun _ _ => Nat.zero_le _, times⟩
    obtain ⟨apart, _⟩ := beginnings_spaced orderly ordered stays (by simp [founded, create])
    have within : ∀ t ∈ (founded.beginnings inputs).filter fun t => since ≤ t && t ≤ since + span,
        since ≤ t ∧ t ≤ since + span := by
      simp
    have bound := length_spaced (apart.filter _) within
    rw [Nat.add_sub_cancel_left] at bound
    rw [← Nat.add_div_right span positive]
    exact (Nat.le_div_iff_mul_le positive).mpr bound

/-- A refresh fails, and the next begins exactly the debounce window later. -/
theorem refresh_spacing_boundary :
    let failed : Input := .land (.caller 1) (.error (.network "down"))
    let inputs : List (Nat × Input) :=
      [(0, .force 1), (1000000, failed), (5001000000, .force 2)]
    let founded := create .default 0 (.ok (sample "first"))
    let b := founded.after [(0, .force 1), (1000000, failed)]
    (inputs.map Prod.fst).Pairwise (· ≤ ·) ∧
      (∀ timed ∈ inputs, ∀ id, timed.2 ≠ .cancel id) ∧
      b.begins 5001000000 (.force 2) = true ∧
      1000000 + Config.default.debounceWindow.nanos ≤ 5001000000 ∧
      0 < Config.default.debounceWindow.nanos ∧
      ((founded.beginnings inputs).filter fun t => 0 ≤ t && t ≤ 0 + 5001000000).length ≤
        5001000000 / Config.default.debounceWindow.nanos + 1 := by
  intro failed inputs founded b
  have times : (inputs.map Prod.fst).Pairwise (· ≤ ·) := by
    decide
  have stays : ∀ timed ∈ inputs, ∀ id, timed.2 ≠ .cancel id := by
    simp [inputs, failed]
  have spacing := refresh_spacing .default 0 (.ok (sample "first")) inputs times stays
  have begins : b.begins 5001000000 (.force 2) = true := rfl
  have positive : 0 < Config.default.debounceWindow.nanos := by
    decide
  refine ⟨times, stays, begins, ?_, positive, spacing.2 positive 0 5001000000⟩
  exact (spacing.1 [(0, .force 1)] 1000000 failed [] 5001000000 (.force 2) [] rfl rfl).1 begins

end Bearer.Broker

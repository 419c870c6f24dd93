import Bearer.Proofs.Broker.Callers
import Bearer.Proofs.Broker.History

/-!
Many callers whose one credential failed. They poll the store, fall through one after the other and
line up behind the first of them, whose fetch is the only one: those who look later find what it
brought, and those in line are served from the store before the clock moves.
-/
namespace Bearer.Broker

def resting : Wait → Nat
  | .pausing _ _ _ => 1
  | .queued | .fetching => 0

/-- A bound on what a caller still does. -/
def effort : Wait → Nat
  | .pausing _ left _ => left + 5
  | .queued => 4
  | .fetching => 3

/-- The renewal has a new schedule to follow. -/
def stale (b : Broker) : Nat :=
  match b.renewal with
  | .armed _ seen => if b.version = seen then 0 else 1
  | _ => 0

theorem stale_le (b : Broker) : b.stale ≤ 1 := by
  simp only [stale]
  split
  · split <;> simp
  · simp

theorem stale_congr {b c : Broker} (renewal : c.renewal = b.renewal)
    (version : c.version = b.version) : c.stale = b.stale := by
  simp only [stale]
  rw [renewal, version]

def rank (b : Broker) : Nat :=
  b.weigh effort + b.stale

/-- How many callers begin to ask with an input, and what that adds to the bound. -/
def Input.asking : Input → Nat
  | .resolve _ _ _ => 1
  | _ => 0

def Input.cost : Input → Nat
  | .resolve _ _ polls => polls + 5
  | _ => 0

/-- A caller looks at the store, for the first time or again, and this many looks are left. -/
inductive Looks (x : Credential) (b : Broker) (now id : Nat) : Nat → Input → Prop where
  | first (polls : Nat) (absent : b.caller? id = none) :
      Looks x b now id polls (.resolve id x.value polls)
  | again (polls left due : Nat)
      (found : b.caller? id = some ⟨id, .resolving x.value, .pausing polls left due⟩)
      (ripe : due ≤ now) : Looks x b now id left (.poll id)

/-- What a caller does whose credential failed. -/
inductive Stirs (x y : Credential) (b : Broker) (now id : Nat) : Input → Prop where
  | look (left : Nat) (input : Input) (looks : b.Looks x now id left input) :
      Stirs x y b now id input
  | acquire (found : b.caller? id = some ⟨id, .resolving x.value, .queued⟩)
      (told : b.notified = true) (first : b.queue.head? = some (.caller id)) :
      Stirs x y b now id (.acquire (.caller id))
  | land (found : b.caller? id = some ⟨id, .resolving x.value, .fetching⟩) :
      Stirs x y b now id (.land (.caller id) (.ok y))

/-- Before the one fetch lands the store holds what failed, and nobody is told to try the lock.
Afterwards it holds what the fetch brought, and nobody takes the lock again; whoever still stands in
line does so at the moment of the landing. -/
inductive Tide (x y : Credential) (fetches now : Nat) (b : Broker) : Prop where
  | before (holds : b.store.current.outcome = .ok x) (never : b.lastRefresh = none)
      (silent : b.notified = false)
      (spent : b.counters.fetches = fetches + if b.lock = none then 0 else 1)
  | after (holds : b.store.current.outcome = .ok y) (landed : Nat)
      (last : b.lastRefresh = some landed) (free : b.lock = none)
      (drained : b.queue = [] ∨ landed = now) (spent : b.counters.fetches = fetches + 1)

/-- A broker in the rush, with the counters from which it started and the number of callers that
have asked since. -/
structure Rush (x y : Credential) (start : Counters) (now asked : Nat) (b : Broker) : Prop where
  orderly : b.Orderly
  window : 0 < b.config.debounceWindow.nanos
  armed : ∃ deadline seen, b.renewal = .armed deadline seen
  distinct : b.Distinct
  origins : ∀ id caller, b.caller? id = some caller → caller.origin = .resolving x.value
  tide : b.Tide x y start.fetches now
  looked : b.counters.resolverPollHits + b.counters.resolverFallThroughs + b.weigh resting =
    start.resolverPollHits + start.resolverFallThroughs + asked
  forced : b.counters.forcedRefreshes + start.debouncedRefreshes + start.fetches =
    start.forcedRefreshes + b.counters.debouncedRefreshes + b.counters.fetches + b.queue.length

/-- The ways in which a caller goes on in the rush, and what it waits for then. -/
inductive Turn (x y : Credential) (b : Broker) (now id : Nat) (input : Input) (ran : Ran) :
    Option Wait → Prop where
  | hit (left : Nat) (looks : b.Looks x now id left input) (landed : b.lastRefresh ≠ none)
      (holds : b.store.current.outcome = .ok y)
      (broker : ran.broker = (b.countBy .pollHit).dismiss id)
      (next : ran.next = .answer b.store.current) : Turn x y b now id input ran none
  | pause (left polls due : Nat) (looks : b.Looks x now id left input)
      (never : b.lastRefresh = none) (more : 1 < left)
      (broker : ran.broker = b.place ⟨id, .resolving x.value, .pausing polls (left - 1) due⟩)
      (next : ran.next = .sleep due) :
      Turn x y b now id input ran (some (.pausing polls (left - 1) due))
  | line (left : Nat) (looks : b.Looks x now id left input) (never : b.lastRefresh = none)
      (taken : b.lock ≠ none)
      (broker : ran.broker = (((b.countBy .fallThrough).countBy .forcedRefresh).place
        ⟨id, .resolving x.value, .queued⟩).enqueue (.caller id))
      (next : ran.next = .queue) : Turn x y b now id input ran (some .queued)
  | fetch (left : Nat) (looks : b.Looks x now id left input) (never : b.lastRefresh = none)
      (free : b.lock = none)
      (broker : ran.broker =
        { b.place ⟨id, .resolving x.value, .fetching⟩ with
          lock := some (.caller id)
          counters := b.counters.fallThrough.forcedRefresh.fetch })
      (next : ran.next = .fetch) : Turn x y b now id input ran (some .fetching)
  | absorbed (own : input = .acquire (.caller id))
      (found : b.caller? id = some ⟨id, .resolving x.value, .queued⟩)
      (landed : b.lastRefresh ≠ none) (free : b.lock = none)
      (holds : b.store.current.outcome = .ok y) (waiting : .caller id ∈ b.queue)
      (broker : ran.broker =
        ((b.dequeue (.caller id)).countBy .debouncedRefresh).unlock.1.dismiss id)
      (next : ran.next = .answer b.store.current) : Turn x y b now id input ran none
  | landed (own : input = .land (.caller id) (.ok y))
      (found : b.caller? id = some ⟨id, .resolving x.value, .fetching⟩)
      (never : b.lastRefresh = none) (held : b.lock = some (.caller id))
      (broker : ran.broker = (b.landRefresh now id (.resolving x.value) (.ok y)).broker)
      (next : ran.next = .answer (b.store.write (.ok y)).current) :
      Turn x y b now id input ran none

section Turns

variable {x y : Credential} {b : Broker} {now id left : Nat} {input : Input}

theorem Looks.resting (looks : b.Looks x now id left input) :
    weight resting (b.caller? id) + input.asking = 1 := by
  cases looks with
  | first polls absent => simp [absent, weight, Input.asking]
  | again polls left due found ripe => simp [found, weight, Broker.resting, Input.asking]

theorem Looks.effort (looks : b.Looks x now id left input) :
    weight effort (b.caller? id) + input.cost = left + 5 := by
  cases looks with
  | first polls absent => simp [absent, weight, Input.cost]
  | again polls left due found ripe => simp [found, weight, Broker.effort, Input.cost]

theorem Looks.step (looks : b.Looks x now id left input) :
    ∃ polls observed, b.step now input = (b.look now id x.value polls left).after observed := by
  cases looks with
  | first polls absent =>
      refine ⟨left, [.opened .resolveNew none, .counted .resolve .attempt], ?_⟩
      simp only [Broker.step, absent]
  | again polls left due found ripe =>
      refine ⟨polls, [], ?_⟩
      simp only [Broker.step, found, ripe, if_true]
      rfl

theorem other?_holds {c : Credential} {failed : String}
    (holds : b.store.current.outcome = .ok c) :
    b.other? failed = if c.value = failed then none else some b.store.current := by
  simp [other?, holds, Credential.carries]

/-- Before the landing a look misses: the caller rests, takes the free lock, or lines up. -/
theorem Looks.misses {ran : Ran} (looks : b.Looks x now id left input) {polls : Nat}
    (holds : b.store.current.outcome = .ok x) (never : b.lastRefresh = none)
    (broker : ran.broker = (b.look now id x.value polls left).broker)
    (next : ran.next = (b.look now id x.value polls left).next) :
    ∃ entry, b.Turn x y now id input ran entry := by
  have miss : b.other? x.value = none := by
    rw [other?_holds holds, if_pos rfl]
  by_cases more : 1 < left
  · simp only [look, miss, more, if_true] at broker next
    exact ⟨_, .pause left polls _ looks never more broker next⟩
  · simp only [look, miss, more, if_false, Ran.after_broker, Ran.after_next] at broker next
    cases lock : b.lock with
    | some holder =>
        simp only [contend, countBy, lock] at broker next
        refine ⟨_, .line left looks never (by simp [lock]) ?_ next⟩
        rw [broker]
        simp only [countBy, place, enqueue, lock]
    | none =>
        have fresh : ((b.countBy .fallThrough).countBy .forcedRefresh).debounced? now = none := by
          simp [debounced?, countBy, never]
        have free : ((b.countBy .fallThrough).countBy .forcedRefresh).lock = none := lock
        simp only [contend, free, refresh, fresh] at broker next
        exact ⟨_, .fetch left looks never lock broker next⟩

theorem Rush.turn {start : Counters} {asked : Nat} (h : Rush x y start now asked b)
    (differs : y.value ≠ x.value) (stirs : b.Stirs x y now id input) :
    ∃ entry, b.Turn x y now id input (b.step now input) entry := by
  cases stirs with
  | look left input looks =>
      obtain ⟨polls, observed, step⟩ := looks.step
      rw [step]
      cases h.tide with
      | before holds never silent spent => exact looks.misses holds never rfl rfl
      | after holds landed last free drained spent =>
          have hit : b.other? x.value = some b.store.current := by
            rw [other?_holds holds, if_neg differs]
          refine ⟨_, .hit left looks (by simp [last]) holds ?_ ?_⟩
          · simp [look, hit, answer]
          · simp [look, hit, answer]
  | acquire found told first =>
      cases h.tide with
      | before holds never silent spent => simp [silent] at told
      | after holds landed last free drained spent =>
          have standing : b.queue ≠ [] := by
            intro empty
            simp [empty] at first
          have instant : landed = now := drained.resolve_left standing
          have recent : (b.dequeue (.caller id)).debounced? now = some 0 := by
            simp [debounced?, dequeue, last, instant, h.window]
          have step : b.step now (.acquire (.caller id)) =
              (b.dequeue (.caller id)).refresh now id (.resolving x.value) := by
            simp only [Broker.step, acquireCaller, found, contend, lock_dequeue, free]
          simp only [refresh, recent] at step
          have waiting := (h.orderly.waits (.caller id)).mp (phase_caller found)
          refine ⟨_, .absorbed rfl found (by simp [last]) free holds waiting ?_ ?_⟩
          · rw [step]
            rfl
          · rw [step]
            simp [answer, unlock_fst, countBy, dequeue]
  | land found =>
      have held := (h.orderly.holds (.caller id)).mp (phase_caller found)
      cases h.tide with
      | after holds landed last free drained spent => simp [free] at held
      | before holds never silent spent =>
          refine ⟨_, .landed rfl found never held ?_ ?_⟩
          · simp only [Broker.step, found]
          · simp [Broker.step, found, landRefresh, answer, unlock_fst, publish]

theorem Stirs.turned (stirs : b.Stirs x y now id input) :
    b.Turned id (b.step now input).broker := by
  cases stirs with
  | look left input looks =>
      obtain ⟨polls, observed, step⟩ := looks.step
      rw [step]
      exact turned_look
  | acquire found told first =>
      simp only [Broker.step, acquireCaller, found]
      exact ⟨turned_contend.callers, turned_contend.renewal⟩
  | land found =>
      simp only [Broker.step, found]
      exact turned_landRefresh

theorem Turn.caller? {ran : Ran} {entry : Option Wait}
    (turn : b.Turn x y now id input ran entry) :
    ran.broker.caller? id = entry.map fun wait => ⟨id, .resolving x.value, wait⟩ := by
  cases turn with
  | hit left looks landed holds broker next => rw [broker, caller?_dismiss, if_pos rfl]; rfl
  | pause left polls due looks never more broker next =>
      rw [broker]
      exact (caller?_place ..).trans (if_pos rfl)
  | line left looks never taken broker next =>
      rw [broker]
      exact (caller?_place ..).trans (if_pos rfl)
  | fetch left looks never free broker next =>
      rw [broker]
      exact (caller?_place ..).trans (if_pos rfl)
  | absorbed own found landed free holds waiting broker next =>
      rw [broker]
      exact (caller?_dismiss ..).trans (if_pos rfl)
  | landed own found never held broker next =>
      rw [broker]
      exact (caller?_dismiss ..).trans (if_pos rfl)

theorem Turn.answer {ran : Ran} {entry : Option Wait}
    (turn : b.Turn x y now id input ran entry) :
    match entry with
    | none => ∃ snapshot, ran.next = .answer snapshot ∧ snapshot.outcome = .ok y
    | some _ => ∀ snapshot, ran.next ≠ .answer snapshot := by
  cases turn with
  | hit left looks landed holds broker next => exact ⟨_, next, holds⟩
  | pause left polls due looks never more broker next => simp [next]
  | line left looks never taken broker next => simp [next]
  | fetch left looks never free broker next => simp [next]
  | absorbed own found landed free holds waiting broker next => exact ⟨_, next, holds⟩
  | landed own found never held broker next => exact ⟨_, next, rfl⟩

theorem Turn.lastRefresh {ran : Ran} {entry : Option Wait}
    (turn : b.Turn x y now id input ran entry) :
    match entry with
    | none => ran.broker.lastRefresh ≠ none
    | some _ => b.lastRefresh = none ∧ ran.broker.lastRefresh = none := by
  cases turn with
  | hit left looks landed holds broker next =>
      rw [broker]
      exact landed
  | pause left polls due looks never more broker next =>
      rw [broker]
      exact ⟨never, never⟩
  | line left looks never taken broker next =>
      rw [broker]
      exact ⟨never, never⟩
  | fetch left looks never free broker next =>
      rw [broker]
      exact ⟨never, never⟩
  | absorbed own found landed free holds waiting broker next =>
      rw [broker]
      simpa [dismiss, unlock_fst, countBy, dequeue] using landed
  | landed own found never held broker next =>
      rw [broker]
      simp [landRefresh, Broker.answer, dismiss, unlock_fst, publish]

theorem Rush.tide_step {start : Counters} {asked : Nat} {ran : Ran} {entry : Option Wait}
    (h : Rush x y start now asked b) (turn : b.Turn x y now id input ran entry) :
    ran.broker.Tide x y start.fetches now := by
  have tide := h.tide
  cases turn with
  | hit left looks landed holds broker next =>
      rw [broker]
      cases tide with
      | before same never silent spent => exact absurd never landed
      | after same moment last free drained spent =>
          exact .after same moment last free drained spent
  | pause left polls due looks never more broker next =>
      rw [broker]
      cases tide with
      | before holds never silent spent => exact .before holds never silent spent
      | after holds moment last free drained spent => simp [never] at last
  | line left looks never taken broker next =>
      rw [broker]
      cases tide with
      | before holds never silent spent => exact .before holds never silent spent
      | after holds moment last free drained spent => exact absurd free taken
  | fetch left looks never free broker next =>
      rw [broker]
      cases tide with
      | before holds never silent spent =>
          refine .before holds never silent ?_
          simp [Counters.fetch, Counters.fallThrough, Counters.forcedRefresh, spent, free]
      | after holds moment last free drained spent => simp [never] at last
  | absorbed own found landed free holds waiting broker next =>
      rw [broker]
      cases tide with
      | before same never silent spent => exact absurd never landed
      | after same moment last free drained spent =>
          refine .after ?_ moment ?_ ?_ ?_ ?_
          · simpa [dismiss, unlock_fst, countBy, dequeue] using same
          · simpa [dismiss, unlock_fst, countBy, dequeue] using last
          · simp [dismiss, unlock_fst]
          · refine .inr (drained.resolve_left ?_)
            intro empty
            simp [empty] at waiting
          · simpa [dismiss, unlock_fst, countBy, dequeue, Counters.debouncedRefresh] using spent
  | landed own found never held broker next =>
      rw [broker]
      cases tide with
      | before holds never silent spent =>
          refine .after ?_ now ?_ ?_ (.inr rfl) ?_
          · simp [landRefresh, answer, dismiss, unlock_fst, publish]
          · simp [landRefresh, answer, dismiss, unlock_fst, publish]
          · simp [landRefresh, answer, dismiss, unlock_fst, publish]
          · simpa [landRefresh, answer, dismiss, unlock_fst, publish, held] using spent
      | after holds moment last free drained spent => simp [never] at last

/-- A look that finds something or gives up is counted, and a caller that rests is not counted
yet. -/
theorem Turn.looked {ran : Ran} {entry : Option Wait}
    (turn : b.Turn x y now id input ran entry) (turned : b.Turned id ran.broker)
    (distinct : b.Distinct) :
    ran.broker.counters.resolverPollHits + ran.broker.counters.resolverFallThroughs +
        ran.broker.weigh resting =
      b.counters.resolverPollHits + b.counters.resolverFallThroughs + b.weigh resting +
        input.asking := by
  have sum := turned.weigh distinct Broker.resting
  rw [turn.caller?] at sum
  cases turn with
  | hit left looks landed holds broker next =>
      have one := looks.resting
      have counters : ran.broker.counters = b.counters.pollHit := by
        rw [broker]
        rfl
      simp only [counters, Counters.pollHit, Option.map_none, weight_none] at sum ⊢
      omega
  | pause left polls due looks never more broker next =>
      have one := looks.resting
      have counters : ran.broker.counters = b.counters := by
        rw [broker]
        rfl
      simp only [counters, Option.map_some, weight_some, Broker.resting] at sum ⊢
      omega
  | line left looks never taken broker next =>
      have one := looks.resting
      have counters : ran.broker.counters = b.counters.fallThrough.forcedRefresh := by
        rw [broker]
        rfl
      simp only [counters, Counters.fallThrough, Counters.forcedRefresh, Option.map_some,
        weight_some] at sum ⊢
      simp only [Broker.resting] at sum
      omega
  | fetch left looks never free broker next =>
      have one := looks.resting
      have counters : ran.broker.counters = b.counters.fallThrough.forcedRefresh.fetch := by
        rw [broker]
      simp only [counters, Counters.fallThrough, Counters.forcedRefresh, Counters.fetch,
        Option.map_some, weight_some] at sum ⊢
      simp only [Broker.resting] at sum
      omega
  | absorbed own found landed free holds waiting broker next =>
      have counters : ran.broker.counters = b.counters.debouncedRefresh := by
        rw [broker]
        simp [dismiss, unlock_fst, countBy, dequeue]
      simp only [counters, Counters.debouncedRefresh, found, own, Input.asking, Option.map_none,
        weight_some, weight_none, Broker.resting] at sum ⊢
      omega
  | landed own found never held broker next =>
      have counters : ran.broker.counters = b.counters := by
        rw [broker]
        simp [landRefresh, Broker.answer, dismiss, unlock_fst, publish]
      simp only [counters, found, own, Input.asking, Option.map_none, weight_some, weight_none,
        Broker.resting] at sum ⊢
      omega

theorem Turn.forced {ran : Ran} {entry : Option Wait}
    (turn : b.Turn x y now id input ran entry) :
    ran.broker.counters.forcedRefreshes + b.counters.debouncedRefreshes + b.counters.fetches +
        b.queue.length =
      b.counters.forcedRefreshes + ran.broker.counters.debouncedRefreshes +
        ran.broker.counters.fetches + ran.broker.queue.length := by
  cases turn with
  | hit left looks landed holds broker next =>
      rw [broker]
      simp [dismiss, countBy, Counters.pollHit]
  | pause left polls due looks never more broker next =>
      rw [broker]
      simp [place]
  | line left looks never taken broker next =>
      rw [broker]
      simp only [place, enqueue, countBy, Counters.fallThrough, Counters.forcedRefresh,
        List.length_append, List.length_singleton]
      omega
  | fetch left looks never free broker next =>
      rw [broker]
      simp only [place, Counters.fallThrough, Counters.forcedRefresh, Counters.fetch]
      omega
  | absorbed own found landed free holds waiting broker next =>
      have shorter := List.length_erase_of_mem waiting
      have standing := List.length_pos_of_mem waiting
      rw [broker]
      simp only [dismiss, unlock_fst, countBy, dequeue, Counters.debouncedRefresh]
      omega
  | landed own found never held broker next =>
      rw [broker]
      simp [landRefresh, Broker.answer, dismiss, unlock_fst, publish]

/-- A turn uses up more of the bound than what an answered caller still does with its answer. -/
theorem Turn.rank {ran : Ran} {entry : Option Wait}
    (turn : b.Turn x y now id input ran entry) (turned : b.Turned id ran.broker)
    (distinct : b.Distinct) :
    ran.broker.rank + (if entry = none then 1 else 0) < b.rank + input.cost := by
  have sum := turned.weigh distinct Broker.effort
  rw [turn.caller?] at sum
  have still : ran.broker.version = b.version → ran.broker.stale = b.stale :=
    stale_congr turned.renewal
  simp only [Broker.rank]
  cases turn with
  | hit left looks landed holds broker next =>
      have cost := looks.effort
      rw [still (by rw [broker]; rfl)]
      simp only [Option.map_none, weight_none, if_true] at sum ⊢
      omega
  | pause left polls due looks never more broker next =>
      have cost := looks.effort
      rw [still (by rw [broker]; rfl)]
      simp only [Option.map_some, weight_some, reduceCtorEq, if_false] at sum ⊢
      simp only [Broker.effort] at sum
      omega
  | line left looks never taken broker next =>
      have cost := looks.effort
      rw [still (by rw [broker]; rfl)]
      simp only [Option.map_some, weight_some, reduceCtorEq, if_false] at sum ⊢
      simp only [Broker.effort] at sum
      omega
  | fetch left looks never free broker next =>
      have cost := looks.effort
      rw [still (by rw [broker]; rfl)]
      simp only [Option.map_some, weight_some, reduceCtorEq, if_false] at sum ⊢
      simp only [Broker.effort] at sum
      omega
  | absorbed own found landed free holds waiting broker next =>
      have version : ran.broker.version = b.version := by
        rw [broker]
        simp [dismiss, unlock_fst, countBy, dequeue]
      rw [still version]
      simp only [found, Option.map_none, weight_some, weight_none, Broker.effort, if_true] at sum ⊢
      omega
  | landed own found never held broker next =>
      have one := stale_le ran.broker
      simp only [found, Option.map_none, weight_some, weight_none, Broker.effort, if_true] at sum ⊢
      omega

theorem Rush.step {start : Counters} {asked : Nat} (h : Rush x y start now asked b)
    (differs : y.value ≠ x.value) (stirs : b.Stirs x y now id input) :
    Rush x y start now (asked + input.asking) (b.step now input).broker := by
  obtain ⟨entry, turn⟩ := h.turn differs stirs
  have turned := stirs.turned
  obtain ⟨deadline, seen, armed⟩ := h.armed
  refine {
    orderly := h.orderly.step now input
    window := (config_step b now input).symm ▸ h.window
    armed := ⟨deadline, seen, turned.renewal.trans armed⟩
    distinct := turned.distinct h.distinct
    origins := ?_
    tide := h.tide_step turn
    looked := ?_
    forced := ?_ }
  · intro other caller found
    by_cases own : other = id
    · subst own
      rw [turn.caller?] at found
      cases entry with
      | none => cases found
      | some wait =>
          cases found
          rfl
    · exact h.origins other caller ((turned.caller? own).symm.trans found)
  · have before := h.looked
    have change := turn.looked turned h.distinct
    omega
  · have before := h.forced
    have change := turn.forced
    omega

end Turns

section Whole

variable {x y : Credential} {start : Counters} {now asked : Nat} {b : Broker}

theorem Orderly.deserted (h : b.Orderly) (nobody : b.callers = [])
    (armed : ∃ deadline seen, b.renewal = .armed deadline seen) : b.lock = none ∧ b.queue = [] := by
  obtain ⟨deadline, seen, armed⟩ := armed
  have phase : ∀ party, b.phase party = .away ∨ b.phase party = .resting := by
    intro party
    cases party with
    | caller id => exact .inl (phase_away (by simp [Broker.caller?, nobody]))
    | renewal => exact .inr (by simp [Broker.phase, armed, Renewal.phase])
  constructor
  · cases lock : b.lock with
    | none => rfl
    | some holder =>
        have fetching := (h.holds holder).mpr lock
        cases phase holder <;> simp_all
  · cases queue : b.queue with
    | nil => rfl
    | cons first rest =>
        have queued := (h.waits first).mpr (by simp [queue])
        cases phase first <;> simp_all

/-- The rush begins where nobody asks anything of the broker and no refresh has landed. -/
theorem Orderly.rush (h : b.Orderly) (nobody : b.callers = [])
    (armed : ∃ deadline seen, b.renewal = .armed deadline seen) (never : b.lastRefresh = none)
    (holds : b.store.current.outcome = .ok x) (window : 0 < b.config.debounceWindow.nanos) :
    Rush x y b.counters now 0 b := by
  obtain ⟨free, empty⟩ := h.deserted nobody armed
  refine {
    orderly := h
    window := window
    armed := armed
    distinct := by simp [Distinct, nobody]
    origins := by simp [Broker.caller?, nobody]
    tide := .before holds never ?_ (by simp [free])
    looked := by simp [weigh, nobody]
    forced := by simp [empty] }
  cases told : b.notified with
  | false => rfl
  | true => exact absurd empty (h.heard told)

theorem Rush.current (h : Rush x y start now asked b) :
    ∃ c, b.current = .ok c ∧ (c = x ∨ c = y) := by
  simp only [Broker.current, Store.answer, Snapshot.answer]
  cases h.tide with
  | before holds never silent spent =>
      rw [holds]
      exact ⟨x, rfl, .inl rfl⟩
  | after holds landed last free drained spent =>
      rw [holds]
      exact ⟨y, rfl, .inr rfl⟩

theorem Rush.rearm (h : Rush x y start now asked b) (stale : b.stale = 1) :
    Rush x y start now asked (b.step now .rearm).broker ∧
      (b.step now .rearm).broker.rank < b.rank ∧
      (b.step now .rearm).broker.callers = b.callers := by
  obtain ⟨deadline, seen, armed⟩ := h.armed
  have behind : b.version ≠ seen := by
    intro same
    simp [Broker.stale, armed, same] at stale
  have step : (b.step now .rearm).broker =
      { b with renewal := .armed (now + b.published.nanos) b.version } := by
    simp only [Broker.step, armed, behind, if_false]
    rfl
  have orderly := h.orderly.step now .rearm
  rw [step] at orderly ⊢
  refine ⟨?_, ?_, rfl⟩
  · refine ⟨orderly, h.window, ⟨_, _, rfl⟩, h.distinct, h.origins, ?_, h.looked, h.forced⟩
    cases h.tide with
    | before holds never silent spent => exact .before holds never silent spent
    | after holds landed last free drained spent =>
        exact .after holds landed last free drained spent
  · have calm : ({ b with renewal := .armed (now + b.published.nanos) b.version } : Broker).stale =
        0 := by
      simp [Broker.stale]
    simp only [Broker.rank, weigh, calm, stale]
    omega

/-- Whoever heads the line at a free lock has been told to try it. -/
theorem Rush.head (h : Rush x y start now asked b) (free : b.lock = none)
    (standing : b.queue ≠ []) :
    ∃ id, b.caller? id = some ⟨id, .resolving x.value, .queued⟩ ∧ b.notified = true ∧
      b.queue.head? = some (.caller id) := by
  obtain ⟨first, rest, queue⟩ := List.exists_cons_of_ne_nil standing
  have queued := (h.orderly.waits first).mpr (by simp [queue])
  obtain ⟨deadline, seen, armed⟩ := h.armed
  cases first with
  | renewal => simp [Broker.phase, armed, Renewal.phase] at queued
  | caller id =>
      obtain ⟨origin, found⟩ := phase_queued_caller.mp queued
      have wants : origin = .resolving x.value := h.origins id _ found
      subst wants
      exact ⟨id, found, h.orderly.told free standing, by simp [queue]⟩

theorem Rush.later (h : Rush x y start now asked b) {later : Nat}
    (drained : b.lock = none → b.queue = []) : Rush x y start later asked b := by
  refine { h with tide := ?_ }
  cases h.tide with
  | before holds never silent spent => exact .before holds never silent spent
  | after holds landed last free _ spent =>
      exact .after holds landed last free (.inl (drained free)) spent

/-- What the counters say when all callers have their answers. -/
theorem Rush.finished (h : Rush x y start now asked b) (nobody : b.callers = []) :
    b.counters.fetches = start.fetches + (if b.lastRefresh = none then 0 else 1) ∧
    b.counters.resolverPollHits + b.counters.resolverFallThroughs =
      start.resolverPollHits + start.resolverFallThroughs + asked ∧
    b.counters.forcedRefreshes + start.debouncedRefreshes + start.fetches =
      start.forcedRefreshes + b.counters.debouncedRefreshes + b.counters.fetches := by
  obtain ⟨free, empty⟩ := h.orderly.deserted nobody h.armed
  have looked := h.looked
  have forced := h.forced
  simp only [weigh, nobody, List.map_nil, List.sum_nil, Nat.add_zero] at looked
  simp only [empty, List.length_nil, Nat.add_zero] at forced
  refine ⟨?_, looked, forced⟩
  cases h.tide with
  | before holds never silent spent => simpa [never, free] using spent
  | after holds landed last _ drained spent => simpa [last] using spent

end Whole

end Bearer.Broker

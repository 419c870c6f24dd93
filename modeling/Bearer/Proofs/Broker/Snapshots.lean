import Bearer.Proofs.Broker.Resolve
import Bearer.Proofs.Broker.Schedule

/-!
What the store holds, and who is answered with what. Every fetch that lands makes a snapshot, and the
store holds the last of them; two landings with equal outcomes make two snapshots. Whoever is
answered gets the snapshot that its own fetch has made, or the one that the store holds.
-/
namespace Bearer.Broker

/-- The snapshots that were made of the outcomes of fetches, in the order in which those landed. -/
def produced (outcome : Except Error Credential) (landed : List (Except Error Credential)) :
    List Snapshot :=
  (outcome :: landed).mapIdx Snapshot.mk

theorem produced_concat (outcome last : Except Error Credential)
    (landed : List (Except Error Credential)) :
    produced outcome (landed ++ [last]) =
      produced outcome landed ++ [⟨landed.length + 1, last⟩] := by
  simp [produced, List.mapIdx_append]

/-- The store that is written to again and again holds the snapshot that was made last. -/
theorem foldl_write (outcome : Except Error Credential)
    (landed : List (Except Error Credential)) :
    let store := landed.foldl Store.write (.create outcome)
    store.minted = landed.length + 1 ∧ (produced outcome landed).getLast? = some store.current := by
  induction landed using List.reverseRecOn with
  | nil => exact ⟨rfl, rfl⟩
  | append_singleton landed last ih =>
      simp only [List.foldl_concat, produced_concat, List.getLast?_concat, Option.some.injEq]
      refine ⟨?_, ?_⟩
      · simp [Store.write, ih.1]
      · simp [Store.write, ih.1]

theorem store_step {b : Broker} {input : Input} (unwritten : ∀ outcome, input ≠ .write outcome)
    (now : Nat) :
    (b.step now input).broker.store = (b.landing? input).toList.foldl Store.write b.store := by
  have store := congrArg Memory.store (memory_step b now input)
  cases input with
  | land party outcome =>
      simp only [remembered] at store
      by_cases fetching : b.phase party = .fetching
      · rw [if_pos fetching] at store
        simp only [landing?, if_pos fetching]
        cases party <;> exact store
      · rw [if_neg fetching] at store
        simp only [landing?, if_neg fetching]
        exact store
  | write outcome => exact absurd rfl (unwritten outcome)
  | _ => exact store

theorem store_after (b : Broker) {inputs : List (Nat × Input)}
    (unwritten : ∀ timed ∈ inputs, ∀ outcome, timed.2 ≠ .write outcome) :
    (b.after inputs).store = (b.landings inputs).foldl Store.write b.store := by
  induction inputs generalizing b with
  | nil => rfl
  | cons timed rest ih =>
      obtain ⟨now, input⟩ := timed
      have first := store_step (b := b) (unwritten (now, input) List.mem_cons_self) now
      rw [after_cons, ih _ fun timed member => unwritten timed (List.mem_cons_of_mem _ member),
        first, landings, List.foldl_append]

theorem outcome_foldl_write (outcome : Except Error Credential)
    (landed : List (Except Error Credential)) :
    (outcome :: landed).getLast? =
      some (landed.foldl Store.write (.create outcome)).current.outcome := by
  rcases List.eq_nil_or_concat landed with rfl | ⟨before, last, rfl⟩
  · rfl
  · rw [List.concat_eq_append, ← List.cons_append, List.getLast?_concat, List.foldl_concat,
      Store.outcome_write]

/-- A broker shows what was fetched last, and a failure once more wrapped. -/
theorem current_of_last {config : Config} {start : Nat} {outcome last : Except Error Credential}
    {inputs : List (Nat × Input)}
    (unwritten : ∀ timed ∈ inputs, ∀ written, timed.2 ≠ .write written)
    (latest : (outcome :: (create config start outcome).landings inputs).getLast? = some last) :
    ((create config start outcome).after inputs).current = last.mapError .unavailable := by
  rw [outcome_foldl_write] at latest
  have store : ((create config start outcome).after inputs).store =
      ((create config start outcome).landings inputs).foldl Store.write (.create outcome) :=
    store_after _ unwritten
  rw [current, store, Store.answer, Snapshot.answer, Option.some.inj latest]

/-- Who is answered without a fetch of its own gets what the store holds. -/
theorem look_answered {b : Broker} {now id polls left : Nat} {failed : String}
    {snapshot : Snapshot} (answered : (b.look now id failed polls left).next = .answer snapshot) :
    snapshot = b.store.current := by
  have landing : b.landing? (.poll id) = none := rfl
  cases look_served landing answered with
  | hit | absorbed => rfl
  | fetched _ other => cases landing.symm.trans other

theorem contendRenewal_unanswered {b : Broker} {now seen : Nat} {snapshot : Snapshot} :
    (b.contendRenewal now seen).next ≠ .answer snapshot := by
  simp only [contendRenewal, renew]
  split
  · split <;> simp [reschedule, arm]
  · simp

theorem Moves.answered {b : Broker} {now : Nat} {input : Input} {ran : Ran} {snapshot : Snapshot}
    (moves : b.Moves now input ran) (landing : b.landing? input = none)
    (answered : ran.next = .answer snapshot) : snapshot = b.store.current := by
  cases moves with
  | force id absent => exact (contend_served answered).1
  | resolve id failed polls absent => exact look_answered answered
  | poll id failed polls left due found ripe => exact look_answered answered
  | acquire id origin found => exact (contend_served answered).1
  | timer | acquireRenewal => exact absurd answered contendRenewal_unanswered
  | land id origin outcome found =>
      cases (if_pos (phase_fetching_caller.mpr ⟨origin, found⟩)).symm.trans landing
  | idle | rearm | landRenewal | cancel | clone | drop | dropLast | write => cases answered

theorem landed_answer {b : Broker} {now : Nat} {input : Input}
    (lands : b.landsRefresh input = true) :
    (b.step now input).next = .answer (b.step now input).broker.store.current := by
  obtain ⟨id, outcome, rfl, _⟩ := landing_of_landsRefresh lands
  obtain ⟨origin, found⟩ := phase_fetching_caller.mp (of_decide_eq_true lands)
  simp [Broker.step, found, landRefresh, answer, dismiss, unlock_fst, publish]

/-- A refresh has landed at this moment, and no caller has the lock. -/
structure Settled (b : Broker) (landed : Nat) : Prop where
  last : b.lastRefresh = some landed
  alone : ∀ id, b.lock ≠ some (.caller id)

section Settled

variable {b : Broker} {landed now : Nat} {input : Input} {ran : Ran}

theorem Settled.debounced (h : b.Settled landed) (later : landed ≤ now)
    (early : now < landed + b.config.debounceWindow.nanos) :
    b.debounced? now = some (now - landed) := by
  have recent : now - landed < b.config.debounceWindow.nanos := by
    omega
  simp [debounced?, h.last, recent]

theorem Settled.lock (h : b.Settled landed) (shift : b.Shift now input ran)
    (recent : b.debounced? now ≠ none) : ∀ id, ran.broker.lock ≠ some (.caller id) := by
  cases shift with
  | aside renewal schedule lock landing next =>
      cases lock with
      | inl same => exact same ▸ h.alone
      | inr taken => exact absurd taken.2.1 recent
  | left id own held | landed id outcome own landing held => exact absurd held (h.alone id)
  | rearms _ _ _ _ _ _ _ lock | waits _ _ _ _ _ lock => exact lock ▸ h.alone
  | skips _ _ _ _ _ _ lock | renewed _ _ _ _ _ _ _ lock | fetches _ _ _ _ _ _ lock => simp [lock]
  | stops own last renewal lock next =>
      rw [lock]
      split
      · simp
      · exact h.alone

theorem Settled.not_landsRefresh (h : b.Settled landed) (orderly : b.Orderly) :
    b.landsRefresh input = false := by
  refine Bool.eq_false_iff.mpr fun lands => ?_
  obtain ⟨id, outcome, rfl, _⟩ := landing_of_landsRefresh lands
  exact h.alone id ((orderly.holds _).mp (of_decide_eq_true lands))

/-- Within the debounce window no other refresh fetches, so none lands. -/
theorem Settled.step (h : b.Settled landed) (orderly : b.Orderly) (later : landed ≤ now)
    (early : now < landed + b.config.debounceWindow.nanos) :
    (b.step now input).broker.Settled landed := by
  refine ⟨?_, h.lock (step_shift orderly now input) (by simp [h.debounced later early])⟩
  rw [lastRefresh_step, h.not_landsRefresh orderly]
  exact h.last

theorem settled_of_landsRefresh (lands : b.landsRefresh input = true) :
    (b.step now input).broker.Settled now := by
  refine ⟨by rw [lastRefresh_step, if_pos lands], ?_⟩
  obtain ⟨id, outcome, rfl, _⟩ := landing_of_landsRefresh lands
  obtain ⟨origin, found⟩ := phase_fetching_caller.mp (of_decide_eq_true lands)
  simp [Broker.step, found, landRefresh, answer, dismiss, unlock_fst]

end Settled

/-- The snapshot that a renewal stores which lands with this input. -/
def renewed? (b : Broker) (now : Nat) (input : Input) : Option Snapshot :=
  match input with
  | .land .renewal _ =>
    if b.phase .renewal = .fetching then some (b.step now input).broker.store.current else none
  | _ => none

/-- The snapshot of the renewal that lands last in a run, where one lands. -/
def lastRenewal? (b : Broker) : List (Nat × Input) → Option Snapshot
  | [] => none
  | (now, input) :: rest =>
    ((b.step now input).broker.lastRenewal? rest).or (b.renewed? now input)

/-- Where no refresh lands, the store changes only by a renewal. -/
theorem current_step {b : Broker} {input : Input} (now : Nat)
    (unwritten : ∀ outcome, input ≠ .write outcome) (quiet : b.landsRefresh input = false) :
    (b.step now input).broker.store.current = (b.renewed? now input).getD b.store.current := by
  have store := store_step unwritten now (b := b)
  cases input with
  | land party outcome =>
      by_cases fetching : b.phase party = .fetching
      · cases party with
        | caller id => simp [landsRefresh, fetching] at quiet
        | renewal => simp [renewed?, fetching]
      · simp only [landing?, if_neg fetching] at store
        rw [store]
        cases party with
        | caller id => rfl
        | renewal => simp [renewed?, fetching]
  | _ =>
      rw [store]
      rfl

/-- What the store holds within the debounce window after a refresh has landed. -/
theorem Settled.after {b : Broker} {landed : Nat} {inputs : List (Nat × Input)}
    (h : b.Settled landed) (orderly : b.Orderly)
    (within : ∀ timed ∈ inputs,
      landed ≤ timed.1 ∧ timed.1 < landed + b.config.debounceWindow.nanos)
    (unwritten : ∀ timed ∈ inputs, ∀ outcome, timed.2 ≠ .write outcome) :
    (b.after inputs).Settled landed ∧
      (b.after inputs).store.current = (b.lastRenewal? inputs).getD b.store.current := by
  induction inputs generalizing b with
  | nil => exact ⟨h, rfl⟩
  | cons timed rest ih =>
      obtain ⟨now, input⟩ := timed
      obtain ⟨later, early⟩ := within (now, input) List.mem_cons_self
      have same := config_step b now input
      have stepped : (b.step now input).broker.Settled landed := h.step orderly later early
      have next := ih stepped (orderly.step now input)
        (fun timed member => same.symm ▸ within timed (List.mem_cons_of_mem _ member))
        (fun timed member => unwritten timed (List.mem_cons_of_mem _ member))
      refine ⟨next.1, ?_⟩
      rw [after_cons, next.2, lastRenewal?, Option.getD_or,
        current_step now (unwritten (now, input) List.mem_cons_self) (h.not_landsRefresh orderly)]

/-- Who gets the lock within the debounce window after a refresh has landed is answered with the
snapshot of that refresh, or with that of the last renewal since. -/
theorem follower_answered {b : Broker} {s t id : Nat} {landing : Input}
    {between : List (Nat × Input)} (orderly : b.Orderly) (lands : b.landsRefresh landing = true)
    (unwritten : ∀ timed ∈ between, ∀ landed, timed.2 ≠ .write landed)
    (times : (s :: between.map Prod.fst ++ [t]).Pairwise (· ≤ ·))
    (early : t < s + b.config.debounceWindow.nanos)
    (free : ((b.step s landing).broker.after between).lock = none)
    (queued : ((b.step s landing).broker.after between).phase (.caller id) = .queued) :
    (((b.step s landing).broker.after between).step t (.acquire (.caller id))).next =
      .answer (((b.step s landing).broker.lastRenewal? between).getD
        (b.step s landing).broker.store.current) := by
  have config_led : (b.step s landing).broker.config = b.config := config_step b s landing
  have config_then : ((b.step s landing).broker.after between).config = b.config :=
    (config_after _ between).trans config_led
  obtain ⟨ordered, _, before⟩ := List.pairwise_append.mp times
  have order : s ≤ t := before s List.mem_cons_self t List.mem_cons_self
  have within : ∀ timed ∈ between,
      s ≤ timed.1 ∧ timed.1 < s + (b.step s landing).broker.config.debounceWindow.nanos := by
    intro timed member
    have inside := List.mem_map_of_mem (f := Prod.fst) member
    have since := (List.pairwise_cons.mp ordered).1 timed.1 inside
    have till := before timed.1 (List.mem_cons_of_mem _ inside) t List.mem_cons_self
    rw [config_led]
    exact ⟨since, Nat.lt_of_le_of_lt till early⟩
  obtain ⟨settled, current⟩ :=
    (settled_of_landsRefresh lands).after (orderly.step s landing) within unwritten
  obtain ⟨origin, found⟩ := phase_queued_caller.mp queued
  have recent := settled.debounced order (config_then ▸ early)
  rw [← current]
  exact ((Asks.acquire id origin found).absorbed recent).2 free

/-- The store holds the snapshot of the fetch that has landed last, and every answer is the snapshot
that the caller's own fetch has made or the one that the store holds. So whoever waited behind a
refresh and gets the lock within the debounce window after it landed is answered with the snapshot of
that refresh, or with that of a renewal which has landed since. -/
theorem followers_share_snapshot (config : Config) (start : Nat)
    (outcome : Except Error Credential) (inputs : List (Nat × Input))
    (unwritten : ∀ timed ∈ inputs, ∀ landed, timed.2 ≠ .write landed) :
    let founded := create config start outcome
    let b := founded.after inputs
    (produced outcome (founded.landings inputs)).getLast? = some b.store.current ∧
      (∀ c, b.store.current.outcome = .ok c → b.current = .ok c) ∧
      (∀ error, b.store.current.outcome = .error error → b.current = .error (.unavailable error)) ∧
      (∀ now input, b.landsRefresh input = true →
        (b.step now input).next = .answer (b.step now input).broker.store.current) ∧
      (∀ now input snapshot, b.landing? input = none →
        (b.step now input).next = .answer snapshot → snapshot = b.store.current) ∧
      ∀ earlier s landing between t id, inputs = earlier ++ (s, landing) :: between →
        (founded.after earlier).landsRefresh landing = true →
        (s :: between.map Prod.fst ++ [t]).Pairwise (· ≤ ·) →
        t < s + config.debounceWindow.nanos → b.lock = none →
        b.phase (.caller id) = .queued →
        (b.step t (.acquire (.caller id))).next =
          .answer (((founded.after (earlier ++ [(s, landing)])).lastRenewal? between).getD
            (founded.after (earlier ++ [(s, landing)])).store.current) := by
  intro founded b
  have orderly : ∀ inputs, (founded.after inputs).Orderly :=
    (orderly_create config start outcome).after
  refine ⟨?_, ?_, ?_, ?_, ?_, ?_⟩
  · rw [show b.store = _ from store_after founded unwritten]
    exact (foldl_write outcome _).2
  · intro c found
    rw [Broker.current, Store.answer, Snapshot.answer, found]
    rfl
  · intro error found
    rw [Broker.current, Store.answer, Snapshot.answer, found]
    rfl
  · exact fun now input lands => landed_answer lands
  · exact fun now input snapshot landing answered =>
      (step_moves b now input).answered landing answered
  · intro earlier s landing between t id split lands times early free queued
    have whole : b = ((founded.after earlier).step s landing).broker.after between := by
      simp only [b, split, after_append, after_cons]
    have config_then : (founded.after earlier).config = config := config_after founded earlier
    have rest : ∀ timed ∈ between, ∀ landed, timed.2 ≠ .write landed := fun timed member =>
      unwritten timed (by simp [split, member])
    rw [whole] at free queued ⊢
    rw [after_append, after_cons, after_nil]
    exact follower_answered (orderly earlier) lands rest times (config_then.symm ▸ early) free queued

/-- With a fallback of no length a renewal fetches as soon as it may, here between the leader and
the one that waits behind it. -/
theorem follower_gets_renewal :
    let landing : Input := .land (.caller 1) (.ok (sample "second"))
    let earlier : List (Nat × Input) := [(0, .force 1), (0, .force 2)]
    let between : List (Nat × Input) :=
      [(1000000, .rearm), (1000000, .timer), (1000000, .acquire (.caller 2)),
        (2000000, .land .renewal (.ok (sample "third")))]
    let inputs := earlier ++ (1000000, landing) :: between
    let config : Config := { Config.default with fallbackInterval := .zero }
    let founded := create config 0 (.ok (sample "first"))
    let b := founded.after inputs
    (∀ timed ∈ inputs, ∀ landed, timed.2 ≠ .write landed) ∧
      (founded.after earlier).landsRefresh landing = true ∧ b.lock = none ∧
      b.phase (.caller 2) = .queued ∧
      ((founded.after earlier).step 1000000 landing).next =
        .answer ⟨1, .ok (sample "second")⟩ ∧
      (b.step 2000000 (.acquire (.caller 2))).next = .answer ⟨2, .ok (sample "third")⟩ := by
  intro landing earlier between inputs config founded b
  have unwritten : ∀ timed ∈ inputs, ∀ landed, timed.2 ≠ .write landed := by
    simp [inputs, earlier, between, landing]
  obtain ⟨_, _, _, _, _, follower⟩ :=
    followers_share_snapshot config 0 (.ok (sample "first")) inputs unwritten
  have lands : (founded.after earlier).landsRefresh landing = true := by
    decide +kernel
  have free : b.lock = none := by
    decide +kernel
  have queued : b.phase (.caller 2) = .queued := by
    decide +kernel
  have late : (founded.after (earlier ++ [(1000000, landing)])).lastRenewal? between =
      some ⟨2, .ok (sample "third")⟩ := by
    simp only [founded, config, earlier, between]
    cbv
  have answered := follower earlier 1000000 landing between 2000000 2 rfl lands
    (by decide) (by decide) free queued
  rw [late] at answered
  exact ⟨unwritten, lands, free, queued, rfl, answered⟩

/-- Without a debounce window the one that waits behind a refresh fetches in its turn, and is
answered with another snapshot than the leader. No renewal lands in between. -/
theorem follower_fetches_again :
    let founded :=
      create (Config.default.withDebounceWindow .zero) 0 (.ok (sample "first"))
    let landing : Input := .land (.caller 1) (.ok (sample "second"))
    let b := founded.after [(0, .force 1), (0, .force 2)]
    let led := founded.after [(0, .force 1), (0, .force 2), (1000000, landing)]
    let again := led.after [(1000000, .acquire (.caller 2))]
    b.phase (.caller 2) = .queued ∧
      (b.step 1000000 landing).next = .answer ⟨1, .ok (sample "second")⟩ ∧
      led.lock = none ∧ led.lastRenewal? [(1000000, .acquire (.caller 2))] = none ∧
      (again.step 2000000 (.land (.caller 2) (.ok (sample "third")))).next =
        .answer ⟨2, .ok (sample "third")⟩ :=
  ⟨rfl, rfl, rfl, rfl, rfl⟩

end Bearer.Broker

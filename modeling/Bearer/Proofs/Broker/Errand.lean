import Bearer.Proofs.Broker.Acts

/-!
What a caller asked for makes no difference once it tries for the lock. A caller that fell through
its looks at the store goes from there on as one that asks for a refresh: every party is told the
same, and the brokers differ in nothing but the caller's errand and the count of those who fell
through.
-/
namespace Bearer.Broker

/-- The caller `id`, if this is the one, as one that resolves. -/
def Caller.sent (id : Nat) (failed : String) (caller : Caller) : Caller :=
  { caller with origin := if caller.id = id then .resolving failed else caller.origin }

/-- The same broker, had caller `id` fallen through its looks before it came to refresh. -/
def fallen (b : Broker) (id : Nat) (failed : String) : Broker :=
  { b with
    counters := b.counters.fallThrough
    callers := b.callers.map (Caller.sent id failed) }

/-- What comes of a step of the broker had caller `id` fallen through, beside what comes of it
without. -/
structure Ran.Follows (id : Nat) (failed : String) (ran other : Ran) : Prop where
  broker : ran.broker = other.broker.fallen id failed
  next : ran.next = other.next
  woken : ran.woken = other.woken

section Follows

variable {id : Nat} {failed : String} {ran other : Ran}

theorem Ran.Follows.after (follows : Ran.Follows id failed ran other)
    (said heard : List Observation) :
    Ran.Follows id failed (ran.after said) (other.after heard) :=
  ⟨follows.broker, follows.next, follows.woken⟩

theorem Ran.Follows.waking (follows : Ran.Follows id failed ran other) (woken : List Party) :
    Ran.Follows id failed (ran.waking woken) (other.waking woken) :=
  ⟨follows.broker, follows.next, congrArg (woken ++ ·) follows.woken⟩

end Follows

section Steps

variable (b : Broker) (now id other : Nat) (failed : String) (origin : Origin)

/-- The errand of a caller, had `id` fallen through. -/
def Origin.sent (origin : Origin) (id : Nat) (failed : String) (other : Nat) : Origin :=
  if other = id then .resolving failed else origin

theorem Origin.sent_others {other id : Nat} (differs : other ≠ id) :
    origin.sent id failed other = origin :=
  if_neg differs

theorem caller?_fallen :
    (b.fallen id failed).caller? other = (b.caller? other).map (Caller.sent id failed) := by
  simp only [caller?, fallen, List.find?_map]
  rfl

theorem phase_fallen : (b.fallen id failed).phase = b.phase := by
  funext party
  cases party with
  | renewal => rfl
  | caller other =>
      simp only [phase, caller?_fallen]
      cases b.caller? other <;> rfl

theorem place_fallen (caller : Caller) :
    (b.fallen id failed).place (caller.sent id failed) = (b.place caller).fallen id failed := by
  simp only [place, fallen, List.map_cons, List.filter_map]
  rfl

theorem dismiss_fallen :
    (b.fallen id failed).dismiss other = (b.dismiss other).fallen id failed := by
  simp only [dismiss, fallen, List.filter_map]
  rfl

theorem notify_fallen :
    (b.fallen id failed).notify = (b.notify.1.fallen id failed, b.notify.2) := by
  obtain ⟨config, store, counters, published, version, last, lock, queue, notified, callers,
    renewal, handles⟩ := b
  cases queue <;> cases notified <;> rfl

theorem unlock_fallen :
    (b.fallen id failed).unlock = (b.unlock.1.fallen id failed, b.unlock.2) :=
  notify_fallen { b with lock := none } id failed

theorem follows_answer (snapshot : Snapshot) :
    Ran.Follows id failed ((b.fallen id failed).answer other (origin.sent id failed other) snapshot)
      (b.answer other origin snapshot) :=
  ⟨dismiss_fallen b id other failed, rfl, rfl⟩

theorem follows_refresh :
    Ran.Follows id failed ((b.fallen id failed).refresh now other (origin.sent id failed other))
      (b.refresh now other origin) := by
  have same : (b.fallen id failed).debounced? now = b.debounced? now := rfl
  have counted : (b.fallen id failed).countBy .debouncedRefresh =
      (b.countBy .debouncedRefresh).fallen id failed := rfl
  simp only [refresh, same, counted, unlock_fallen]
  cases b.debounced? now with
  | some since => exact ((follows_answer _ id other failed origin _).after _ _).waking _
  | none =>
      have placed := place_fallen b id failed ⟨other, origin, .fetching⟩
      exact ⟨congrArg (fun c : Broker =>
        { c with lock := some (.caller other), counters := b.counters.fallThrough.fetch }) placed,
        rfl, rfl⟩

theorem follows_contend :
    Ran.Follows id failed ((b.fallen id failed).contend now other (origin.sent id failed other))
      (b.contend now other origin) := by
  have same : (b.fallen id failed).lock = b.lock := rfl
  simp only [contend, same]
  cases b.lock with
  | none => exact follows_refresh b now id other failed origin
  | some holder =>
      have placed := place_fallen b id failed ⟨other, origin, .queued⟩
      exact ⟨congrArg (fun c : Broker => c.enqueue (.caller other)) placed, rfl, rfl⟩

theorem follows_look (wanted : String) (polls left : Nat) (differs : other ≠ id) :
    Ran.Follows id failed ((b.fallen id failed).look now other wanted polls left)
      (b.look now other wanted polls left) := by
  have keeps := fun origin => Origin.sent_others failed origin differs
  have same : (b.fallen id failed).other? wanted = b.other? wanted := rfl
  simp only [look, same]
  cases b.other? wanted with
  | some snapshot =>
      have answered := follows_answer (b.countBy .pollHit) id other failed (.resolving wanted)
        snapshot
      rw [keeps] at answered
      exact answered
  | none =>
      by_cases more : 1 < left
      · simp only [more, if_true]
        have placed := place_fallen b id failed ⟨other, .resolving wanted,
          .pausing polls (left - 1) (now + b.config.pollInterval.nanos)⟩
        simp only [Caller.sent, differs, if_false] at placed
        exact ⟨placed, rfl, rfl⟩
      · simp only [more, if_false]
        have contended := follows_contend ((b.countBy .fallThrough).countBy .forcedRefresh) now id
          other failed (.resolving wanted)
        rw [keeps] at contended
        exact contended.after _ _

theorem follows_renew (seen : Nat) :
    Ran.Follows id failed ((b.fallen id failed).renew now seen) (b.renew now seen) := by
  have same : (b.fallen id failed).version = b.version := rfl
  simp only [renew, same, unlock_fallen]
  by_cases current : b.version = seen
  · simp only [current, if_true]
    exact ⟨rfl, rfl, rfl⟩
  · simp only [current, if_false]
    exact ⟨rfl, rfl, rfl⟩

theorem follows_contendRenewal (seen : Nat) :
    Ran.Follows id failed ((b.fallen id failed).contendRenewal now seen)
      (b.contendRenewal now seen) := by
  have same : (b.fallen id failed).lock = b.lock := rfl
  simp only [contendRenewal, same]
  cases b.lock with
  | none => exact follows_renew b now id failed seen
  | some holder => exact ⟨rfl, rfl, rfl⟩

theorem follows_landRefresh (outcome : Except Error Credential) :
    Ran.Follows id failed
      ((b.fallen id failed).landRefresh now other (origin.sent id failed other) outcome)
      (b.landRefresh now other origin outcome) := by
  let stored : Broker := { b with store := b.store.write outcome, lastRefresh := some now }
  let told := stored.publish (b.config.nextInterval outcome)
  have unlocked := unlock_fallen told.1 id failed
  have answered := follows_answer told.1.unlock.1 id other failed origin
    told.1.unlock.1.store.current
  have landed : (b.fallen id failed).landRefresh now other (origin.sent id failed other) outcome =
      ((told.1.fallen id failed).unlock.1.answer other (origin.sent id failed other)
        (told.1.fallen id failed).unlock.1.store.current).waking
          (told.2 ++ (told.1.fallen id failed).unlock.2) := rfl
  rw [landed, unlocked]
  exact answered.waking _

theorem follows_landRenewal (seen : Nat) (outcome : Except Error Credential) :
    Ran.Follows id failed ((b.fallen id failed).landRenewal now seen outcome)
      (b.landRenewal now seen outcome) := by
  let rearmed := fun unlocked : Broker × List Party =>
    ((unlocked.1.arm (now + (unlocked.1.config.nextInterval outcome).nanos) seen).after
      (reported unlocked.1.config outcome ++ [.counted .renewal (.of outcome)])).waking unlocked.2
  have behind : ∀ stored : Broker,
      Ran.Follows id failed (rearmed (stored.fallen id failed).unlock) (rearmed stored.unlock) := by
    intro stored
    rw [unlock_fallen]
    exact ⟨rfl, rfl, rfl⟩
  let stored : Broker := { b with store := b.store.write outcome }
  cases outcome with
  | ok credential => exact behind stored
  | error error => exact behind (stored.countBy .renewalFailure)

theorem follows_leave (party : Party) :
    Ran.Follows id failed ((b.fallen id failed).leave party) (b.leave party) := by
  have unlocked := unlock_fallen b id failed
  have notified := notify_fallen (b.dequeue party) id failed
  have lock : (b.fallen id failed).lock = b.lock := rfl
  have queue : (b.fallen id failed).queue = b.queue := rfl
  have told : (b.fallen id failed).notified = b.notified := rfl
  have out : (b.fallen id failed).dequeue party = (b.dequeue party).fallen id failed := rfl
  simp only [leave, lock, queue, told, out, unlocked, notified]
  split
  · exact ⟨rfl, rfl, rfl⟩
  · split
    · exact ⟨rfl, rfl, rfl⟩
    · exact ⟨rfl, rfl, rfl⟩

end Steps

section Runs

variable {b : Broker} {now id : Nat} {failed : String} {input : Input}

theorem sent_others {caller : Caller} {other : Nat} (differs : other ≠ id)
    (found : b.caller? other = some caller) : (b.fallen id failed).caller? other = some caller := by
  have same : caller.sent id failed = caller := by
    obtain ⟨number, origin, wait⟩ := caller
    cases caller?_id found
    simp [Caller.sent, differs]
  rw [caller?_fallen, found, Option.map_some, same]

theorem pausing_fallen (unrested : b.phase (.caller id) ≠ .resting) {wanted : String}
    {polls left due other : Nat} :
    (b.fallen id failed).caller? other = some ⟨other, .resolving wanted, .pausing polls left due⟩ ↔
      b.caller? other = some ⟨other, .resolving wanted, .pausing polls left due⟩ := by
  by_cases own : other = id
  · subst own
    constructor
    · intro found
      exact absurd (phase_fallen b other failed ▸ phase_caller found) unrested
    · intro found
      exact absurd (phase_caller found) unrested
  · constructor
    · intro found
      rw [caller?_fallen, Option.map_eq_some_iff] at found
      obtain ⟨caller, found, sent⟩ := found
      have same : (b.fallen id failed).caller? other = some caller := sent_others own found
      rw [caller?_fallen, found, Option.map_some, sent] at same
      rw [found, ← Option.some.inj same]
    · exact sent_others own

theorem fits_fallen (unrested : b.phase (.caller id) ≠ .resting) :
    (b.fallen id failed).Fits now input ↔ b.Fits now input := by
  cases input with
  | force other | resolve other _ _ | cancel other => simp [Fits, caller?_fallen]
  | poll other => simp only [Fits, pausing_fallen unrested]
  | acquire party | land party _ => simp only [Fits, phase_fallen]
  | timer | rearm => exact Iff.rfl
  | clone | drop | write _ => exact Iff.rfl

theorem Moves.follows {ran : Ran} (moves : b.Moves now input ran)
    (unrested : b.phase (.caller id) ≠ .resting) (kept : input.keeps id = true) :
    Ran.Follows id failed ((b.fallen id failed).step now input) ran := by
  cases moves with
  | idle input misfit =>
      -- What does not fit one of the two states does not fit the other.
      rw [step_idle fun fits => misfit ((fits_fallen unrested).mp fits)]
      exact ⟨rfl, rfl, rfl⟩
  | force other absent =>
      have differs : other ≠ id := by simpa [Input.keeps] using kept
      have contended := follows_contend (b.countBy .forcedRefresh) now id other failed .forced
      rw [Origin.sent_others failed _ differs] at contended
      simp only [step, caller?_fallen, absent, Option.map_none]
      exact contended.after _ _
  | resolve other wanted polls absent =>
      have differs : other ≠ id := by simpa [Input.keeps] using kept
      simp only [step, caller?_fallen, absent, Option.map_none]
      exact (follows_look b now id other failed wanted polls polls differs).after _ _
  | poll other wanted polls left due found ripe =>
      have differs : other ≠ id := by
        rintro rfl
        exact unrested (phase_caller found)
      simp only [step, (pausing_fallen unrested).mpr found, ripe, if_true]
      exact follows_look b now id other failed wanted polls left differs
  | timer deadline seen found ripe =>
      have renewal : (b.fallen id failed).renewal = .armed deadline seen := found
      simp only [step, renewal, ripe, if_true]
      exact follows_contendRenewal b now id failed seen
  | rearm deadline seen found stale =>
      have renewal : (b.fallen id failed).renewal = .armed deadline seen := found
      have version : (b.fallen id failed).version ≠ seen := stale
      simp only [step, renewal, version, if_false]
      exact ⟨rfl, rfl, rfl⟩
  | acquire other origin found =>
      simp only [step, acquireCaller, caller?_fallen, found, Option.map_some]
      exact follows_contend (b.dequeue (.caller other)) now id other failed origin
  | acquireRenewal seen found =>
      have renewal : (b.fallen id failed).renewal = .queued seen := found
      simp only [step, Broker.acquireRenewal, renewal]
      exact follows_contendRenewal (b.dequeue .renewal) now id failed seen
  | land other origin outcome found =>
      simp only [step, caller?_fallen, found, Option.map_some]
      exact follows_landRefresh b now id other failed origin outcome
  | landRenewal seen outcome found =>
      have renewal : (b.fallen id failed).renewal = .fetching seen := found
      simp only [step, renewal]
      exact follows_landRenewal b now id failed seen outcome
  | cancel other caller found =>
      simp only [step, caller?_fallen, found, Option.map_some, dismiss_fallen]
      exact follows_leave (b.dismiss other) id failed (.caller other)
  | clone => exact ⟨rfl, rfl, rfl⟩
  | drop others =>
      have handles : (b.fallen id failed).handles ≠ 1 := others
      simp only [step, dropHandle, handles, if_false]
      exact ⟨rfl, rfl, rfl⟩
  | dropLast last =>
      have handles : (b.fallen id failed).handles = 1 := last
      simp only [step, dropHandle, handles, if_true]
      exact follows_leave { b with handles := 0, renewal := .stopped } id failed .renewal
  | write outcome => exact ⟨rfl, rfl, rfl⟩

theorem act?_fallen (unrested : b.phase (.caller id) ≠ .resting) (kept : input.keeps id = true) :
    ((b.fallen id failed).act? now id input).map Act.told = (b.act? now id input).map Act.told := by
  have follows : Ran.Follows id failed _ _ := (step_moves b now input).follows unrested kept
  simp only [act?, follows.next]
  split
  · simp [Act.told, follows.next]
  · rfl

/-- A caller that has fallen through its looks goes on as one that was sent to refresh, whatever the
others do. -/
theorem run_fallen (failed : String) {inputs : List (Nat × Input)}
    (unrested : b.phase (.caller id) ≠ .resting) (kept : keptIn id inputs = true) :
    ((b.fallen id failed).acts id inputs).map Act.told = (b.acts id inputs).map Act.told ∧
      (b.fallen id failed).after inputs = (b.after inputs).fallen id failed := by
  induction inputs generalizing b with
  | nil => exact ⟨rfl, rfl⟩
  | cons timed rest ih =>
      obtain ⟨now, input⟩ := timed
      obtain ⟨keeps, kept⟩ := keptIn_cons.mp kept
      have follows : Ran.Follows id failed _ _ := (step_moves b now input).follows unrested keeps
      have first : ((b.fallen id failed).act? now id input).map Act.told =
          (b.act? now id input).map Act.told := act?_fallen unrested keeps
      obtain ⟨told, after⟩ := ih (unrested_step unrested keeps now) kept
      constructor
      · simp only [acts, List.map_append, ← Option.toList_map, first, follows.broker, told]
      · simp only [after_cons, follows.broker, after]

end Runs

end Bearer.Broker

import Bearer.Proofs.Broker.Moves

/-!
The lock of a broker. Who holds it is fetching and who fetches holds it; who waits for it stands in
its queue once; and a free lock for which somebody waits has told the first in the queue to try.
These facts hold after every sequence of inputs.
-/
namespace Bearer.Broker

/-- The lock and its queue agree with what the parties do. -/
structure Orderly (b : Broker) : Prop where
  holds : ∀ party, b.phase party = .fetching ↔ b.lock = some party
  waits : ∀ party, b.phase party = .queued ↔ party ∈ b.queue
  once : b.queue.Nodup
  heard : b.notified = true → b.queue ≠ []
  told : b.lock = none → b.queue ≠ [] → b.notified = true

/-- The same while one party is between two states of its own. -/
structure OrderlyBut (b : Broker) (party : Party) : Prop where
  holds : ∀ other, other ≠ party → (b.phase other = .fetching ↔ b.lock = some other)
  waits : ∀ other, other ≠ party → (b.phase other = .queued ↔ other ∈ b.queue)
  once : b.queue.Nodup
  heard : b.notified = true → b.queue ≠ []

theorem Orderly.but {b : Broker} (h : b.Orderly) (party : Party) : b.OrderlyBut party :=
  ⟨fun other _ => h.holds other, fun other _ => h.waits other, h.once, h.heard⟩

theorem OrderlyBut.join {b : Broker} {party : Party} (h : b.OrderlyBut party)
    (holds : b.phase party = .fetching ↔ b.lock = some party)
    (waits : b.phase party = .queued ↔ party ∈ b.queue)
    (told : b.lock = none → b.queue ≠ [] → b.notified = true) : b.Orderly where
  holds other := by
    by_cases ho : other = party
    · rwa [ho]
    · exact h.holds other ho
  waits other := by
    by_cases ho : other = party
    · rwa [ho]
    · exact h.waits other ho
  once := h.once
  heard := h.heard
  told := told

section Moves

variable {b c : Broker} {party : Party}

theorem OrderlyBut.grant (h : b.OrderlyBut party) (out : party ∉ b.queue) (free : b.lock = none)
    (phase : ∀ other, c.phase other = if other = party then .fetching else b.phase other)
    (lock : c.lock = some party) (queue : c.queue = b.queue)
    (notified : c.notified = b.notified) : c.Orderly where
  holds other := by
    by_cases ho : other = party
    · simp [phase, ho, lock]
    · simp [phase, ho, lock, h.holds other ho, free, Ne.symm ho]
  waits other := by
    by_cases ho : other = party
    · simp [phase, ho, queue, out]
    · simp [phase, ho, queue, h.waits other ho]
  once := queue ▸ h.once
  heard hn := queue ▸ h.heard (notified ▸ hn)
  told hl := by simp [lock] at hl

theorem OrderlyBut.lineUp (h : b.OrderlyBut party) (out : party ∉ b.queue)
    (taken : b.lock ≠ none) (other : b.lock ≠ some party)
    (phase : ∀ other, c.phase other = if other = party then .queued else b.phase other)
    (lock : c.lock = b.lock) (queue : c.queue = b.queue ++ [party]) : c.Orderly where
  holds q := by
    by_cases hq : q = party
    · simp [phase, hq, lock, other]
    · simp [phase, hq, lock, h.holds q hq]
  waits q := by
    by_cases hq : q = party
    · simp [phase, hq, queue]
    · simp [phase, hq, queue, h.waits q hq]
  once := by
    rw [queue]
    refine List.nodup_append.mpr ⟨h.once, by simp, fun q hq last hlast same => out ?_⟩
    rwa [← List.mem_singleton.mp hlast, ← same]
  heard _ := by simp [queue]
  told hl := absurd (lock ▸ hl) taken

/-- A party gives up the lock, or leaves it free, and the queue is told. -/
theorem OrderlyBut.release (h : b.OrderlyBut party) (out : party ∉ b.queue)
    (owner : ∀ other, b.lock = some other → other = party)
    (phase : ∀ other, other ≠ party → c.phase other = b.phase other)
    (queued : c.phase party ≠ .queued) (fetching : c.phase party ≠ .fetching)
    (lock : c.lock = none) (queue : c.queue = b.queue)
    (notified : c.notified = (b.notified || !b.queue.isEmpty)) : c.Orderly where
  holds q := by
    by_cases hq : q = party
    · simp [hq, lock, fetching]
    · simp only [phase q hq, lock, h.holds q hq, reduceCtorEq, iff_false]
      exact fun held => hq (owner q held)
  waits q := by
    by_cases hq : q = party
    · simp [hq, queue, out, queued]
    · simp [phase q hq, queue, h.waits q hq]
  once := queue ▸ h.once
  heard hn := by
    rw [queue]
    rw [notified, Bool.or_eq_true] at hn
    cases hn with
    | inl hb => exact h.heard hb
    | inr hq => simpa using hq
  told _ hq := by
    rw [queue] at hq
    simp [notified, hq]

/-- A party that neither waits for the lock nor holds it does something else. -/
theorem Orderly.rest (h : b.Orderly)
    (wasQueued : b.phase party ≠ .queued) (wasFetching : b.phase party ≠ .fetching)
    (phase : ∀ other, other ≠ party → c.phase other = b.phase other)
    (queued : c.phase party ≠ .queued) (fetching : c.phase party ≠ .fetching)
    (lock : c.lock = b.lock) (queue : c.queue = b.queue)
    (notified : c.notified = b.notified) : c.Orderly where
  holds q := by
    by_cases hq : q = party
    · have free := mt (h.holds party).mpr wasFetching
      simp [hq, lock, fetching, free]
    · rw [phase q hq, lock, h.holds q]
  waits q := by
    by_cases hq : q = party
    · have out := mt (h.waits party).mpr wasQueued
      simp [hq, queue, queued, out]
    · rw [phase q hq, queue, h.waits q]
  once := queue ▸ h.once
  heard hn := queue ▸ h.heard (notified ▸ hn)
  told hl hq := notified ▸ h.told (lock ▸ hl) (queue ▸ hq)

end Moves

section Steps

variable {b : Broker} {now id : Nat} {origin : Origin}

theorem OrderlyBut.refresh (h : b.OrderlyBut (.caller id)) (out : .caller id ∉ b.queue)
    (free : b.lock = none) : (b.refresh now id origin).broker.Orderly := by
  rw [Broker.refresh]
  split
  · apply h.release (c := (b.countBy .debouncedRefresh).unlock.1.dismiss id) out
    · simp [free]
    · intro other ho
      simp [ho]
    · simp
    · simp
    all_goals simp only [dismiss, unlock_fst, countBy]
  · apply h.grant out free
    · intro other
      exact phase_place b ⟨id, origin, .fetching⟩ other
    all_goals rfl

theorem OrderlyBut.contend (h : b.OrderlyBut (.caller id)) (out : .caller id ∉ b.queue)
    (other : b.lock ≠ some (.caller id)) : (b.contend now id origin).broker.Orderly := by
  simp only [Broker.contend]
  split
  · next free => exact h.refresh out free
  · next holder taken =>
      apply h.lineUp out (by simp [taken]) other
      · intro party
        exact phase_place b ⟨id, origin, .queued⟩ party
      all_goals rfl

theorem Orderly.look (h : b.Orderly) (failed : String) (polls left : Nat)
    (queued : b.phase (.caller id) ≠ .queued) (fetching : b.phase (.caller id) ≠ .fetching) :
    (b.look now id failed polls left).broker.Orderly := by
  have out := mt (h.waits (.caller id)).mpr queued
  have other := mt (h.holds (.caller id)).mpr fetching
  simp only [Broker.look]
  split
  · apply h.rest (c := (b.countBy .pollHit).dismiss id) queued fetching
    · intro party hp
      simp [hp]
    · simp
    · simp
    all_goals rfl
  · split
    · apply h.rest queued fetching
      · intro party hp
        exact (phase_place ..).trans (if_neg hp)
      · simp [Wait.phase]
      · simp [Wait.phase]
      all_goals rfl
    · have counted : ((b.countBy .fallThrough).countBy .forcedRefresh).OrderlyBut (.caller id) :=
        ⟨(h.but _).holds, (h.but _).waits, h.once, h.heard⟩
      exact counted.contend out other

theorem OrderlyBut.renew (h : b.OrderlyBut .renewal) (out : .renewal ∉ b.queue)
    (free : b.lock = none) (seen : Nat) : (b.renew now seen).broker.Orderly := by
  simp only [Broker.renew]
  split
  · apply h.grant out free
    · intro other
      exact phase_setRenewal b (.fetching seen) other
    all_goals rfl
  · apply h.release (c := (b.unlock.1.reschedule now).broker) out
    · simp [free]
    · intro other ho
      simp [reschedule, arm, ho]
    · simp [reschedule, arm, Renewal.phase]
    · simp [reschedule, arm, Renewal.phase]
    all_goals simp only [reschedule, arm, unlock_fst]

theorem OrderlyBut.contendRenewal (h : b.OrderlyBut .renewal) (out : .renewal ∉ b.queue)
    (other : b.lock ≠ some .renewal) (seen : Nat) :
    (b.contendRenewal now seen).broker.Orderly := by
  simp only [Broker.contendRenewal]
  split
  · next free => exact h.renew out free seen
  · next holder taken =>
      apply h.lineUp out (by simp [taken]) other
      · intro party
        exact phase_setRenewal b (.queued seen) party
      all_goals rfl

theorem Orderly.landRefresh (h : b.Orderly) (outcome : Except Error Credential)
    (fetching : b.phase (.caller id) = .fetching) :
    (b.landRefresh now id origin outcome).broker.Orderly := by
  have held := (h.holds (.caller id)).mp fetching
  have out : .caller id ∉ b.queue := by
    simp [← h.waits, fetching]
  apply (h.but (.caller id)).release out
  · simp [held]
  · intro other ho
    simp only [Broker.landRefresh, Ran.waking_broker, answer, phase_dismiss, if_neg ho,
      phase_unlock, phase_publish]
    exact congrFun (phase_congr rfl rfl) other
  · simp [Broker.landRefresh, answer]
  · simp [Broker.landRefresh, answer]
  all_goals simp only [Broker.landRefresh, Ran.waking_broker, answer, dismiss, unlock_fst, publish]

theorem Orderly.landRenewal (h : b.Orderly) (seen : Nat) (outcome : Except Error Credential)
    (fetching : b.phase .renewal = .fetching) :
    (b.landRenewal now seen outcome).broker.Orderly := by
  have held := (h.holds .renewal).mp fetching
  have out : .renewal ∉ b.queue := by
    simp [← h.waits, fetching]
  apply (h.but .renewal).release out
  · simp [held]
  · intro other ho
    simp only [Broker.landRenewal, Ran.waking_broker, Ran.after_broker, arm, phase_setRenewal,
      if_neg ho, phase_unlock]
    cases outcome <;> exact congrFun (phase_congr rfl rfl) other
  · simp [Broker.landRenewal, arm, Renewal.phase]
  · simp [Broker.landRenewal, arm, Renewal.phase]
  all_goals
    cases outcome <;>
      simp only [Broker.landRenewal, Ran.waking_broker, Ran.after_broker, arm, unlock_fst, countBy]

theorem OrderlyBut.dequeue {party : Party} (h : b.OrderlyBut party) :
    (b.dequeue party).OrderlyBut party where
  holds := h.holds
  waits other ho := by
    rw [phase_dequeue, h.waits other ho]
    exact (List.mem_erase_of_ne ho).symm
  once := h.once.erase party
  heard hn := by
    simp only [Broker.dequeue, Bool.and_eq_true, bne_iff_ne] at hn ⊢
    obtain ⟨first, rest, hq⟩ := List.exists_cons_of_ne_nil (h.heard hn.1)
    have ahead : first ≠ party := by
      simpa [hq] using hn.2
    simp [hq, ahead]

theorem not_mem_dequeue {party : Party} (once : b.queue.Nodup) :
    party ∉ (b.dequeue party).queue :=
  once.not_mem_erase

/-- A party that is gone leaves nothing behind: the lock is free again or the next is told. -/
theorem OrderlyBut.leave {party : Party} (h : b.OrderlyBut party)
    (gone : b.phase party = .away) (alone : b.lock = some party → party ∉ b.queue)
    (told : b.lock = none → b.queue ≠ [] → b.notified = true) :
    (b.leave party).broker.Orderly := by
  simp only [Broker.leave]
  by_cases held : b.lock = some party
  · simp only [held, if_true]
    apply h.release (alone held)
    · simp [held]
    · simp
    · simp [gone]
    · simp [gone]
    all_goals simp only [unlock_fst]
  · have out : party ∉ (b.dequeue party).queue := not_mem_dequeue h.once
    simp only [held, if_false]
    by_cases first : (b.notified && b.queue.head? = some party) = true
    · simp only [first, if_true]
      have passed : (b.dequeue party).notify.1.OrderlyBut party := by
        have d := h.dequeue
        rw [notify_fst]
        refine ⟨d.holds, d.waits, d.once, fun hn => ?_⟩
        cases Bool.or_eq_true _ _ ▸ hn with
        | inl hb => exact d.heard hb
        | inr hq => simpa using hq
      apply passed.join
      · simpa [gone] using held
      · simpa [gone] using out
      · intro _ hq
        rw [notify_fst] at hq ⊢
        simp [hq]
    · simp only [first]
      apply h.dequeue.join
      · simpa [gone] using held
      · simpa [gone] using out
      · intro hl hq
        have waiting : b.queue ≠ [] := by
          intro empty
          simp [Broker.dequeue, empty] at hq
        have hn := told hl waiting
        simpa [Broker.dequeue, hn] using first

theorem Orderly.dropLast (h : b.Orderly) :
    (({ b with handles := 0, renewal := .stopped } : Broker).leave .renewal).broker.Orderly := by
  have stopped : ({ b with handles := 0, renewal := .stopped } : Broker).OrderlyBut .renewal := by
    refine ⟨fun other ho => ?_, fun other ho => ?_, h.once, h.heard⟩
    · rw [← h.holds other]
      cases other <;> simp_all [phase, caller?]
    · rw [← h.waits other]
      cases other <;> simp_all [phase, caller?]
  refine stopped.leave rfl (fun held waiting => ?_) h.told
  have fetching := (h.holds .renewal).mpr held
  rw [(h.waits .renewal).mpr waiting] at fetching
  cases fetching

theorem Orderly.cancel (h : b.Orderly) (id : Nat) :
    ((b.dismiss id).leave (.caller id)).broker.Orderly := by
  have gone : (b.dismiss id).OrderlyBut (.caller id) := by
    refine ⟨fun other ho => ?_, fun other ho => ?_, h.once, h.heard⟩
    · rw [phase_dismiss, if_neg ho]
      exact h.holds other
    · rw [phase_dismiss, if_neg ho]
      exact h.waits other
  refine gone.leave (by simp) (fun held waiting => ?_) h.told
  have fetching := (h.holds (.caller id)).mpr held
  rw [(h.waits (.caller id)).mpr waiting] at fetching
  cases fetching

end Steps

theorem Orderly.moves {b : Broker} {now : Nat} {input : Input} {ran : Ran} (h : b.Orderly)
    (moves : b.Moves now input ran) : ran.broker.Orderly := by
  cases moves with
  | idle input misfit => exact h
  | force id absent =>
      have away := phase_away absent
      have counted : (b.countBy .forcedRefresh).OrderlyBut (.caller id) :=
        ⟨(h.but _).holds, (h.but _).waits, h.once, h.heard⟩
      apply counted.contend
      · exact mt (h.waits _).mpr (by simp [away])
      · exact mt (h.holds _).mpr (by simp [away])
  | resolve id failed polls absent =>
      have away := phase_away absent
      exact h.look failed polls polls (by simp [away]) (by simp [away])
  | poll id failed polls left due found ripe =>
      have resting := phase_caller found
      exact h.look failed polls left (by simp [resting, Wait.phase])
        (by simp [resting, Wait.phase])
  | timer deadline seen found ripe =>
      apply (h.but _).contendRenewal
      · simp [← h.waits, phase, found, Renewal.phase]
      · simp [← h.holds, phase, found, Renewal.phase]
  | rearm deadline seen found stale =>
      apply @Orderly.rest _ _ .renewal h
      · simp [phase, found, Renewal.phase]
      · simp [phase, found, Renewal.phase]
      · intro other ho
        simp [reschedule, arm, ho]
      · simp [reschedule, arm, Renewal.phase]
      · simp [reschedule, arm, Renewal.phase]
      all_goals rfl
  | acquire id origin found =>
      have queued := phase_caller found
      apply (h.but _).dequeue.contend (not_mem_dequeue h.once)
      rw [lock_dequeue, ne_eq, ← h.holds, queued]
      simp [Wait.phase]
  | acquireRenewal seen found =>
      apply (h.but _).dequeue.contendRenewal (not_mem_dequeue h.once)
      rw [lock_dequeue, ne_eq, ← h.holds, phase, found]
      simp [Renewal.phase]
  | land id origin outcome found => exact h.landRefresh outcome (phase_caller found)
  | landRenewal seen outcome found =>
      exact h.landRenewal seen outcome (phase_fetching_renewal.mpr ⟨seen, found⟩)
  | cancel id caller found => exact h.cancel id
  | clone => exact ⟨h.holds, h.waits, h.once, h.heard, h.told⟩
  | drop others => exact ⟨h.holds, h.waits, h.once, h.heard, h.told⟩
  | dropLast last => exact h.dropLast
  | write outcome => exact ⟨h.holds, h.waits, h.once, h.heard, h.told⟩

theorem Orderly.step {b : Broker} (h : b.Orderly) (now : Nat) (input : Input) :
    (b.step now input).broker.Orderly :=
  h.moves (step_moves b now input)

theorem orderly_create (config : Config) (now : Nat) (outcome : Except Error Credential) :
    (create config now outcome).Orderly where
  holds party := by
    cases party <;> simp [phase, caller?, create, Renewal.phase]
  waits party := by
    cases party <;> simp [phase, caller?, create, Renewal.phase]
  once := List.nodup_nil
  heard hn := by simp [create] at hn
  told _ hq := absurd rfl hq

theorem Orderly.after {b : Broker} (h : b.Orderly) (inputs : List (Nat × Input)) :
    (b.after inputs).Orderly :=
  after_induction (fun _ now input hb => hb.step now input) h inputs

end Bearer.Broker

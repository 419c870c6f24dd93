import Bearer.Proofs.Broker.History

/-!
What a caller gets that asks for a credential other than one that failed. A poll serves it only
another credential, and a fetch of its own a new one; but a refresh that is absorbed by an earlier
one serves it whatever the store holds, and that may be the credential that failed.
-/
namespace Bearer.Broker

/-- What the caller asked for that an input lets go on. -/
def asked? (b : Broker) : Input → Option Origin
  | .force _ => some .forced
  | .resolve _ failed _ => some (.resolving failed)
  | .poll id | .acquire (.caller id) | .land (.caller id) _ => (b.caller? id).map (·.origin)
  | _ => none

def Holds (b : Broker) (value : String) : Prop :=
  ∃ c, b.store.current.outcome = .ok c ∧ c.value = value

def Mints (b : Broker) (input : Input) (value : String) : Prop :=
  ∃ c, b.landing? input = some (.ok c) ∧ c.value = value

/-- A refresh that was asked for after polling is absorbed by one that landed within the debounce
window. -/
def Absorbs (b : Broker) (now : Nat) (input : Input) : Prop :=
  ∃ since, b.debounced? now = some since ∧
    .emitted (.refreshDebounced (since / 1000000)) (some .resolveNew) ∈ (b.step now input).observed

/-- The values of the credentials that land from the foundation of a broker on. -/
def minted (config : Config) (start : Nat) (outcome : Except Error Credential)
    (inputs : List (Nat × Input)) : List String :=
  (outcome :: (create config start outcome).landings inputs).filterMap
    fun landed => landed.toOption.map Credential.value

/-- The ways in which a caller that wants another credential is served. -/
inductive Served (b : Broker) (now : Nat) (input : Input) (failed : String) (ran : Ran) :
    Snapshot → Prop where
  | hit (c : Credential) (found : b.store.current.outcome = .ok c) (differs : c.value ≠ failed)
      (landing : b.landing? input = none) : Served b now input failed ran b.store.current
  | absorbed (since : Nat) (recent : b.debounced? now = some since)
      (said : .emitted (.refreshDebounced (since / 1000000)) (some .resolveNew) ∈ ran.observed)
      (landing : b.landing? input = none) : Served b now input failed ran b.store.current
  | fetched (snapshot : Snapshot) (landing : b.landing? input = some snapshot.outcome)
      (silent : ∀ since, .emitted (.refreshDebounced since) (some .resolveNew) ∉ ran.observed) :
      Served b now input failed ran snapshot

theorem contend_served {b : Broker} {now id : Nat} {origin : Origin} {snapshot : Snapshot}
    (answered : (b.contend now id origin).next = .answer snapshot) :
    snapshot = b.store.current ∧
      ∃ since, b.debounced? now = some since ∧
        .emitted (.refreshDebounced (since / 1000000)) (some origin.span) ∈
          (b.contend now id origin).observed := by
  rw [contend] at answered ⊢
  cases lock : b.lock with
  | some holder => simp [lock] at answered
  | none =>
      simp only [lock, refresh] at answered ⊢
      cases recent : b.debounced? now with
      | none => simp [recent] at answered
      | some since =>
          simp only [recent] at answered ⊢
          refine ⟨?_, since, rfl, by simp [Ran.waking, Ran.after]⟩
          simpa [answer, unlock_fst, countBy, eq_comm] using answered

theorem look_served {b : Broker} {now id polls left : Nat} {failed : String} {input : Input}
    {snapshot : Snapshot} (landing : b.landing? input = none)
    (answered : (b.look now id failed polls left).next = .answer snapshot) :
    b.Served now input failed (b.look now id failed polls left) snapshot := by
  cases seen : b.other? failed with
  | some other =>
      simp only [look, seen, answer, Next.answer.injEq] at answered
      subst answered
      simp only [other?] at seen
      split at seen
      · next c found =>
          split at seen
          · cases seen
          · next differs =>
              cases seen
              exact .hit c found (by simpa [Credential.carries] using differs) landing
      · cases seen
  | none =>
      by_cases more : 1 < left
      · simp [look, seen, more] at answered
      · simp only [look, seen, more, if_false, Ran.after_next] at answered ⊢
        obtain ⟨rfl, since, recent, said⟩ := contend_served answered
        exact .absorbed since recent (List.mem_append_right _ said) landing

theorem Moves.served {b : Broker} {now : Nat} {input : Input} {ran : Ran} {failed : String}
    {snapshot : Snapshot} (moves : b.Moves now input ran)
    (asked : b.asked? input = some (.resolving failed)) (answered : ran.next = .answer snapshot) :
    b.Served now input failed ran snapshot := by
  cases moves with
  | idle input misfit => cases answered
  | force id absent => cases asked
  | resolve id other polls absent =>
      cases asked
      have served : b.Served now (.resolve id failed polls) failed _ snapshot :=
        look_served rfl answered
      cases served with
      | hit c found differs landing => exact .hit c found differs landing
      | absorbed since recent said landing =>
          exact .absorbed since recent (List.mem_append_right _ said) landing
      | fetched _ landing _ => cases landing
  | poll id other polls left due found ripe =>
      simp only [asked?, found, Option.map_some, Option.some.injEq, Origin.resolving.injEq] at asked
      subst asked
      exact look_served rfl answered
  | acquire id origin found =>
      simp only [asked?, found, Option.map_some, Option.some.injEq] at asked
      subst asked
      obtain ⟨rfl, since, recent, said⟩ := contend_served answered
      exact .absorbed since recent said rfl
  | land id origin outcome found =>
      have fetching := phase_fetching_caller.mpr ⟨origin, found⟩
      simp only [landRefresh, Ran.waking_next, answer, unlock_fst, publish,
        Next.answer.injEq] at answered
      subst answered
      refine .fetched _ ?_ ?_
      · simp [landing?, fetching]
      · simp [landRefresh, Ran.waking, answer]
  | timer | rearm | acquireRenewal | landRenewal | cancel | clone | drop | dropLast | write =>
      cases asked

theorem minted_concat (config : Config) (start now : Nat) (outcome : Except Error Credential)
    (inputs : List (Nat × Input)) (input : Input) :
    minted config start outcome (inputs ++ [(now, input)]) =
      minted config start outcome inputs ++
        (((create config start outcome).after inputs).landing? input).toList.filterMap
          fun landed => landed.toOption.map Credential.value := by
  rw [minted, landings_append, ← List.cons_append, List.filterMap_append]
  simp [minted, landings]

/-- A source that mints no value twice does not mint again what failed. -/
theorem not_mints_of_minted {config : Config} {start now : Nat} {outcome : Except Error Credential}
    {inputs : List (Nat × Input)} {input : Input} {value : String}
    (unique : (minted config start outcome (inputs ++ [(now, input)])).Nodup)
    (known : value ∈ minted config start outcome inputs) :
    ¬ ((create config start outcome).after inputs).Mints input value := by
  rintro ⟨c, landing, rfl⟩
  rw [minted_concat, landing] at unique
  exact (List.nodup_append.mp unique).2.2 _ known c.value (by simp [Except.toOption]) rfl

/-- Exactly when a caller gets another credential than the one that failed, where it gets one at
all: its refresh is not absorbed while the store holds what failed, and its own fetch does not
bring what failed, which cannot be if that was minted before. -/
theorem resolved_ne_failed_iff (config : Config) (start now : Nat)
    (outcome : Except Error Credential) (inputs : List (Nat × Input)) (input : Input)
    (failed : String) (snapshot : Snapshot) (c : Credential)
    (unique : (minted config start outcome (inputs ++ [(now, input)])).Nodup)
    (asked : ((create config start outcome).after inputs).asked? input = some (.resolving failed))
    (answered : (((create config start outcome).after inputs).step now input).next =
      .answer snapshot)
    (found : snapshot.outcome = .ok c) :
    let b := (create config start outcome).after inputs
    (c.value ≠ failed ↔ ¬ (b.Absorbs now input ∧ b.Holds failed) ∧ ¬ b.Mints input failed) ∧
      (failed ∈ minted config start outcome inputs → ¬ b.Mints input failed) := by
  intro b
  refine ⟨?_, not_mints_of_minted unique⟩
  have served := (step_moves b now input).served asked answered
  cases served with
  | hit other same differs landing =>
      have holds : ¬ b.Holds failed := by
        rintro ⟨stored, this, carries⟩
        cases same.symm.trans this
        exact differs carries
      cases found.symm.trans same
      simp [differs, holds, Mints, landing]
  | absorbed since recent said landing =>
      have absorbs : b.Absorbs now input := ⟨since, recent, said⟩
      have holds : b.Holds failed ↔ c.value = failed := by
        simp [Holds, found]
      simp [absorbs, holds, Mints, landing]
  | fetched snapshot landing silent =>
      have absorbs : ¬ b.Absorbs now input := by
        rintro ⟨since, _, said⟩
        exact silent _ said
      simp [absorbs, Mints, landing, found]

/-- A caller whose credential failed asks for another: it polls once, refreshes, and is served what
its own fetch brings. -/
theorem resolved_ne_failed_fetching :
    let before : List (Nat × Input) := [(0, .resolve 1 "first" 1)]
    let landing : Input := .land (.caller 1) (.ok (sample "second"))
    let b := (create .default 0 (.ok (sample "first"))).after before
    (minted .default 0 (.ok (sample "first")) (before ++ [(1000, landing)])).Nodup ∧
      b.asked? landing = some (.resolving "first") ∧
      (b.step 1000 landing).next = .answer ⟨1, .ok (sample "second")⟩ ∧
      ((sample "second").value ≠ "first" ↔
        ¬ (b.Absorbs 1000 landing ∧ b.Holds "first") ∧ ¬ b.Mints landing "first") ∧
      ("first" ∈ minted .default 0 (.ok (sample "first")) before → ¬ b.Mints landing "first") :=
  have unique : (minted .default 0 (.ok (sample "first"))
      [(0, .resolve 1 "first" 1), (1000, .land (.caller 1) (.ok (sample "second")))]).Nodup := by
    decide
  ⟨unique, rfl, rfl,
    resolved_ne_failed_iff .default 0 1000 (.ok (sample "first")) [(0, .resolve 1 "first" 1)]
      (.land (.caller 1) (.ok (sample "second"))) "first" ⟨1, .ok (sample "second")⟩
      (sample "second") unique rfl rfl rfl⟩

/-- A credential that is rejected within the debounce window after the refresh that brought it comes
back to the caller that asked for another one. -/
theorem resolved_eq_failed_absorbed :
    let before : List (Nat × Input) :=
      [(0, .force 1), (0, .land (.caller 1) (.ok (sample "second"))),
        (1000000000, .resolve 2 "second" 3), (1050000000, .poll 2)]
    let b := (create .default 0 (.ok (sample "first"))).after before
    (minted .default 0 (.ok (sample "first")) (before ++ [(1100000000, .poll 2)])).Nodup ∧
      b.asked? (.poll 2) = some (.resolving "second") ∧
      (b.step 1100000000 (.poll 2)).next = .answer ⟨1, .ok (sample "second")⟩ ∧
      (sample "second").value = "second" := by
  refine ⟨by decide, rfl, rfl, rfl⟩

end Bearer.Broker

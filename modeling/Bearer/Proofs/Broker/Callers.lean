import Mathlib
import Bearer.Proofs.Broker.Moves

/-!
The callers of a broker taken together. An input of one caller leaves the others and the renewal as
they are, so whatever is summed over the callers changes by what that one caller adds to the sum.
-/
namespace Bearer.Broker

/-- What a caller that may be there weighs. -/
def weight (f : Wait → Nat) : Option Caller → Nat
  | some caller => f caller.wait
  | none => 0

@[simp] theorem weight_none (f : Wait → Nat) : weight f none = 0 := rfl

@[simp] theorem weight_some (f : Wait → Nat) (caller : Caller) :
    weight f (some caller) = f caller.wait := rfl

def weigh (b : Broker) (f : Wait → Nat) : Nat :=
  (b.callers.map fun caller => f caller.wait).sum

/-- What the callers weigh where it matters who they are. -/
def load (b : Broker) (f : Caller → Nat) : Nat :=
  (b.callers.map f).sum

def Distinct (b : Broker) : Prop :=
  (b.callers.map (·.id)).Nodup

/-- The callers after an input of one of them: that one where it is now, and the others. -/
structure Turned (b : Broker) (id : Nat) (c : Broker) : Prop where
  callers : c.callers = (c.caller? id).toList ++ b.callers.filter (·.id ≠ id)
  renewal : c.renewal = b.renewal

theorem sum_others {callers : List Caller} (distinct : (callers.map (·.id)).Nodup) (id : Nat)
    (f : Caller → Nat) :
    ((callers.filter (·.id ≠ id)).map f).sum + (callers.find? (·.id = id)).elim 0 f =
      (callers.map f).sum := by
  induction callers with
  | nil => rfl
  | cons first rest ih =>
      obtain ⟨new, distinct⟩ := List.nodup_cons.mp distinct
      have sum := ih distinct
      by_cases own : first.id = id
      · have others : rest.filter (·.id ≠ id) = rest := by
          refine List.filter_eq_self.mpr fun caller member => ?_
          have differs : caller.id ≠ first.id := fun same =>
            new (List.mem_map.mpr ⟨caller, member, same⟩)
          simpa [own] using differs
        simp only [List.filter_cons, own, ne_eq, not_true_eq_false, decide_false,
          Bool.false_eq_true, if_false, List.find?_cons, decide_true, Option.elim_some,
          List.map_cons, List.sum_cons] at others ⊢
        rw [others, Nat.add_comm]
      · simp only [List.filter_cons, own, ne_eq, not_false_eq_true, decide_true, if_true,
          List.find?_cons, decide_false, List.map_cons, List.sum_cons] at sum ⊢
        omega

theorem Turned.load {b c : Broker} {id : Nat} (turned : b.Turned id c) (distinct : b.Distinct)
    (f : Caller → Nat) :
    c.load f + (b.caller? id).elim 0 f = b.load f + (c.caller? id).elim 0 f := by
  have before : ((b.callers.filter (·.id ≠ id)).map f).sum + (b.caller? id).elim 0 f =
      b.load f := sum_others distinct id f
  have entry : ((c.caller? id).toList.map f).sum = (c.caller? id).elim 0 f := by
    cases c.caller? id <;> simp
  have after : c.load f = (c.caller? id).elim 0 f +
      ((b.callers.filter (·.id ≠ id)).map f).sum := by
    rw [Broker.load, turned.callers, List.map_append, List.sum_append, entry]
  omega

theorem weight_eq (f : Wait → Nat) (entry : Option Caller) :
    weight f entry = entry.elim 0 fun caller => f caller.wait := by
  cases entry <;> rfl

theorem Turned.weigh {b c : Broker} {id : Nat} (turned : b.Turned id c) (distinct : b.Distinct)
    (f : Wait → Nat) :
    c.weigh f + weight f (b.caller? id) = b.weigh f + weight f (c.caller? id) := by
  rw [weight_eq, weight_eq]
  exact turned.load distinct fun caller => f caller.wait

theorem Turned.distinct {b c : Broker} {id : Nat} (turned : b.Turned id c)
    (distinct : b.Distinct) : c.Distinct := by
  have others : ((b.callers.filter (·.id ≠ id)).map (·.id)).Nodup :=
    distinct.sublist (List.filter_sublist.map _)
  simp only [Distinct]
  rw [turned.callers]
  cases entry : c.caller? id with
  | none => exact others
  | some caller =>
      refine List.nodup_cons.mpr ⟨?_, others⟩
      simp [caller?_id entry]

theorem Turned.caller? {b c : Broker} {id other : Nat} (turned : b.Turned id c)
    (differs : other ≠ id) : c.caller? other = b.caller? other := by
  simp only [Broker.caller?]
  rw [turned.callers, List.find?_append]
  have entry : (c.caller? id).toList.find? (·.id = other) = none := by
    cases found : c.caller? id with
    | none => rfl
    | some caller => simp [caller?_id found, Ne.symm differs]
  rw [entry, Option.none_or, List.find?_filter]
  congr 1
  funext caller
  by_cases own : caller.id = other
  · simp [own, differs]
  · simp [own]

theorem turned_place {b c : Broker} (caller : Caller)
    (callers : c.callers = (b.place caller).callers) (renewal : c.renewal = b.renewal) :
    b.Turned caller.id c := by
  refine ⟨?_, renewal⟩
  have entry : c.caller? caller.id = some caller := by
    simp [Broker.caller?, callers, place]
  rw [entry, callers]
  rfl

theorem turned_dismiss {b c : Broker} {id : Nat} (callers : c.callers = (b.dismiss id).callers)
    (renewal : c.renewal = b.renewal) : b.Turned id c := by
  refine ⟨?_, renewal⟩
  have entry : c.caller? id = none := by
    have gone := caller?_dismiss b id id
    simp only [Broker.caller?, ← callers, if_true] at gone
    exact gone
  rw [entry, callers]
  rfl

theorem turned_contend {b : Broker} {now id : Nat} {origin : Origin} :
    b.Turned id (b.contend now id origin).broker := by
  simp only [contend]
  split
  · simp only [refresh]
    split
    · apply turned_dismiss
      all_goals simp [answer, dismiss, unlock_fst, countBy]
    · exact turned_place ⟨id, origin, .fetching⟩ rfl rfl
  · exact turned_place ⟨id, origin, .queued⟩ rfl rfl

theorem turned_look {b : Broker} {now id polls left : Nat} {failed : String} :
    b.Turned id (b.look now id failed polls left).broker := by
  simp only [look]
  split
  · exact turned_dismiss rfl rfl
  · split
    · exact turned_place ⟨id, .resolving failed, _⟩ rfl rfl
    · exact ⟨turned_contend.callers, turned_contend.renewal⟩

theorem turned_landRefresh {b : Broker} {now id : Nat} {origin : Origin}
    {outcome : Except Error Credential} :
    b.Turned id (b.landRefresh now id origin outcome).broker := by
  apply turned_dismiss
  all_goals simp [landRefresh, answer, dismiss, unlock_fst, publish]

end Bearer.Broker

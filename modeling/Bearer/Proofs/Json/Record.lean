import Bearer.Proofs.Json.Whole
import Bearer.Json.Decode

/-!
What a record is read from. Each of its fields is read by the field's own reader from the value that
stands under the field's name, whichever way the record is written; nothing else has a part in it.
-/
namespace Bearer.Json

section Except

variable {ε ε' α β : Type}

theorem bind_eq_ok {x : Except ε α} {f : α → Except ε β} {b : β} :
    x >>= f = .ok b ↔ ∃ a, x = .ok a ∧ f a = .ok b := by
  cases x <;> simp [bind, Except.bind]

theorem guarded_eq_ok {p : Prop} [Decidable p] {fault : ε} {next : α → Except ε β}
    {rest : Except ε β} {b : β} :
    (if p then Except.error fault >>= next else rest) = .ok b ↔ ¬p ∧ rest = .ok b := by
  split <;> simp [*, bind, Except.bind]

theorem map_eq_ok {x : Except ε α} {f : α → β} {b : β} :
    f <$> x = .ok b ↔ ∃ a, x = .ok a ∧ f a = b := by
  cases x <;> simp [Functor.map, Except.map]

theorem mapError_eq_ok {x : Except ε α} {f : ε → ε'} {a : α} :
    x.mapError f = .ok a ↔ x = .ok a := by
  cases x <;> simp [Except.mapError]

theorem pure_eq_ok {a b : α} : (pure a : Except ε α) = .ok b ↔ a = b := by
  simp [pure, Except.pure]

theorem toOption_eq_some {x : Except ε α} {a : α} : x.toOption = some a ↔ x = .ok a := by
  cases x <;> simp [Except.toOption]

end Except

theorem Reader.filterMap_eq_ok {α β : Type} {read : Reader α} {check : α → Option β} {tree : Tree}
    {b : β} : filterMap read check tree = .ok b ↔ ∃ a, read tree = .ok a ∧ check a = some b := by
  simp only [filterMap, bind_eq_ok]
  refine exists_congr fun a => and_congr_right fun _ => ?_
  cases check a <;> simp [pure_eq_ok]

theorem decodeAll_eq_ok {α : Type} {read : Reader α} {text : String} {a : α} :
    decodeAll read text = .ok a ↔
      read (Tree.scan (Text.utf8 text)).1 = .ok a ∧ (Tree.scan (Text.utf8 text)).2 = true := by
  simp only [decodeAll]
  cases taken : read (Tree.scan (Text.utf8 text)).1 with
  | error fault => simp
  | ok value =>
      cases clean : (Tree.scan (Text.utf8 text)).2 with
      | true => simp
      | false => simp

namespace Record

variable {σ : Type} (record : Record σ)

theorem ofMembers_unknown (isOpen : record.closed = false)
    {members : List (Quoted × Tree)} (inside : ∀ member ∈ members, member.2.Whole)
    (unknown : ∀ member ∈ members, ∃ name, member.1.text = .ok name ∧
      record.fields.lookup name = none) (seen : List String) :
    record.ofMembers none seen members = .ok [] := by
  induction members with
  | nil => rfl
  | cons member rest ih =>
      obtain ⟨key, tree⟩ := member
      obtain ⟨⟨name, read, absent⟩, others⟩ := List.forall_mem_cons.mp unknown
      obtain ⟨whole, below⟩ := List.forall_mem_cons.mp inside
      have passed : Reader.skip tree = .ok () := by
        rw [Reader.skip, whole.skipFault]
      have later := ih below others
      simp [ofMembers, read, absent, isOpen, passed, later, Except.mapError, bind, Except.bind]

/-- The members of an object whose names are legible. -/
def legible (members : List (Quoted × Tree)) : List (String × Tree) :=
  members.filterMap fun member => member.1.text.toOption.map fun name => (name, member.2)

theorem legible_cons {key : Quoted} {name : String} (text : key.text = .ok name) (tree : Tree)
    (rest : List (Quoted × Tree)) :
    legible ((key, tree) :: rest) = (name, tree) :: legible rest := by
  simp [legible, text, Except.toOption]

/-- The values in a record by their names. In an array a value has the name of the field at its
place. -/
def named : Tree → List (String × Tree)
  | .object members _ => legible members
  | .array items _ => (record.fields.map Prod.fst).zip items
  | _ => []

/-- A value is read from what stands under a name. -/
def Holds {α : Type} (tree : Tree) (name : String) (read : Reader α) (value : α) : Prop :=
  ∃ inner, (record.named tree).lookup name = some inner ∧ read inner = .ok value

variable {record} {entries : List (String × σ)} {name : String} {value : σ}

theorem readAs_eq_ok {α : Type} {build : List (String × σ) → Option α} {tree : Tree} {a : α} :
    record.readAs build tree = .ok a ↔
      ∃ entries, record.read tree = .ok entries ∧ build entries = some a :=
  Reader.filterMap_eq_ok

/-- A first member that is read is a field whose name is not taken, or it is passed over. -/
theorem ofMembers_cons {key : Quoted} {tree : Tree} {rest : List (Quoted × Tree)}
    {fault : Option Category} {seen : List String}
    (done : record.ofMembers fault seen ((key, tree) :: rest) = .ok entries) :
    ∃ name, key.text = .ok name ∧
      ((∃ read value later, record.fields.lookup name = some read ∧ name ∉ seen ∧
          read tree = .ok value ∧ record.ofMembers fault (name :: seen) rest = .ok later ∧
          entries = (name, value) :: later) ∨
        record.fields.lookup name = none ∧ record.ofMembers fault seen rest = .ok entries) := by
  simp only [ofMembers, bind_eq_ok, mapError_eq_ok] at done
  obtain ⟨name, text, done⟩ := done
  refine ⟨name, text, ?_⟩
  split at done
  · next read field =>
      split at done
      · cases done
      · next fresh =>
          simp only [bind_eq_ok, mapError_eq_ok, pure_eq_ok] at done
          obtain ⟨value, taken, later, done, rfl⟩ := done
          exact .inl ⟨read, value, later, field, fresh, taken, done, rfl⟩
  · next other =>
      split at done
      · cases done
      · obtain ⟨_, _, done⟩ := bind_eq_ok.mp done
        exact .inr ⟨other, done⟩

theorem ofMembers_lookup {members : List (Quoted × Tree)} {fault : Option Category}
    {seen : List String} (done : record.ofMembers fault seen members = .ok entries)
    (found : entries.lookup name = some value) :
    ∃ read inner, record.fields.lookup name = some read ∧
      (legible members).lookup name = some inner ∧ read inner = .ok value := by
  induction members generalizing seen entries with
  | nil =>
      cases fault with
      | none => cases done; cases found
      | some _ => cases done
  | cons member rest ih =>
      obtain ⟨key, tree⟩ := member
      obtain ⟨first, text, here⟩ := ofMembers_cons done
      rw [legible_cons text, List.lookup_cons]
      rcases here with ⟨read, head, others, field, fresh, taken, behind, rfl⟩ | ⟨field, behind⟩
      · rw [List.lookup_cons] at found
        split at found
        · next same =>
            cases found
            cases eq_of_beq same
            exact ⟨read, tree, field, rfl, taken⟩
        · next other => simpa only [other] using ih behind found
      · obtain ⟨read, inner, known, under, taken⟩ := ih behind found
        -- The member is no field, so it is not the one that was found.
        have other : (name == first) = false := by
          refine beq_eq_false_iff_ne.mpr fun same => ?_
          rw [same, field] at known
          cases known
        exact ⟨read, inner, known, by simpa only [other] using under, taken⟩

theorem ofItems_lookup {fields : List (String × Reader σ)} {items : List Tree}
    {fault : Option Category} {i : Nat} (done : ofItems fault i fields items = .ok entries)
    (found : entries.lookup name = some value) :
    ∃ read inner, fields.lookup name = some read ∧
      ((fields.map Prod.fst).zip items).lookup name = some inner ∧ read inner = .ok value := by
  induction fields generalizing i items entries with
  | nil =>
      cases items with
      | nil =>
          cases fault with
          | none => cases done; cases found
          | some _ => cases done
      | cons => cases done
  | cons field fields ih =>
      obtain ⟨first, read⟩ := field
      cases items with
      | nil =>
          cases fault with
          | none => cases done; cases found
          | some _ => cases done
      | cons tree rest =>
          simp only [ofItems, bind_eq_ok, mapError_eq_ok, pure_eq_ok] at done
          obtain ⟨head, taken, others, done, rfl⟩ := done
          simp only [List.map_cons, List.zip_cons_cons, List.lookup_cons] at found ⊢
          split at found
          · next same =>
              cases found
              exact ⟨read, tree, rfl, rfl, taken⟩
          · next other => exact ih done found

theorem holds_of_read {tree : Tree} {read : Reader σ} (done : record.read tree = .ok entries)
    (found : entries.lookup name = some value) (field : record.fields.lookup name = some read) :
    record.Holds tree name read value := by
  cases tree with
  | object members fault =>
      obtain ⟨_, inner, known, under, taken⟩ := ofMembers_lookup done found
      cases field.symm.trans known
      exact ⟨inner, under, taken⟩
  | array items fault =>
      obtain ⟨_, inner, known, under, taken⟩ := ofItems_lookup done found
      cases field.symm.trans known
      exact ⟨inner, under, taken⟩
  | null | bool | number | string | broken | absent => cases done

/-- The values of a record of several types are wrapped by their readers. -/
theorem holds_of_wrapped {α : Type} {tree : Tree} {read : Reader α} {wrap : α → σ}
    {unwrap : σ → Option α} {a : α} (inverse : ∀ a, unwrap (wrap a) = some a)
    (done : record.read tree = .ok entries) (found : entries.lookup name = some value)
    (field : record.fields.lookup name = some fun tree => wrap <$> read tree)
    (unwrapped : unwrap value = some a) : record.Holds tree name read a := by
  obtain ⟨inner, under, taken⟩ := holds_of_read done found field
  obtain ⟨b, read, rfl⟩ := map_eq_ok.mp taken
  cases (inverse b).symm.trans unwrapped
  exact ⟨inner, under, read⟩

end Record

end Bearer.Json

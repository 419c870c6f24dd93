import Mathlib
import Bearer.Proofs.Json.Record

/-!
When an object is read as a record, exactly. All names in the object are legible, no field stands
in it twice, and the value of each field that is there has the field's shape; what else is in the
object does not matter.
-/
namespace Bearer.Json

/-- A character string for this text. -/
def Tree.IsText (tree : Tree) (s : String) : Prop :=
  ∃ q, tree = .string q ∧ q.text = .ok s

/-- A numeral without fraction and exponent for this number, which 64 bits hold with its sign. -/
def Tree.IsInt64 (tree : Tree) (i : Int) : Prop :=
  ∃ n, tree = .number n ∧ n.toInt? = some i ∧ -0x8000000000000000 ≤ i ∧ i ≤ 0x7FFFFFFFFFFFFFFF

theorem Tree.IsText.unique {tree : Tree} {s t : String} (is : tree.IsText s)
    (isToo : tree.IsText t) : s = t := by
  obtain ⟨q, rfl, text⟩ := is
  obtain ⟨_, ⟨⟩, same⟩ := isToo
  exact Except.ok.inj (text.symm.trans same)

theorem Tree.IsInt64.unique {tree : Tree} {i j : Int} (is : tree.IsInt64 i)
    (isToo : tree.IsInt64 j) : i = j := by
  obtain ⟨n, rfl, value, -⟩ := is
  obtain ⟨_, ⟨⟩, same, -⟩ := isToo
  exact Option.some.inj (value.symm.trans same)

namespace Reader

theorem text_eq_ok {tree : Tree} {s : String} : text tree = .ok s ↔ tree.IsText s := by
  cases tree with
  | string q => simp [text, Tree.IsText, mapError_eq_ok]
  | null | bool _ | number _ | array _ _ | object _ _ | broken _ _ | absent _ =>
      simp [text, refuse, Tree.IsText]

theorem int64_eq_ok {tree : Tree} {i : Int} : int64 tree = .ok i ↔ tree.IsInt64 i := by
  cases tree with
  | number n =>
      cases whole : n.toInt? with
      | some own =>
          have value : n.value? = some (.int own) := by rw [Numeral.value?, whole]
          by_cases fits : -0x8000000000000000 ≤ own ∧ own ≤ 0x7FFFFFFFFFFFFFFF
          · simp only [int64, intIn, value, fits, and_self, if_true]
            constructor
            · rintro ⟨⟩
              exact ⟨n, rfl, whole, fits⟩
            · rintro ⟨_, ⟨⟩, same, -⟩
              rw [Option.some.inj (whole.symm.trans same)]
          · simp only [int64, intIn, value, fits, if_false]
            constructor
            · nofun
            · rintro ⟨_, ⟨⟩, same, bounds⟩
              cases whole.symm.trans same
              exact absurd bounds fits
      | none =>
          have value : n.value? = n.toFloat?.map .float := by rw [Numeral.value?, whole]
          constructor
          · intro taken
            simp only [int64, intIn, value] at taken
            cases float : n.toFloat? <;> rw [float] at taken <;> cases taken
          · rintro ⟨_, ⟨⟩, same, -⟩
            cases whole.symm.trans same
  | null | bool _ | string _ | array _ _ | object _ _ | broken _ _ | absent _ =>
      simp [int64, intIn, refuse, Tree.IsInt64]

end Reader

namespace Record

theorem lookup_eq_none_iff_count {α : Type} {name : String} {named : List (String × α)} :
    named.lookup name = none ↔ (named.map Prod.fst).count name = 0 := by
  rw [List.lookup_eq_none_iff, List.count_eq_zero, List.mem_map]
  constructor
  · rintro other ⟨entry, member, rfl⟩
    exact absurd (other entry member) (by simp)
  · intro absent entry member
    exact bne_iff_ne.mpr fun same => absent ⟨entry, member, same.symm⟩

variable {σ : Type} (record : Record σ)

/-- The object is one for the record, where these names are already taken. -/
structure Fits (seen : List String) (members : List (Quoted × Tree)) : Prop where
  named : ∀ member ∈ members, ∃ name, member.1.text = .ok name
  once : ∀ name, (record.fields.lookup name).isSome →
    ((legible members).map Prod.fst).count name + (if name ∈ seen then 1 else 0) ≤ 1
  shaped : ∀ name read tree, record.fields.lookup name = some read →
    (legible members).lookup name = some tree → ∃ value, read tree = .ok value

variable {record} {members rest : List (Quoted × Tree)} {key : Quoted} {tree : Tree}
  {name : String} {seen : List String}

theorem fits_nil : record.Fits seen [] where
  named := nofun
  once name _ := by
    simp only [legible, List.filterMap_nil, List.map_nil, List.count_nil, Nat.zero_add]
    split <;> omega
  shaped := nofun

/-- A name that is no field is passed over. -/
theorem fits_cons_other (text : key.text = .ok name) (other : record.fields.lookup name = none) :
    record.Fits seen ((key, tree) :: rest) ↔ record.Fits seen rest := by
  have unknown : ∀ field, (record.fields.lookup field).isSome → field ≠ name := by
    rintro field known rfl
    rw [other] at known
    cases known
  constructor
  · intro fits
    refine ⟨(List.forall_mem_cons.mp fits.named).2, ?_, ?_⟩
    · intro field known
      have once := fits.once field known
      rwa [legible_cons text, List.map_cons, List.count_cons_of_ne (unknown field known).symm]
        at once
    · intro field read inner known under
      apply fits.shaped field read inner known
      have different := unknown field (by rw [known]; rfl)
      rw [legible_cons text, List.lookup_cons, beq_eq_false_iff_ne.mpr different]
      exact under
  · intro fits
    refine ⟨List.forall_mem_cons.mpr ⟨⟨name, text⟩, fits.named⟩, ?_, ?_⟩
    · intro field known
      rw [legible_cons text, List.map_cons, List.count_cons_of_ne (unknown field known).symm]
      exact fits.once field known
    · intro field read inner known under
      have different := unknown field (by rw [known]; rfl)
      rw [legible_cons text, List.lookup_cons, beq_eq_false_iff_ne.mpr different] at under
      exact fits.shaped field read inner known under

/-- A field is read, and its name is taken from then on. -/
theorem fits_cons_field (text : key.text = .ok name) {read : Reader σ}
    (field : record.fields.lookup name = some read) :
    record.Fits seen ((key, tree) :: rest) ↔
      name ∉ seen ∧ (∃ value, read tree = .ok value) ∧ record.Fits (name :: seen) rest := by
  have names : (legible ((key, tree) :: rest)).map Prod.fst =
      name :: (legible rest).map Prod.fst := by
    rw [legible_cons text, List.map_cons]
  constructor
  · intro fits
    have here := fits.once name (by rw [field]; rfl)
    rw [names, List.count_cons_self] at here
    have fresh : name ∉ seen := by
      intro taken
      rw [if_pos taken] at here
      omega
    have absent : ((legible rest).map Prod.fst).count name = 0 := by omega
    refine ⟨fresh, ?_, (List.forall_mem_cons.mp fits.named).2, ?_, ?_⟩
    · apply fits.shaped name read tree field
      rw [legible_cons text, List.lookup_cons_self]
    · intro other known
      by_cases same : other = name
      · rw [same, absent, if_pos List.mem_cons_self]
      · have once := fits.once other known
        rw [names, List.count_cons_of_ne (Ne.symm same)] at once
        simpa only [List.mem_cons, same, false_or] using once
    · intro other reader inner known under
      apply fits.shaped other reader inner known
      have different : other ≠ name := by
        rintro rfl
        rw [lookup_eq_none_iff_count.mpr absent] at under
        cases under
      rw [legible_cons text, List.lookup_cons, beq_eq_false_iff_ne.mpr different]
      exact under
  · rintro ⟨fresh, readable, fits⟩
    have here := fits.once name (by rw [field]; rfl)
    rw [if_pos List.mem_cons_self] at here
    refine ⟨List.forall_mem_cons.mpr ⟨⟨name, text⟩, fits.named⟩, ?_, ?_⟩
    · intro other known
      by_cases same : other = name
      · rw [same, names, List.count_cons_self, if_neg fresh]
        omega
      · have once := fits.once other known
        rw [names, List.count_cons_of_ne (Ne.symm same)]
        simpa only [List.mem_cons, same, false_or] using once
    · intro other reader inner known under
      rw [legible_cons text, List.lookup_cons] at under
      split at under
      · next same =>
          cases under
          cases eq_of_beq same
          cases field.symm.trans known
          exact readable
      · exact fits.shaped other reader inner known under

/-- By induction on the members, with the names of those before. -/
theorem ofMembers_iff_fits (isOpen : record.closed = false) (inside : MembersWhole members)
    (seen : List String) :
    (∃ entries, record.ofMembers none seen members = .ok entries) ↔ record.Fits seen members := by
  induction members generalizing seen with
  | nil => exact ⟨fun _ => fits_nil, fun _ => ⟨[], rfl⟩⟩
  | cons member rest ih =>
      obtain ⟨key, tree⟩ := member
      obtain ⟨whole, below⟩ := List.forall_mem_cons.mp inside
      have passed : Reader.skip tree = .ok () := by
        rw [Reader.skip, whole.skipFault]
      cases text : key.text with
      | error fault =>
          constructor
          · rintro ⟨entries, done⟩
            simp only [ofMembers, text, bind_eq_ok, mapError_eq_ok] at done
            obtain ⟨_, none, -⟩ := done
            cases none
          · intro fits
            obtain ⟨name, readable⟩ := fits.named _ List.mem_cons_self
            cases text.symm.trans readable
      | ok name =>
          cases field : record.fields.lookup name with
          | none =>
              have later := ih below seen
              rw [fits_cons_other text field, ← later]
              simp only [ofMembers, text, field, isOpen, passed, Except.mapError, bind, Except.bind]
              rfl
          | some read =>
              rw [fits_cons_field text field, ← ih below (name :: seen)]
              constructor
              · rintro ⟨entries, done⟩
                obtain ⟨_, same, here⟩ := ofMembers_cons done
                cases text.symm.trans same
                rcases here with ⟨_, value, later, known, fresh, taken, done, -⟩ | ⟨other, -⟩
                · cases field.symm.trans known
                  exact ⟨fresh, ⟨value, taken⟩, later, done⟩
                · cases field.symm.trans other
              · rintro ⟨fresh, ⟨value, taken⟩, entries, done⟩
                refine ⟨(name, value) :: entries, ?_⟩
                simp only [ofMembers, text, field, fresh, taken, done, if_false, Except.mapError,
                  bind, Except.bind, pure, Except.pure]

variable {fault : Option Category} {entries : List (String × σ)}

/-- What is read of a field is what its reader gives for the value under its name. -/
theorem lookup_ofMembers (done : record.ofMembers fault seen members = .ok entries)
    (field : String) :
    entries.lookup field = (record.fields.lookup field).bind fun read =>
      ((legible members).lookup field).bind fun tree => (read tree).toOption := by
  induction members generalizing seen entries with
  | nil =>
      cases fault with
      | some _ => cases done
      | none =>
          cases done
          cases record.fields.lookup field <;> rfl
  | cons member rest ih =>
      obtain ⟨key, tree⟩ := member
      obtain ⟨name, text, here⟩ := ofMembers_cons done
      rw [legible_cons text, List.lookup_cons]
      rcases here with ⟨read, value, later, known, fresh, taken, behind, rfl⟩ | ⟨other, behind⟩
      · rw [List.lookup_cons]
        split
        · next same =>
            cases eq_of_beq same
            rw [known]
            simp [taken, Except.toOption]
        · exact ih behind
      · rw [ih behind]
        split
        · next same =>
            cases eq_of_beq same
            rw [other]
            rfl
        · rfl

/-- Every entry is of a field of its own, and is read as this field. -/
theorem entries_ofMembers (done : record.ofMembers fault seen members = .ok entries) :
    (entries.map Prod.fst).Nodup ∧ ∀ entry ∈ entries, entry.1 ∉ seen ∧
      ∃ read tree, record.fields.lookup entry.1 = some read ∧ read tree = .ok entry.2 := by
  induction members generalizing seen entries with
  | nil =>
      cases fault with
      | some _ => cases done
      | none =>
          cases done
          exact ⟨List.nodup_nil, nofun⟩
  | cons member rest ih =>
      obtain ⟨key, tree⟩ := member
      obtain ⟨name, text, here⟩ := ofMembers_cons done
      rcases here with ⟨read, value, later, known, fresh, taken, behind, rfl⟩ | ⟨other, behind⟩
      · obtain ⟨different, each⟩ := ih behind
        constructor
        · refine List.nodup_cons.mpr ⟨?_, different⟩
          intro again
          obtain ⟨entry, member, same⟩ := List.mem_map.mp again
          exact (each entry member).1 (same ▸ List.mem_cons_self)
        · refine List.forall_mem_cons.mpr ⟨⟨fresh, read, tree, known, taken⟩, ?_⟩
          intro entry member
          obtain ⟨unseen, parts⟩ := each entry member
          exact ⟨fun before => unseen (List.mem_cons_of_mem _ before), parts⟩
      · exact ih behind

/-- An object that stopped at a fault is not read. -/
theorem ofMembers_fault {category : Category} :
    record.ofMembers (some category) seen members ≠ .ok entries := by
  intro done
  induction members generalizing seen entries with
  | nil => cases done
  | cons member rest ih =>
      obtain ⟨key, tree⟩ := member
      obtain ⟨name, text, here⟩ := ofMembers_cons done
      rcases here with ⟨read, value, later, known, fresh, taken, behind, rfl⟩ | ⟨other, behind⟩
      · exact ih behind
      · exact ih behind

theorem ofItems_fault {category : Category} {fields : List (String × Reader σ)}
    {items : List Tree} {i : Nat} : ofItems (some category) i fields items ≠ .ok entries := by
  intro done
  induction fields generalizing items i entries with
  | nil => cases items <;> cases done
  | cons field rest ih =>
      cases items with
      | nil => cases done
      | cons tree others =>
          obtain ⟨_, _, done⟩ := bind_eq_ok.mp done
          obtain ⟨_, later, _⟩ := bind_eq_ok.mp done
          exact ih later

/-- The same of an array, by induction on the fields: an item is the value under the name of the
field at its place. -/
theorem lookup_ofItems {fields : List (String × Reader σ)} {items : List Tree} {i : Nat}
    (done : ofItems fault i fields items = .ok entries) (field : String) :
    entries.lookup field = (fields.lookup field).bind fun read =>
      (((fields.map Prod.fst).zip items).lookup field).bind fun tree => (read tree).toOption := by
  induction fields generalizing items i entries with
  | nil =>
      cases items with
      | nil =>
          cases fault with
          | none =>
              cases done
              rfl
          | some _ => cases done
      | cons => cases done
  | cons own fields ih =>
      obtain ⟨name, read⟩ := own
      cases items with
      | nil =>
          cases fault with
          | none =>
              cases done
              cases List.lookup field ((name, read) :: fields) <;> rfl
          | some _ => cases done
      | cons tree rest =>
          simp only [ofItems, bind_eq_ok, mapError_eq_ok, pure_eq_ok] at done
          obtain ⟨value, taken, later, done, rfl⟩ := done
          simp only [List.map_cons, List.zip_cons_cons, List.lookup_cons]
          split
          · simp [taken, Except.toOption]
          · exact ih done

/-- The entries of an array are those of its first fields, each read as its field. -/
theorem entries_ofItems {fields : List (String × Reader σ)} {items : List Tree} {i : Nat}
    (done : ofItems fault i fields items = .ok entries) :
    entries.map Prod.fst <+: fields.map Prod.fst ∧ ∀ entry ∈ entries,
      ∃ read tree, (entry.1, read) ∈ fields ∧ read tree = .ok entry.2 := by
  induction fields generalizing items i entries with
  | nil =>
      cases items with
      | nil =>
          cases fault with
          | none =>
              cases done
              exact ⟨List.nil_prefix, nofun⟩
          | some _ => cases done
      | cons => cases done
  | cons own fields ih =>
      obtain ⟨name, read⟩ := own
      cases items with
      | nil =>
          cases fault with
          | none =>
              cases done
              exact ⟨List.nil_prefix, nofun⟩
          | some _ => cases done
      | cons tree rest =>
          simp only [ofItems, bind_eq_ok, mapError_eq_ok, pure_eq_ok] at done
          obtain ⟨value, taken, later, done, rfl⟩ := done
          obtain ⟨begun, each⟩ := ih done
          refine ⟨List.cons_prefix_cons.mpr ⟨rfl, begun⟩, ?_⟩
          refine List.forall_mem_cons.mpr ⟨⟨read, tree, List.mem_cons_self, taken⟩, ?_⟩
          intro entry member
          obtain ⟨reader, inner, known, taken⟩ := each entry member
          exact ⟨reader, inner, List.mem_cons_of_mem _ known, taken⟩

/-- Whichever way a record is written, what is read of a field is what its reader gives for the value
under its name. -/
theorem lookup_read (done : record.read tree = .ok entries) (field : String) :
    entries.lookup field = (record.fields.lookup field).bind fun read =>
      ((record.named tree).lookup field).bind fun inner => (read inner).toOption := by
  cases tree with
  | object members fault => exact lookup_ofMembers done field
  | array items fault => exact lookup_ofItems done field
  | null | bool _ | number _ | string _ | broken _ _ | absent _ => cases done

/-- Whichever way a record is written, its entries are of different fields, each read as its
field. -/
theorem entries_read (different : (record.fields.map Prod.fst).Nodup)
    (done : record.read tree = .ok entries) :
    (entries.map Prod.fst).Nodup ∧ ∀ entry ∈ entries,
      ∃ read inner, (entry.1, read) ∈ record.fields ∧ read inner = .ok entry.2 := by
  cases tree with
  | object members fault =>
      obtain ⟨own, each⟩ := entries_ofMembers done
      refine ⟨own, fun entry member => ?_⟩
      obtain ⟨-, read, inner, known, taken⟩ := each entry member
      obtain ⟨before, behind, fields, -⟩ := List.lookup_eq_some_iff.mp known
      exact ⟨read, inner, by rw [fields]; simp, taken⟩
  | array items fault =>
      obtain ⟨begun, each⟩ := entries_ofItems done
      exact ⟨different.sublist begun.sublist, each⟩
  | null | bool _ | number _ | string _ | broken _ _ | absent _ => cases done

/-- A record is not read from anything but an object or an array. -/
theorem shape_of_read (done : record.read tree = .ok entries) :
    (∃ members, tree = .object members none ∧ record.ofMembers none [] members = .ok entries) ∨
      ∃ items fault, tree = .array items fault ∧
        ofItems fault 0 record.fields items = .ok entries := by
  cases tree with
  | object members fault =>
      cases fault with
      | none => exact .inl ⟨members, rfl, done⟩
      | some category => exact absurd done ofMembers_fault
  | array items fault => exact .inr ⟨items, fault, rfl, done⟩
  | null | bool _ | number _ | string _ | broken _ _ | absent _ => cases done

/-- The first item is read as the first field. -/
theorem ofItems_head {field : String × Reader σ} {fields : List (String × Reader σ)}
    {items : List Tree} {i : Nat} (done : ofItems fault i (field :: fields) items = .ok entries) :
    items = [] ∧ entries = [] ∨ ∃ first rest value, items = first :: rest ∧
      field.2 first = .ok value := by
  obtain ⟨name, read⟩ := field
  cases items with
  | nil =>
      cases fault with
      | none =>
          cases done
          exact .inl ⟨rfl, rfl⟩
      | some _ => cases done
  | cons first rest =>
      simp only [ofItems, bind_eq_ok, mapError_eq_ok] at done
      obtain ⟨value, taken, -⟩ := done
      exact .inr ⟨first, rest, value, rfl, taken⟩

/-- An object for a record of two fields. -/
theorem fits_pair {first second : String} (different : first ≠ second)
    {readFirst readSecond : Reader σ} {closed : Bool} :
    Fits ⟨[(first, readFirst), (second, readSecond)], closed⟩ [] members ↔
      (∀ member ∈ members, ∃ name, member.1.text = .ok name) ∧
        ((legible members).map Prod.fst).count first ≤ 1 ∧
        ((legible members).map Prod.fst).count second ≤ 1 ∧
        (∀ tree, (legible members).lookup first = some tree → ∃ a, readFirst tree = .ok a) ∧
        ∀ tree, (legible members).lookup second = some tree → ∃ a, readSecond tree = .ok a := by
  have other : (second == first) = false := beq_eq_false_iff_ne.mpr (Ne.symm different)
  have atFirst : List.lookup first [(first, readFirst), (second, readSecond)] = some readFirst :=
    List.lookup_cons_self
  have atSecond : List.lookup second [(first, readFirst), (second, readSecond)] =
      some readSecond := by
    rw [List.lookup_cons, other, List.lookup_cons_self]
  have fields : ∀ {name read}, List.lookup name [(first, readFirst), (second, readSecond)] =
      some read → name = first ∧ read = readFirst ∨ name = second ∧ read = readSecond := by
    intro name read found
    rw [List.lookup_cons] at found
    split at found
    · next same => exact .inl ⟨eq_of_beq same, (Option.some.inj found).symm⟩
    · rw [List.lookup_cons] at found
      split at found
      · next same => exact .inr ⟨eq_of_beq same, (Option.some.inj found).symm⟩
      · cases found
  constructor
  · intro fits
    exact ⟨fits.named, fits.once first (by rw [atFirst]; rfl),
      fits.once second (by rw [atSecond]; rfl), fun tree => fits.shaped _ _ tree atFirst,
      fun tree => fits.shaped _ _ tree atSecond⟩
  · rintro ⟨named, firstOnce, secondOnce, firstShaped, secondShaped⟩
    refine ⟨named, ?_, ?_⟩
    · intro name known
      obtain ⟨read, found⟩ := Option.isSome_iff_exists.mp known
      rcases fields found with ⟨rfl, -⟩ | ⟨rfl, -⟩
      · exact firstOnce
      · exact secondOnce
    · intro name read tree found
      rcases fields found with ⟨rfl, rfl⟩ | ⟨rfl, rfl⟩
      · exact firstShaped tree
      · exact secondShaped tree

end Record

end Bearer.Json

import Mathlib
import Bearer.Proofs.Json.Printed

/-!
Readers that give back what was written. A value gives its reader something wherever it stands, so
what a document gives follows from what its parts give, part by part.
-/
namespace Bearer.Json

variable {α β : Type}

/-- What the reader makes of the value where it is written out. -/
def Value.Gives (value : Value) (read : Reader α) (a : α) : Prop :=
  ∃ tree, Spells value.bytes tree ∧ read tree = .ok a

/-- What is written for `a` is a text, and that text is read as `a`. -/
def RoundTrips (write : α → Value) (read : Reader α) (a : α) : Prop :=
  ∃ text, Text.ofUtf8? (write a).bytes = some text ∧ decodeAll read text = .ok a

theorem RoundTrips.of_gives {write : α → Value} {read : Reader α} {a : α}
    (gives : (write a).Gives read a) : RoundTrips write read a := by
  obtain ⟨tree, spells, taken⟩ := gives
  obtain ⟨text, written, bytes⟩ := spells.text.read
  refine ⟨text, written, ?_⟩
  simp only [decodeAll, bytes, spells.scan_eq, taken, if_true]

section Readers

variable {value : Value} {read : Reader α} {a : α}

theorem Value.Gives.map (gives : value.Gives read a) (f : α → β) :
    value.Gives (fun tree => f <$> read tree) (f a) := by
  obtain ⟨tree, spells, taken⟩ := gives
  exact ⟨tree, spells, map_eq_ok.mpr ⟨a, taken, rfl⟩⟩

theorem Value.Gives.filterMap (gives : value.Gives read a) {check : α → Option β} {b : β}
    (passed : check a = some b) : value.Gives (Reader.filterMap read check) b := by
  obtain ⟨tree, spells, taken⟩ := gives
  exact ⟨tree, spells, Reader.filterMap_eq_ok.mpr ⟨a, taken, passed⟩⟩

theorem gives_text (s : String) : (Value.string s).Gives Reader.text s := by
  refine ⟨.string (quoted s), ?_, ?_⟩
  · rw [Value.bytes]
    exact spells_quote s
  · exact mapError_eq_ok.mpr (text_quoted s)

/-- Every integer that 64 bits can hold, with a sign or without. -/
theorem gives_int {low high i : Int} (above : low ≤ i) (below : i ≤ high)
    (least : -0x8000000000000000 ≤ low) (most : high < 0x10000000000000000) :
    (Value.int i).Gives (Reader.intIn low high) i := by
  refine ⟨.number (numeralOf i), spells_int i, ?_⟩
  have known : (numeralOf i).toInt? = some i := toInt?_numeralOf (by omega) (by omega)
  have value : (numeralOf i).value? = some (.int i) := by
    rw [Numeral.value?, known]
  simp only [Reader.intIn, value, above, below, and_self, if_true]

theorem gives_nat {bound n : Nat} (below : n < bound) (most : bound ≤ 0x10000000000000000) :
    (Value.int n).Gives (Reader.natBelow bound) n :=
  (gives_int (by omega) (by omega) (by omega) (by omega)).map Int.toNat

/-- The items of a list, by induction on the list, each at its own index. -/
theorem items_ok {as : List α} {trees : List Tree}
    (each : List.Forall₂ (fun a tree => read tree = .ok a) as trees) (i : Nat) :
    Reader.items read none i trees = .ok as := by
  induction each generalizing i with
  | nil => rfl
  | cons taken _ ih =>
      simp only [Reader.items, taken, Except.mapError, ih, bind, Except.bind, pure, Except.pure]

theorem gives_list {write : α → Value} {as : List α}
    (each : ∀ a ∈ as, (write a).Gives read a) :
    (Value.array (as.map write)).Gives (Reader.list read) as := by
  have both : ∃ trees, List.Forall₂ (fun value tree => Spells value.bytes tree) (as.map write)
      trees ∧ List.Forall₂ (fun a tree => read tree = .ok a) as trees := by
    induction as with
    | nil => exact ⟨[], .nil, .nil⟩
    | cons a rest ih =>
        obtain ⟨⟨tree, spells, taken⟩, later⟩ := List.forall_mem_cons.mp each
        obtain ⟨trees, written, read⟩ := ih later
        exact ⟨tree :: trees, .cons spells written, .cons taken read⟩
  obtain ⟨trees, written, taken⟩ := both
  exact ⟨.array trees none, spells_array written, items_ok taken 0⟩

end Readers

namespace Record

variable {σ : Type} {record : Record σ}

/-- A member stands for an entry: it has the name of the entry, and its value gives what the entry
holds to the reader of the field of that name. -/
def Stands (record : Record σ) (member : String × Value) (entry : String × σ) : Prop :=
  entry.1 = member.1 ∧
    ∃ read, record.fields.lookup member.1 = some read ∧ member.2.Gives read entry.2

/-- The same of a member as it is read. -/
def Taken (record : Record σ) (member : Quoted × Tree) (entry : String × σ) : Prop :=
  member.1.text = .ok entry.1 ∧
    ∃ read, record.fields.lookup entry.1 = some read ∧ read member.2 = .ok entry.2

/-- Members of different fields are read one by one, by induction on the members; the names seen
before are others. -/
theorem ofMembers_ok {members : List (Quoted × Tree)} {entries : List (String × σ)}
    (each : List.Forall₂ record.Taken members entries) (different : (entries.map Prod.fst).Nodup)
    {seen : List String} (unseen : ∀ entry ∈ entries, entry.1 ∉ seen) :
    record.ofMembers none seen members = .ok entries := by
  induction each generalizing seen with
  | nil => rfl
  | @cons member entry _ others taken _ ih =>
      obtain ⟨key, tree⟩ := member
      obtain ⟨name, value⟩ := entry
      obtain ⟨text, read, field, taken⟩ := taken
      obtain ⟨fresh, rest⟩ := List.nodup_cons.mp different
      obtain ⟨here, later⟩ := List.forall_mem_cons.mp unseen
      have unseenLater : ∀ entry ∈ others, entry.1 ∉ name :: seen := by
        intro entry member seenBefore
        rcases List.mem_cons.mp seenBefore with same | seenBefore
        · exact fresh (List.mem_map.mpr ⟨entry, member, same⟩)
        · exact later entry member seenBefore
      simp only at text field taken here
      simp only [ofMembers, text, field, taken, here, ih rest unseenLater, Except.mapError, bind,
        Except.bind, pure, Except.pure, if_false]

theorem gives_record {members : List (String × Value)} {entries : List (String × σ)}
    (each : List.Forall₂ record.Stands members entries)
    (different : (entries.map Prod.fst).Nodup) :
    (Value.object members).Gives record.read entries := by
  have both : ∃ trees, List.Forall₂ MemberSpells members trees ∧
      List.Forall₂ record.Taken trees entries := by
    clear different
    induction each with
    | nil => exact ⟨[], .nil, .nil⟩
    | @cons member entry _ _ stands _ ih =>
        obtain ⟨trees, written, read⟩ := ih
        obtain ⟨same, reader, field, tree, spells, taken⟩ := stands
        have text : (quoted member.1).text = .ok entry.1 := by rw [text_quoted, same]
        exact ⟨(quoted member.1, tree) :: trees, .cons ⟨rfl, spells⟩ written,
          .cons ⟨text, reader, same ▸ field, taken⟩ read⟩
  obtain ⟨trees, written, taken⟩ := both
  exact ⟨.object trees none, spells_object written,
    ofMembers_ok taken different fun _ _ => List.not_mem_nil⟩

theorem gives_readAs {members : List (String × Value)} {entries : List (String × σ)}
    (each : List.Forall₂ record.Stands members entries)
    (different : (entries.map Prod.fst).Nodup) {build : List (String × σ) → Option α} {a : α}
    (built : build entries = some a) : (Value.object members).Gives (record.readAs build) a :=
  (gives_record each different).filterMap built

/-- What is built from a record of two fields. -/
theorem lookup_both (first second : String) (different : first ≠ second)
    (build : σ → σ → Option α) (a b : σ) :
    (List.lookup first [(first, a), (second, b)] >>= fun x =>
      List.lookup second [(first, a), (second, b)] >>= fun y => build x y) = build a b := by
  have other : (second == first) = false := beq_eq_false_iff_ne.mpr different.symm
  simp [List.lookup, other]

end Record

end Bearer.Json

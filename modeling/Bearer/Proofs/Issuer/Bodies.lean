import Mathlib
import Bearer.Grant
import Bearer.Issuer.Status
import Bearer.Proofs.Json.Fields

/-!
What the bodies of an issuer tell. The same body is read twice, once for its status and once for
its grant. As an object it can hold both, because neither reader minds the members of the other; an
array would need a number and a text in its first place.
-/
namespace Bearer

open Json

/-- The values of an object by their names. -/
abbrev Named : Type := List (String × Tree)

/-- The name stands in the object once, if at all. -/
def Named.Once (named : Named) (name : String) : Prop :=
  (named.map Prod.fst).count name ≤ 1

namespace Issuer.Status

def Entry.errcode? : Entry → Option Int
  | .errcode code => some code
  | .errmsg _ => none

def Entry.errmsg? : Entry → Option String
  | .errcode _ => none
  | .errmsg text => some text

/-- The status that an object tells. Without a code it is that of a success. -/
structure Told (named : Named) (status : Status) : Prop where
  code : ∀ tree, named.lookup "errcode" = some tree → tree.IsInt64 status.errcode
  codeless : named.lookup "errcode" = none → status.errcode = 0
  message : ∀ tree, named.lookup "errmsg" = some tree → tree.IsText status.errmsg
  messageless : named.lookup "errmsg" = none → status.errmsg = ""

theorem Told.unique {named : Named} {status other : Status} (told : Told named status)
    (toldToo : Told named other) : status = other := by
  have code : status.errcode = other.errcode := by
    cases under : named.lookup "errcode" with
    | none => rw [told.codeless under, toldToo.codeless under]
    | some tree => exact (told.code tree under).unique (toldToo.code tree under)
  have message : status.errmsg = other.errmsg := by
    cases under : named.lookup "errmsg" with
    | none => rw [told.messageless under, toldToo.messageless under]
    | some tree => exact (told.message tree under).unique (toldToo.message tree under)
  cases status
  cases other
  cases code
  cases message
  rfl

/-- Entries that are of the field whose name they have. -/
def Typed (entries : List (String × Entry)) : Prop :=
  ∀ entry ∈ entries, (∃ code, entry = ("errcode", .errcode code)) ∨
    ∃ text, entry = ("errmsg", .errmsg text)

/-- What is put together from entries, by induction on the entries, from any status. -/
theorem foldl_entries {put : Status → String × Entry → Status}
    (putCode : ∀ status name code,
      put status (name, .errcode code) = { status with errcode := code })
    (putMessage : ∀ status name text,
      put status (name, .errmsg text) = { status with errmsg := text })
    {entries : List (String × Entry)} (typed : Typed entries)
    (different : (entries.map Prod.fst).Nodup) (status : Status) :
    entries.foldl put status =
      ⟨((entries.lookup "errcode").bind Entry.errcode?).getD status.errcode,
        ((entries.lookup "errmsg").bind Entry.errmsg?).getD status.errmsg⟩ := by
  induction entries generalizing status with
  | nil => rfl
  | cons entry rest ih =>
      obtain ⟨here, later⟩ := List.forall_mem_cons.mp typed
      obtain ⟨fresh, others⟩ := List.nodup_cons.mp different
      have absent : rest.lookup entry.1 = none := by
        refine List.lookup_eq_none_iff.mpr fun other member => bne_iff_ne.mpr fun same => ?_
        exact fresh (List.mem_map.mpr ⟨other, member, same.symm⟩)
      rw [List.foldl_cons, ih later others]
      rcases here with ⟨code, rfl⟩ | ⟨text, rfl⟩
      · simp [putCode, absent, List.lookup_cons, Entry.errcode?]
      · simp [putMessage, absent, List.lookup_cons, Entry.errmsg?]

variable {named : Named} {members : List (Quoted × Tree)} {status : Status}

theorem typed_of_read {entries : List (String × Entry)}
    (done : record.ofMembers none [] members = .ok entries) : Typed entries := by
  rintro ⟨name, value⟩ member
  obtain ⟨-, read, tree, field, taken⟩ := (Record.entries_ofMembers done).2 _ member
  simp only [record, List.lookup_cons] at field
  split at field
  · next same =>
      cases field
      cases eq_of_beq same
      obtain ⟨code, -, rfl⟩ := map_eq_ok.mp taken
      exact .inl ⟨code, rfl⟩
  · split at field
    · next same =>
        cases field
        cases eq_of_beq same
        obtain ⟨text, -, rfl⟩ := map_eq_ok.mp taken
        exact .inr ⟨text, rfl⟩
    · cases field

theorem told_ofEntries {entries : List (String × Entry)}
    (done : record.ofMembers none [] members = .ok entries)
    (fits : record.Fits [] members) : Told (Record.legible members) (ofEntries entries) := by
  have code : entries.lookup "errcode" = ((Record.legible members).lookup "errcode").bind
      fun tree => (Entry.errcode <$> Reader.int64 tree).toOption :=
    Record.lookup_ofMembers done "errcode"
  have message : entries.lookup "errmsg" = ((Record.legible members).lookup "errmsg").bind
      fun tree => (Entry.errmsg <$> Reader.text tree).toOption :=
    Record.lookup_ofMembers done "errmsg"
  have parts : ofEntries entries = ⟨((entries.lookup "errcode").bind Entry.errcode?).getD 0,
      ((entries.lookup "errmsg").bind Entry.errmsg?).getD ""⟩ :=
    foldl_entries (fun _ _ _ => rfl) (fun _ _ _ => rfl) (typed_of_read done)
      (Record.entries_ofMembers done).1 ⟨0, ""⟩
  rw [parts, code, message]
  constructor
  · intro tree under
    obtain ⟨entry, read⟩ := fits.shaped "errcode" _ tree rfl under
    obtain ⟨i, taken, -⟩ := map_eq_ok.mp read
    rw [under]
    simpa [taken, Entry.errcode?, Except.toOption] using Reader.int64_eq_ok.mp taken
  · intro under
    rw [under]
    rfl
  · intro tree under
    obtain ⟨entry, read⟩ := fits.shaped "errmsg" _ tree rfl under
    obtain ⟨text, taken, -⟩ := map_eq_ok.mp read
    rw [under]
    simpa [taken, Entry.errmsg?, Except.toOption] using Reader.text_eq_ok.mp taken
  · intro under
    rw [under]
    rfl

/-- An object is read as a status exactly if it fits and tells this status. -/
theorem reader_object (inside : MembersWhole members) :
    reader (.object members none) = .ok status ↔
      record.Fits [] members ∧ Told (Record.legible members) status := by
  have exactly : (∃ entries, record.ofMembers none [] members = .ok entries) ↔
      record.Fits [] members := Record.ofMembers_iff_fits rfl inside []
  rw [reader, Record.readAs_eq_ok]
  constructor
  · rintro ⟨entries, done, same⟩
    cases same
    have fits := exactly.mp ⟨entries, done⟩
    exact ⟨fits, told_ofEntries done fits⟩
  · rintro ⟨fits, told⟩
    obtain ⟨entries, done⟩ := exactly.mpr fits
    exact ⟨entries, done, congrArg some ((told_ofEntries done fits).unique told)⟩

end Issuer.Status

namespace Grant

/-- The grant that an object tells, with its value under this name. -/
structure Told (name : String) (named : Named) (grant : Grant) : Prop where
  value : ∃ tree, named.lookup name = some tree ∧ tree.IsText grant.value
  expiry : ∃ tree, named.lookup "expires_in" = some tree ∧ tree.IsInt64 grant.expiresIn

variable {name : String} {members : List (Quoted × Tree)} {grant : Grant}

theorem lookup_name (name : String) : (record name).fields.lookup name =
    some fun tree => .value <$> Json.Reader.text tree :=
  List.lookup_cons_self

theorem lookup_expiry (other : name ≠ "expires_in") :
    (record name).fields.lookup "expires_in" =
      some fun tree => .expiresIn <$> Json.Reader.int64 tree := by
  rw [record, List.lookup_cons, beq_eq_false_iff_ne.mpr (Ne.symm other), List.lookup_cons_self]

/-- An object is read as a grant exactly if it fits and tells this grant. -/
theorem reader_object (other : name ≠ "expires_in") (inside : MembersWhole members) :
    reader name (.object members none) = .ok grant ↔
      (record name).Fits [] members ∧ Told name (Record.legible members) grant := by
  have exactly : (∃ entries, (record name).ofMembers none [] members = .ok entries) ↔
      (record name).Fits [] members := Record.ofMembers_iff_fits rfl inside []
  have entriesOf : ∀ {entries}, (record name).ofMembers none [] members = .ok entries →
      entries.lookup name = (((Record.legible members).lookup name).bind fun tree =>
          (Entry.value <$> Json.Reader.text tree).toOption) ∧
        entries.lookup "expires_in" = ((Record.legible members).lookup "expires_in").bind
          fun tree => (Entry.expiresIn <$> Json.Reader.int64 tree).toOption := by
    intro entries done
    have value := Record.lookup_ofMembers done name
    have expiry := Record.lookup_ofMembers done "expires_in"
    rw [lookup_name] at value
    rw [lookup_expiry other] at expiry
    exact ⟨value, expiry⟩
  rw [reader, Record.readAs_eq_ok]
  constructor
  · rintro ⟨entries, done, built⟩
    refine ⟨exactly.mp ⟨entries, done⟩, ?_⟩
    obtain ⟨value, expiry⟩ := entriesOf done
    simp only [Option.bind_eq_bind, Option.bind_eq_some_iff, Option.pure_def, Option.some.injEq]
      at built
    obtain ⟨entry, found, text, isText, second, foundToo, seconds, isInt, rfl⟩ := built
    obtain ⟨tree, under, read⟩ := Option.bind_eq_some_iff.mp (value.symm.trans found)
    obtain ⟨own, taken, rfl⟩ := map_eq_ok.mp (toOption_eq_some.mp read)
    obtain ⟨inner, underToo, readToo⟩ := Option.bind_eq_some_iff.mp (expiry.symm.trans foundToo)
    obtain ⟨number, takenToo, rfl⟩ := map_eq_ok.mp (toOption_eq_some.mp readToo)
    cases isText
    cases isInt
    exact ⟨⟨tree, under, Reader.text_eq_ok.mp taken⟩,
      ⟨inner, underToo, Reader.int64_eq_ok.mp takenToo⟩⟩
  · rintro ⟨fits, ⟨tree, under, isText⟩, ⟨second, underToo, isInt⟩⟩
    obtain ⟨entries, done⟩ := exactly.mpr fits
    obtain ⟨value, expiry⟩ := entriesOf done
    refine ⟨entries, done, ?_⟩
    rw [value, expiry, under, underToo]
    simp [Reader.text_eq_ok.mpr isText, Reader.int64_eq_ok.mpr isInt, Except.toOption,
      Functor.map, Except.map, Entry.value?, Entry.expiresIn?]

end Grant

section Both

variable {tree : Tree} {status : Issuer.Status} {grant : Grant} {name : String}

/-- What is read as a status is a whole object or an array that begins with a number, if at all. -/
theorem Issuer.Status.shape_of_reader (read : Issuer.Status.reader tree = .ok status) :
    (∃ members, tree = .object members none) ∨
      ∃ items fault, tree = .array items fault ∧
        ∀ first ∈ items.head?, ∃ n, first = .number n := by
  obtain ⟨entries, done, -⟩ := Record.readAs_eq_ok.mp read
  rcases Record.shape_of_read done with ⟨members, rfl, -⟩ | ⟨items, fault, rfl, done⟩
  · exact .inl ⟨members, rfl⟩
  · refine .inr ⟨items, fault, rfl, ?_⟩
    rcases Record.ofItems_head done with ⟨rfl, -⟩ | ⟨first, rest, value, rfl, taken⟩
    · nofun
    · rintro _ ⟨⟩
      obtain ⟨i, number, -⟩ := map_eq_ok.mp taken
      obtain ⟨n, rfl, -⟩ := Reader.int64_eq_ok.mp number
      exact ⟨n, rfl⟩

/-- What is read as a grant is a whole object, or an array whose first item is a text. -/
theorem Grant.shape_of_reader (read : Grant.reader name tree = .ok grant) :
    (∃ members, tree = .object members none) ∨
      ∃ items fault, tree = .array items fault ∧ ∃ q, items.head? = some (.string q) := by
  obtain ⟨entries, done, built⟩ := Record.readAs_eq_ok.mp read
  rcases Record.shape_of_read done with ⟨members, rfl, -⟩ | ⟨items, fault, rfl, done⟩
  · exact .inl ⟨members, rfl⟩
  · refine .inr ⟨items, fault, rfl, ?_⟩
    rcases Record.ofItems_head done with ⟨-, rfl⟩ | ⟨first, rest, value, rfl, taken⟩
    · cases built
    · obtain ⟨s, text, -⟩ := map_eq_ok.mp taken
      obtain ⟨q, rfl, -⟩ := Reader.text_eq_ok.mp text
      exact ⟨q, rfl⟩

/-- No array is both a status and a grant. -/
theorem object_of_both (told : Issuer.Status.reader tree = .ok status)
    (granted : Grant.reader name tree = .ok grant) : ∃ members, tree = .object members none := by
  rcases Issuer.Status.shape_of_reader told with object | ⟨items, fault, rfl, number⟩
  · exact object
  · rcases Grant.shape_of_reader granted with object | ⟨_, _, ⟨⟩, q, text⟩
    · exact object
    · obtain ⟨n, same⟩ := number _ text
      cases same

end Both

end Bearer

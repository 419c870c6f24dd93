import Bearer.Url.Percent

/-!
Names of hosts in ASCII. A URL of a special scheme has the name of its host put into ASCII, as
internationalized names prescribe: the characters of the name are folded by tables, and a label
that is left with characters beyond ASCII is written behind `xn--`. The tables are not part of this
library. `Idna` is what reading a URL relies on; `Idna.byTables` reads names by any tables, and
`PlainNames` those names that need none.
-/
namespace Bearer.Url

/-- The parts of a list between the elements equal to `sep`; there is always at least one. -/
def splitOn {α : Type} [DecidableEq α] (sep : α) : List α → List (List α)
  | [] => [[]]
  | a :: rest =>
    if a = sep then [] :: splitOn sep rest
    else
      match splitOn sep rest with
      | part :: parts => (a :: part) :: parts
      | [] => [[a]]

def forbiddenInDomain (b : UInt8) : Bool :=
  isControl b ||
    b ∈ [0x20, 0x23, 0x25, 0x2F, 0x3A, 0x3C, 0x3E, 0x3F, 0x40, 0x5B, 0x5C, 0x5D, 0x5E, 0x7C]

/-- A character of a name in ASCII. -/
structure NameChar (c : Char) : Prop where
  ascii : c.toNat < 0x80
  allowed : forbiddenInDomain c.toNat.toUInt8 = false
  small : c.toLower = c

instance (c : Char) : Decidable (NameChar c) :=
  decidable_of_iff
    (c.toNat < 0x80 ∧ forbiddenInDomain c.toNat.toUInt8 = false ∧ c.toLower = c)
    ⟨fun ⟨ascii, allowed, small⟩ => ⟨ascii, allowed, small⟩,
      fun ⟨ascii, allowed, small⟩ => ⟨ascii, allowed, small⟩⟩

/-- Bytes of ASCII in small letters. -/
def lowerName (bytes : List UInt8) : List Char :=
  bytes.map fun b => (asciiChar b).toLower

/-- Whether a label is written for characters beyond ASCII. -/
def isEncodedLabel (label : List Char) : Bool :=
  "xn--".toList.isPrefixOf label

/-- Whether a name of these bytes is put into ASCII by folding its letters alone. -/
def isPlainName (bytes : List UInt8) : Bool :=
  !bytes.any forbiddenInDomain && !(splitOn '.' (lowerName bytes)).any isEncodedLabel

/-- The name in ASCII that the bytes of a host stand for, where they stand for one. -/
class Idna where
  toAscii : List UInt8 → Option (List Char)
  /-- A name in ASCII has no capitals and none of the characters that a domain must not hold. -/
  written {bytes : List UInt8} {name : List Char} :
    toAscii bytes = some name → ∀ c ∈ name, NameChar c
  /-- A name that has been put into ASCII stands for itself. -/
  again {bytes : List UInt8} {name : List Char} :
    toAscii bytes = some name → toAscii (name.flatMap String.utf8EncodeChar) = some name
  /-- Without encoded labels, allowed bytes of ASCII stand for what they spell in small letters. -/
  plain {bytes : List UInt8} : isPlainName bytes = true → toAscii bytes = some (lowerName bytes)

section NameChars

/-- A byte that a domain may hold, in small letters. -/
theorem nameChar_of_byte : ∀ b : Fin 256, forbiddenInDomain (UInt8.ofFin b) = false →
    NameChar (asciiChar (UInt8.ofFin b)).toLower := by
  decide +kernel

theorem nameChar_of_plain {bytes : List UInt8} (plain : isPlainName bytes = true) :
    ∀ c ∈ lowerName bytes, NameChar c := by
  intro c member
  obtain ⟨b, among, rfl⟩ := List.mem_map.mp member
  simp only [isPlainName, Bool.and_eq_true, Bool.not_eq_true', List.any_eq_false] at plain
  exact nameChar_of_byte b.toFin (by simpa using plain.1 b among)

section Written

variable {name : List Char} (chars : ∀ c ∈ name, NameChar c)
include chars

/-- A name in ASCII is written with one byte for each character. -/
theorem name_bytes :
    name.flatMap String.utf8EncodeChar = name.map fun c => c.toNat.toUInt8 := by
  induction name with
  | nil => rfl
  | cons c rest ih =>
      obtain ⟨char, later⟩ := List.forall_mem_cons.mp chars
      rw [List.flatMap_cons, Text.utf8EncodeChar_low char.ascii, ih later, List.map_cons]
      rfl

theorem name_bytes_allowed :
    (name.flatMap String.utf8EncodeChar).any forbiddenInDomain = false := by
  rw [name_bytes chars, List.any_eq_false]
  intro b member
  obtain ⟨c, among, rfl⟩ := List.mem_map.mp member
  rw [(chars c among).allowed]
  exact Bool.false_ne_true

theorem lowerName_bytes : lowerName (name.flatMap String.utf8EncodeChar) = name := by
  rw [name_bytes chars, lowerName, List.map_map]
  refine (List.map_congr_left fun c among => ?_).trans (List.map_id name)
  have char := chars c among
  have value : c.toNat.toUInt8.toNat = c.toNat := by
    have ascii := char.ascii
    simp [Nat.toUInt8]
    omega
  rw [Function.comp_apply, asciiChar, value, Char.ofNat_toNat, char.small, id]

end Written

/-- A plain name is one in small letters too. -/
theorem isPlainName_lowerName {bytes : List UInt8} (plain : isPlainName bytes = true) :
    isPlainName ((lowerName bytes).flatMap String.utf8EncodeChar) = true := by
  have chars := nameChar_of_plain plain
  rw [isPlainName, name_bytes_allowed chars, lowerName_bytes chars]
  exact (Bool.and_eq_true_iff.mp plain).2

end NameChars

namespace Idna

/-- Whether a name in ASCII is a plain one or is left by the tables as it is. -/
def isSettled (tables : List UInt8 → Option (List Char)) (name : List Char) : Bool :=
  let bytes := name.flatMap String.utf8EncodeChar
  (name.all fun c => NameChar c) && (isPlainName bytes || tables bytes = some name)

theorem nameChar_of_isSettled {tables : List UInt8 → Option (List Char)} {name : List Char}
    (settled : isSettled tables name = true) : ∀ c ∈ name, NameChar c := by
  simp only [isSettled, Bool.and_eq_true, List.all_eq_true, decide_eq_true_eq] at settled
  exact settled.1

/-- Folds plain names, and puts others into ASCII by tables, as far as these leave what they have
given as it is. -/
@[reducible] def byTables (tables : List UInt8 → Option (List Char)) : Idna where
  toAscii bytes :=
    if isPlainName bytes then some (lowerName bytes)
    else (tables bytes).filter (isSettled tables)
  written := by
    intro bytes name read
    split at read
    · next plain =>
        cases read
        exact nameChar_of_plain plain
    · exact nameChar_of_isSettled (Option.filter_eq_some_iff.mp read).2
  again := by
    intro bytes name read
    split at read
    · next plain =>
        cases read
        rw [if_pos (isPlainName_lowerName plain), lowerName_bytes (nameChar_of_plain plain)]
    · have settled := (Option.filter_eq_some_iff.mp read).2
      split
      · rw [lowerName_bytes (nameChar_of_isSettled settled)]
      · next encoded =>
          have parts := settled
          simp only [isSettled, encoded, Bool.false_or, Bool.and_eq_true, decide_eq_true_eq] at parts
          exact Option.filter_eq_some_iff.mpr ⟨parts.2, settled⟩
  plain := fun plain => if_pos plain

end Idna

namespace PlainNames

/-- Reads the names that are put into ASCII by folding their letters alone, and no others. -/
scoped instance reader : Idna := .byTables fun _ => none

end PlainNames

end Bearer.Url

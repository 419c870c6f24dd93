import Bearer.Json.Scan

/-!
What a JSON value looks like, said without the scan. A value is a word, a number, a character string,
or values in brackets, with blanks between the signs; how deep the brackets go is not limited, and a
character string may hold units that make no text.
-/
namespace Bearer.Json

/-- Blanks, of which there may be any number between two signs. -/
structure Gap where
  bytes : List UInt8
  blank : ∀ b ∈ bytes, isSpace b = true

namespace Gap

def nothing : Gap :=
  ⟨[], nofun⟩

def wider (gap : Gap) (b : UInt8) (space : isSpace b = true) : Gap :=
  ⟨gap.bytes ++ [b], by
    intro c member
    rcases List.mem_append.mp member with before | last
    · exact gap.blank c before
    · rw [List.mem_singleton.mp last]
      exact space⟩

@[simp] theorem bytes_nothing : nothing.bytes = [] := rfl

@[simp] theorem bytes_wider (gap : Gap) (b : UInt8) (space : isSpace b = true) :
    (gap.wider b space).bytes = gap.bytes ++ [b] := rfl

end Gap

/-- One element of a character string as it is written: a byte that stands for itself, a letter
behind a backslash, or four digits behind `\u`. -/
inductive Mark where
  | byte (b : UInt8) (quote : b ≠ 0x22) (slash : b ≠ 0x5C) (printed : ¬b < 0x20)
  | short (letter meant : UInt8) (known : shortEscape letter = some meant)
  | unit (a b c d : UInt8) (n : Nat) (digits : unitOfHex a b c d = some n)

namespace Mark

def bytes : Mark → List UInt8
  | byte b _ _ _ => [b]
  | short letter _ _ => [0x5C, letter]
  | unit a b c d _ _ => [0x5C, 0x75, a, b, c, d]

def piece : Mark → Piece
  | byte b _ _ _ => .byte b
  | short _ meant _ => .byte meant
  | unit _ _ _ _ n _ => .unit n

/-- What stands between the quotes. -/
def spelled (marks : List Mark) : List UInt8 :=
  marks.flatMap bytes

/-- What is read from between the quotes. -/
def quoted (marks : List Mark) : Quoted :=
  ⟨marks.map piece, none⟩

theorem spelled_concat (marks : List Mark) (mark : Mark) :
    spelled (marks ++ [mark]) = spelled marks ++ mark.bytes := by
  simp [spelled]

end Mark

/-- A row of at least one digit. -/
structure Digits where
  bytes : List UInt8
  nonempty : bytes ≠ []
  digits : ∀ b ∈ bytes, isDigit b = true

namespace Digits

def single (b : UInt8) (digit : isDigit b = true) : Digits :=
  ⟨[b], List.cons_ne_nil _ _, by simpa using digit⟩

def longer (ds : Digits) (b : UInt8) (digit : isDigit b = true) : Digits :=
  ⟨ds.bytes ++ [b], by simp, by
    intro c member
    rcases List.mem_append.mp member with before | last
    · exact ds.digits c before
    · rw [List.mem_singleton.mp last]
      exact digit⟩

@[simp] theorem bytes_single (b : UInt8) (digit : isDigit b = true) :
    (single b digit).bytes = [b] := rfl

@[simp] theorem bytes_longer (ds : Digits) (b : UInt8) (digit : isDigit b = true) :
    (ds.longer b digit).bytes = ds.bytes ++ [b] := rfl

theorem head?_longer (ds : Digits) (b : UInt8) (digit : isDigit b = true) :
    (ds.longer b digit).bytes.head? = ds.bytes.head? := by
  obtain ⟨first, rest, shape⟩ := List.exists_cons_of_ne_nil ds.nonempty
  simp [shape]

end Digits

structure ExponentText where
  mark : UInt8
  sign : List UInt8
  digits : Digits
  marked : mark = 0x65 ∨ mark = 0x45
  signed : sign ∈ [[], [0x2B], [0x2D]]

def ExponentText.bytes (exponent : ExponentText) : List UInt8 :=
  exponent.mark :: exponent.sign ++ exponent.digits.bytes

/-- A number as it is written. Only a zero that stands alone begins the whole part. -/
structure NumberText where
  negative : Bool
  whole : Digits
  fraction : Option Digits
  exponent : Option ExponentText
  leading : whole.bytes = [0x30] ∨ whole.bytes.head? ≠ some 0x30

namespace NumberText

def signBytes (negative : Bool) : List UInt8 :=
  if negative then [0x2D] else []

def fractionBytes : Option Digits → List UInt8
  | some ds => 0x2E :: ds.bytes
  | none => []

def exponentBytes : Option ExponentText → List UInt8
  | some exponent => exponent.bytes
  | none => []

def bytes (n : NumberText) : List UInt8 :=
  signBytes n.negative ++ n.whole.bytes ++ fractionBytes n.fraction ++ exponentBytes n.exponent

end NumberText

/-- A value between blanks. -/
structure Item where
  before : Gap
  word : List UInt8
  after : Gap

def Item.bytes (item : Item) : List UInt8 :=
  item.before.bytes ++ item.word ++ item.after.bytes

/-- A name, a colon and a value. -/
structure Member where
  before : Gap
  name : List Mark
  after : Gap
  value : Item

namespace Member

def key (member : Member) : Quoted :=
  Mark.quoted member.name

def bytes (member : Member) : List UInt8 :=
  member.before.bytes ++ 0x22 :: Mark.spelled member.name ++ 0x22 :: member.after.bytes ++
    0x3A :: member.value.bytes

end Member

def arrayText (gap : Gap) (items : List Item) : List UInt8 :=
  0x5B :: gap.bytes ++ [0x2C].intercalate (items.map Item.bytes) ++ [0x5D]

def objectText (gap : Gap) (members : List Member) : List UInt8 :=
  0x7B :: gap.bytes ++ [0x2C].intercalate (members.map Member.bytes) ++ [0x7D]

/-- The bytes are those of a value. -/
inductive Written : List UInt8 → Prop where
  | null : Written [0x6E, 0x75, 0x6C, 0x6C]
  | true : Written [0x74, 0x72, 0x75, 0x65]
  | false : Written [0x66, 0x61, 0x6C, 0x73, 0x65]
  | number (n : NumberText) : Written n.bytes
  | text (marks : List Mark) : Written (0x22 :: Mark.spelled marks ++ [0x22])
  | array (gap : Gap) (items : List Item) (each : ∀ item ∈ items, Written item.word) :
      Written (arrayText gap items)
  | object (gap : Gap) (members : List Member)
      (each : ∀ member ∈ members, Written member.value.word) : Written (objectText gap members)

/-- A value in brackets. -/
inductive Bracketed : List UInt8 → Prop where
  | array (gap : Gap) (items : List Item) (each : ∀ item ∈ items, Written item.word) :
      Bracketed (arrayText gap items)
  | object (gap : Gap) (members : List Member)
      (each : ∀ member ∈ members, Written member.value.word) :
      Bracketed (objectText gap members)

theorem Bracketed.written {word : List UInt8} (bracketed : Bracketed word) : Written word := by
  cases bracketed with
  | array gap items each => exact .array gap items each
  | object gap members each => exact .object gap members each

/-- Parts of a list, each with the comma behind it. -/
def listed (parts : List (List UInt8)) : List UInt8 :=
  parts.flatMap (· ++ [0x2C])

@[simp] theorem listed_nil : listed [] = [] := rfl

theorem listed_concat (parts : List (List UInt8)) (last : List UInt8) :
    listed (parts ++ [last]) = listed parts ++ last ++ [0x2C] := by
  simp [listed]

theorem intercalate_concat (parts : List (List UInt8)) (last : List UInt8) :
    [0x2C].intercalate (parts ++ [last]) = listed parts ++ last := by
  induction parts with
  | nil => simp [List.intercalate]
  | cons part rest ih =>
      obtain ⟨second, later, shape⟩ := List.exists_cons_of_ne_nil
        (List.append_ne_nil_of_right_ne_nil rest (List.cons_ne_nil last []))
      rw [List.cons_append, shape, List.intercalate_cons_cons, ← shape, ih, listed, listed,
        List.flatMap_cons]
      simp only [List.append_assoc]

end Bearer.Json

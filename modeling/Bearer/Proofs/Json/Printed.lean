import Mathlib
import Bearer.Proofs.Json.Quoting

/-!
Values that are written are read as they were meant. What a scan makes of a value does not depend on
the brackets around it, so a list or a record is read piece by piece.
-/
namespace Bearer

namespace Decimal

variable {d : Nat}

theorem digitByte_low (small : d < 10) : (digitByte d).toNat < 0x80 := by
  interval_cases d <;> decide

theorem isUtf8_natBytes (n : Nat) : Text.IsUtf8 (natBytes n) := by
  apply Text.isUtf8_of_low
  intro b member
  obtain ⟨d, digit, rfl⟩ := List.mem_map.mp member
  exact digitByte_low (lt_of_mem_digits n d digit)

theorem isUtf8_intBytes (i : Int) : Text.IsUtf8 (intBytes i) := by
  cases i with
  | ofNat n => exact isUtf8_natBytes n
  | negSucc n =>
      have sign : Text.IsUtf8 [0x2D] := Text.isUtf8_ascii (by decide)
      exact sign.append (isUtf8_natBytes (n + 1))

end Decimal

namespace Json

/-- A scan that is through with a value. A byte that can follow the value in a container is taken
as behind a value that is handed on, and the end of the text as the end of the value. -/
structure Scan.Through (scan : Scan) (tree : Tree) (frames : List Frame) : Prop where
  next : ∀ b ∈ [0x2C, 0x5D, 0x7D], scan.step b = (Scan.deliver tree frames).step b
  last : frames = [] → scan.finish = (tree, true)

/-- The bytes are a text that is read as this tree, wherever a value can stand. -/
structure Spells (bytes : List UInt8) (tree : Tree) : Prop where
  text : Text.IsUtf8 bytes
  scan : ∀ first frames,
    (bytes.foldl Scan.step (.reading (.value first) frames)).Through tree frames

theorem Scan.through_deliver (tree : Tree) (frames : List Frame) :
    (Scan.deliver tree frames).Through tree frames where
  next := fun _ _ => rfl
  last := by rintro rfl; rfl

theorem Scan.after_deliver (b : UInt8) (tree : Tree) (frames : List Frame) :
    Scan.after b (deliver tree frames) = (deliver tree frames).step b := by
  cases frames with
  | nil => rfl
  | cons frame rest => cases frame <;> rfl

theorem Spells.scan_eq {bytes : List UInt8} {tree : Tree} (spells : Spells bytes tree) :
    Tree.scan bytes = (tree, true) :=
  (spells.scan false []).last rfl

section Numbers

variable {d n : Nat} {negative : Bool} {frames : List Frame}

theorem isDigit_digitByte (small : d < 10) : isDigit (Decimal.digitByte d) = true := by
  interval_cases d <;> rfl

theorem digitOf_digitByte (small : d < 10) : digitOf (Decimal.digitByte d) = d := by
  interval_cases d <;> rfl

theorem first_digitByte (small : d < 10) :
    NumeralScan.first negative (Decimal.digitByte d) =
      ⟨if d = 0 then .zero else .whole, negative, [d], none, none⟩ := by
  interval_cases d <;> rfl

theorem atValue_digitByte (small : d < 10) (first : Bool) (frames : List Frame) :
    Scan.atValue first frames (Decimal.digitByte d) =
      .reading (.number (.first false (Decimal.digitByte d))) frames := by
  interval_cases d <;> rfl

/-- The scan behind the digits of a number. -/
def behindDigits (negative : Bool) (n : Nat) : NumeralScan :=
  ⟨if n = 0 then .zero else .whole, negative, (Decimal.digits n).reverse, none, none⟩

/-- Digits are taken one by one, whether a sign stands before them or not. -/
theorem foldl_natBytes {scan : Scan}
    (begins : ∀ d < 10, scan.step (Decimal.digitByte d) =
      .reading (.number (.first negative (Decimal.digitByte d))) frames) (n : Nat) :
    (Decimal.natBytes n).foldl Scan.step scan =
      .reading (.number (behindDigits negative n)) frames := by
  unfold Decimal.natBytes behindDigits
  induction n using Decimal.digits.induct with
  | case1 n small =>
      rw [Decimal.digits, if_pos small, List.map_singleton, List.foldl_cons, List.foldl_nil,
        begins n small, first_digitByte small, List.reverse_singleton]
  | case2 n large ih =>
      have more : n / 10 ≠ 0 := by omega
      have positive : n ≠ 0 := by omega
      have small : n % 10 < 10 := by omega
      rw [Decimal.digits, if_neg large, List.map_append, List.foldl_append, ih]
      simp only [more, positive, if_false, List.map_singleton, List.foldl_cons, List.foldl_nil,
        Scan.step, NumeralScan.step, isDigit_digitByte small, digitOf_digitByte small, if_true,
        List.reverse_append, List.reverse_singleton, List.singleton_append]

theorem through_behindDigits (negative : Bool) (n : Nat) (frames : List Frame) :
    (Scan.reading (.number (behindDigits negative n)) frames).Through
      (.number (behindDigits negative n).numeral) frames where
  next := by
    intro b member
    have ends : (behindDigits negative n).step b = .ok none := by
      simp only [List.mem_cons, List.not_mem_nil, or_false] at member
      unfold behindDigits
      by_cases zero : n = 0
      · rcases member with rfl | rfl | rfl <;> simp [zero, NumeralScan.step, isDigit]
      · rcases member with rfl | rfl | rfl <;> simp [zero, NumeralScan.step, isDigit]
    simp only [Scan.step, ends]
    exact Scan.after_deliver _ _ _
  last := by
    rintro rfl
    have complete : (behindDigits negative n).complete = true := by
      unfold behindDigits
      by_cases zero : n = 0 <;> simp [zero, NumeralScan.complete]
    simp only [Scan.finish, Scan.atEnd, complete, if_true, Scan.deliver]

/-- An integer as it is read. -/
def numeralOf (i : Int) : Numeral :=
  ⟨i < 0, Decimal.digits i.natAbs, none, none⟩

theorem numeral_behindDigits (negative : Bool) (n : Nat) :
    (behindDigits negative n).numeral = ⟨negative, Decimal.digits n, none, none⟩ := by
  simp [behindDigits, NumeralScan.numeral]

theorem toInt?_numeralOf {i : Int} (low : -0x8000000000000000 ≤ i) (high : i < 0x10000000000000000) :
    (numeralOf i).toInt? = some i := by
  have value : (numeralOf i).magnitude = i.natAbs := Decimal.ofDigits_digits i.natAbs
  have plain : (numeralOf i).fraction.isSome = false ∧ (numeralOf i).exponent.isSome = false :=
    ⟨rfl, rfl⟩
  have shift : (1 <<< 63 : Nat) = 0x8000000000000000 ∧ (1 <<< 64 : Nat) = 0x10000000000000000 :=
    ⟨by decide, by decide⟩
  simp only [Numeral.toInt?, value, plain.1, plain.2, shift.1, shift.2, Bool.or_false,
    Bool.false_eq_true, if_false]
  by_cases minus : i < 0
  · have size : 1 ≤ i.natAbs ∧ i.natAbs ≤ 0x8000000000000000 := by omega
    simp only [numeralOf, minus, decide_true, if_true, size]
    simp only [and_self, if_true, Option.some.injEq]
    omega
  · have size : i.natAbs < 0x10000000000000000 := by omega
    simp only [numeralOf, minus, decide_false, Bool.false_eq_true, if_false, size, if_true,
      Option.some.injEq]
    omega

theorem numeralOf_ofNat (n : Nat) : numeralOf (.ofNat n) = (behindDigits false n).numeral := by
  rw [numeral_behindDigits]
  rfl

theorem numeralOf_negSucc (n : Nat) :
    numeralOf (.negSucc n) = (behindDigits true (n + 1)).numeral := by
  rw [numeral_behindDigits, numeralOf, decide_eq_true (Int.negSucc_lt_zero n), Int.natAbs_negSucc]

theorem spells_int (i : Int) : Spells (Decimal.intBytes i) (.number (numeralOf i)) where
  text := Decimal.isUtf8_intBytes i
  scan := by
    intro first frames
    cases i with
    | ofNat n =>
        have begins : ∀ d < 10, Scan.step (.reading (.value first) frames) (Decimal.digitByte d) =
            .reading (.number (.first false (Decimal.digitByte d))) frames :=
          fun d small => atValue_digitByte small first frames
        rw [Decimal.intBytes, foldl_natBytes begins, numeralOf_ofNat]
        exact through_behindDigits false n frames
    | negSucc n =>
        have signed : Scan.step (.reading (.value first) frames) 0x2D =
            .reading (.number ⟨.sign, true, [], none, none⟩) frames := rfl
        have begins : ∀ d < 10,
            Scan.step (.reading (.number ⟨.sign, true, [], none, none⟩) frames)
              (Decimal.digitByte d) =
            .reading (.number (.first true (Decimal.digitByte d))) frames := by
          intro d small
          simp only [Scan.step, NumeralScan.step, isDigit_digitByte small, if_true]
        rw [Decimal.intBytes, List.foldl_cons, signed, foldl_natBytes begins, numeralOf_negSucc]
        exact through_behindDigits true (n + 1) frames

end Numbers

section Strings

theorem stop_quoted (s : String) :
    QuotedScan.step ⟨(quoted s).pieces.reverse, .plain⟩ 0x22 = .error (quoted s) := by
  have pieces : (quoted s).pieces.reverse.reverse = (quoted s).pieces := List.reverse_reverse _
  simp only [QuotedScan.step, QuotedScan.stop, beq_self_eq_true, if_true, pieces]
  rfl

theorem spells_quote (s : String) : Spells (quote s) (.string (quoted s)) where
  text := isUtf8_quote s
  scan := by
    intro first frames
    have begun : Scan.step (.reading (.value first) frames) 0x22 =
        .reading (.text .empty) frames := rfl
    have inside := (carries_text frames).foldl_text s
    have closed : Scan.step (.reading (.text ⟨(quoted s).pieces.reverse, .plain⟩) frames) 0x22 =
        .deliver (.string (quoted s)) frames := by
      simp only [Scan.step, stop_quoted]
      rfl
    rw [quote, List.cons_append, List.foldl_cons, List.foldl_append, begun, inside,
      List.foldl_cons, List.foldl_nil, closed]
    exact Scan.through_deliver _ _

/-- The name of a member and the colon behind it, before whatever follows. -/
theorem foldl_key (name : String) (rest : List UInt8) (members : List (Quoted × Tree))
    (first : Bool) (frames : List Frame) :
    (quote name ++ 0x3A :: rest).foldl Scan.step (.reading (.key members first) frames) =
      rest.foldl Scan.step (.reading (.value false) (.object members (quoted name) :: frames)) := by
  have begun : Scan.step (.reading (.key members first) frames) 0x22 =
      .reading (.keyText members .empty) frames := rfl
  have inside := (carries_keyText members frames).foldl_text name
  have closed :
      Scan.step (.reading (.keyText members ⟨(quoted name).pieces.reverse, .plain⟩) frames) 0x22 =
        .reading (.colon members (quoted name)) frames := by
    simp only [Scan.step, stop_quoted]
    rfl
  have parted : Scan.step (.reading (.colon members (quoted name)) frames) 0x3A =
      .reading (.value false) (.object members (quoted name) :: frames) := rfl
  simp only [quote, List.cons_append, List.foldl_cons, List.foldl_append, List.foldl_nil, begun,
    inside, closed, parted]

end Strings

section Containers

variable {frames : List Frame}

/-- Items up to the closing bracket, by induction on the list; before the first of them others may
have been read. -/
theorem foldl_itemBytes {values : List Value} {trees : List Tree}
    (each : List.Forall₂ (fun value tree => Spells value.bytes tree) values trees)
    (nonempty : values ≠ []) (first : Bool) (before : List Tree) :
    (Value.itemBytes values ++ [0x5D]).foldl Scan.step
        (.reading (.value first) (.array before :: frames)) =
      .deliver (arrayOf (trees.reverse ++ before) none) frames := by
  induction each generalizing first before with
  | nil => exact absurd rfl nonempty
  | @cons value tree others below spells later ih =>
      have through := spells.scan first (.array before :: frames)
      cases later with
      | nil =>
          rw [Value.itemBytes, List.foldl_append, List.foldl_cons, List.foldl_nil,
            through.next 0x5D (by decide)]
          rfl
      | @cons second tree' others below spells' later =>
          have parted : Scan.step (.deliver tree (.array before :: frames)) 0x2C =
              .reading (.value false) (.array (tree :: before) :: frames) := rfl
          rw [Value.itemBytes, List.append_assoc, List.foldl_append, List.cons_append,
            List.foldl_cons, through.next 0x2C (by decide), parted, ih (List.cons_ne_nil _ _)]
          simp only [List.reverse_cons, List.append_assoc, List.cons_append, List.nil_append]

theorem isUtf8_itemBytes {values : List Value} (each : ∀ value ∈ values, Text.IsUtf8 value.bytes) :
    Text.IsUtf8 (Value.itemBytes values) := by
  have comma : Text.IsUtf8 [0x2C] := Text.isUtf8_ascii (by decide)
  induction values with
  | nil => rw [Value.itemBytes]; exact Text.isUtf8_nil
  | cons value rest ih =>
      obtain ⟨here, later⟩ := List.forall_mem_cons.mp each
      cases rest with
      | nil => rw [Value.itemBytes]; exact here
      | cons second rest => rw [Value.itemBytes]; exact here.append (comma.append (ih later))

theorem forall_text {values : List Value} {trees : List Tree}
    (each : List.Forall₂ (fun value tree => Spells value.bytes tree) values trees) :
    ∀ value ∈ values, Text.IsUtf8 value.bytes := by
  induction each with
  | nil => exact List.forall_mem_nil _
  | cons spells _ ih => exact List.forall_mem_cons.mpr ⟨spells.text, ih⟩

theorem spells_array {values : List Value} {trees : List Tree}
    (each : List.Forall₂ (fun value tree => Spells value.bytes tree) values trees) :
    Spells (Value.array values).bytes (.array trees none) where
  text := by
    have opening : Text.IsUtf8 [0x5B] := Text.isUtf8_ascii (by decide)
    have closing : Text.IsUtf8 [0x5D] := Text.isUtf8_ascii (by decide)
    rw [Value.bytes]
    exact (opening.append (isUtf8_itemBytes (forall_text each))).append closing
  scan := by
    intro first frames
    have opened : Scan.step (.reading (.value first) frames) 0x5B =
        .reading (.value true) (.array [] :: frames) := rfl
    have whole : (Value.itemBytes values ++ [0x5D]).foldl Scan.step
        (.reading (.value true) (.array [] :: frames)) = .deliver (.array trees none) frames := by
      cases each with
      | nil => rw [Value.itemBytes]; rfl
      | cons spells later =>
          rw [foldl_itemBytes (.cons spells later) (List.cons_ne_nil _ _), List.append_nil,
            arrayOf, List.reverse_reverse]
    rw [Value.bytes, List.cons_append, List.foldl_cons, opened, whole]
    exact Scan.through_deliver _ _

/-- A member is read as a pair of its name and what is read under it. -/
def MemberSpells (member : String × Value) (read : Quoted × Tree) : Prop :=
  read.1 = quoted member.1 ∧ Spells member.2.bytes read.2

theorem foldl_memberBytes {members : List (String × Value)} {trees : List (Quoted × Tree)}
    (each : List.Forall₂ MemberSpells members trees) (nonempty : members ≠ []) (first : Bool)
    (before : List (Quoted × Tree)) :
    (Value.memberBytes members ++ [0x7D]).foldl Scan.step (.reading (.key before first) frames) =
      .deliver (objectOf (trees.reverse ++ before) none) frames := by
  induction each generalizing first before with
  | nil => exact absurd rfl nonempty
  | @cons member read others below spells later ih =>
      obtain ⟨name, value⟩ := member
      obtain ⟨key, tree⟩ := read
      obtain ⟨rfl, spells⟩ := spells
      have through := spells.scan false (.object before (quoted name) :: frames)
      cases later with
      | nil =>
          rw [Value.memberBytes, List.foldl_append, foldl_key, List.foldl_cons, List.foldl_nil,
            through.next 0x7D (by decide)]
          rfl
      | @cons second tree' others below spells' later =>
          have parted : Scan.step (.deliver tree (.object before (quoted name) :: frames)) 0x2C =
              .reading (.key ((quoted name, tree) :: before) false) frames := rfl
          rw [Value.memberBytes, List.append_assoc, List.foldl_append, foldl_key, List.cons_append,
            List.foldl_cons, through.next 0x2C (by decide), parted, ih (List.cons_ne_nil _ _)]
          simp only [List.reverse_cons, List.append_assoc, List.cons_append, List.nil_append]

theorem isUtf8_memberBytes {members : List (String × Value)}
    (each : ∀ member ∈ members, Text.IsUtf8 member.2.bytes) :
    Text.IsUtf8 (Value.memberBytes members) := by
  have comma : Text.IsUtf8 [0x2C] := Text.isUtf8_ascii (by decide)
  have colon : Text.IsUtf8 [0x3A] := Text.isUtf8_ascii (by decide)
  induction members with
  | nil => rw [Value.memberBytes]; exact Text.isUtf8_nil
  | cons member rest ih =>
      obtain ⟨name, value⟩ := member
      obtain ⟨here, later⟩ := List.forall_mem_cons.mp each
      have first := (isUtf8_quote name).append (colon.append here)
      cases rest with
      | nil => rw [Value.memberBytes]; exact first
      | cons second rest =>
          rw [Value.memberBytes]
          exact first.append (comma.append (ih later))

theorem spells_object {members : List (String × Value)} {trees : List (Quoted × Tree)}
    (each : List.Forall₂ MemberSpells members trees) :
    Spells (Value.object members).bytes (.object trees none) where
  text := by
    have opening : Text.IsUtf8 [0x7B] := Text.isUtf8_ascii (by decide)
    have closing : Text.IsUtf8 [0x7D] := Text.isUtf8_ascii (by decide)
    have inside : ∀ member ∈ members, Text.IsUtf8 member.2.bytes := by
      induction each with
      | nil => exact List.forall_mem_nil _
      | cons spells _ ih => exact List.forall_mem_cons.mpr ⟨spells.2.text, ih⟩
    rw [Value.bytes]
    exact (opening.append (isUtf8_memberBytes inside)).append closing
  scan := by
    intro first frames
    have opened : Scan.step (.reading (.value first) frames) 0x7B =
        .reading (.key [] true) frames := rfl
    have whole : (Value.memberBytes members ++ [0x7D]).foldl Scan.step
        (.reading (.key [] true) frames) = .deliver (.object trees none) frames := by
      cases each with
      | nil => rw [Value.memberBytes]; rfl
      | cons spells later =>
          rw [foldl_memberBytes (.cons spells later) (List.cons_ne_nil _ _), List.append_nil,
            objectOf, List.reverse_reverse]
    rw [Value.bytes, List.cons_append, List.foldl_cons, opened, whole]
    exact Scan.through_deliver _ _

end Containers

end Json

end Bearer

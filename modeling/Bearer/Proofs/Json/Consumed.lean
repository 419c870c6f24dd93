import Mathlib
import Bearer.Proofs.Json.Grammar
import Bearer.Proofs.Json.Printed

/-!
Written values are consumed exactly. Whatever a value holds, and however deep, the scan is behind it
when its last byte is taken, and hands on one tree that depends on nothing around the value.
-/
namespace Bearer.Json

/-- What may come next behind a value: a blank, a comma or a closing bracket. -/
def followers : List UInt8 :=
  [0x20, 0x0A, 0x0D, 0x09, 0x2C, 0x5D, 0x7D]

theorem space_follows {b : UInt8} (space : isSpace b = true) : b ∈ followers := by
  simp only [isSpace, Bool.or_eq_true, beq_iff_eq] at space
  rcases space with ((rfl | rfl) | rfl) | rfl <;> decide

/-- Wherever a value may stand, these bytes are read as this tree, and what follows is taken as
behind the value. -/
def Consumes (word : List UInt8) (tree : Tree) : Prop :=
  ∀ first frames b, b ∈ followers →
    (word ++ [b]).foldl Scan.step (.reading (.value first) frames) =
      (Scan.deliver tree frames).step b

theorem consumes_of_deliver {word : List UInt8} {tree : Tree}
    (delivers : ∀ first frames,
      word.foldl Scan.step (.reading (.value first) frames) = .deliver tree frames) :
    Consumes word tree := by
  intro first frames b _
  rw [List.foldl_append, delivers, List.foldl_cons, List.foldl_nil]

/-- The tree of a value. -/
def treeOf (word : List UInt8) : Tree :=
  Tree.ofBytes (word ++ [0x20])

theorem Consumes.eq_treeOf {word : List UInt8} {tree : Tree} (consumes : Consumes word tree) :
    tree = treeOf word := by
  have scanned : Scan.run (word ++ [0x20]) = .done tree true :=
    consumes false [] 0x20 (by decide)
  rw [treeOf, Tree.ofBytes, Tree.scan, scanned]
  rfl

section Blanks

variable {scan : Scan} {frames : List Frame}

theorem foldl_gap (absorbs : ∀ b, isSpace b = true → scan.step b = scan) (gap : Gap) :
    gap.bytes.foldl Scan.step scan = scan := by
  obtain ⟨bytes, blank⟩ := gap
  induction bytes with
  | nil => rfl
  | cons b rest ih =>
      obtain ⟨space, later⟩ := List.forall_mem_cons.mp blank
      rw [List.foldl_cons, absorbs b space, ih later]

theorem value_absorbs (first : Bool) (frames : List Frame) (b : UInt8)
    (space : isSpace b = true) :
    Scan.step (.reading (.value first) frames) b = .reading (.value first) frames := by
  simp only [Scan.step, Scan.atValue, space, if_true]

theorem key_absorbs (members : List (Quoted × Tree)) (first : Bool) (frames : List Frame)
    (b : UInt8) (space : isSpace b = true) :
    Scan.step (.reading (.key members first) frames) b =
      .reading (.key members first) frames := by
  simp only [Scan.step, space, if_true]

theorem colon_absorbs (members : List (Quoted × Tree)) (key : Quoted) (frames : List Frame)
    (b : UInt8) (space : isSpace b = true) :
    Scan.step (.reading (.colon members key) frames) b = .reading (.colon members key) frames := by
  simp only [Scan.step, space, if_true]

theorem deliver_absorbs (tree : Tree) (frames : List Frame) (b : UInt8)
    (space : isSpace b = true) :
    (Scan.deliver tree frames).step b = Scan.deliver tree frames := by
  cases frames with
  | nil => simp only [Scan.deliver, Scan.step, space, Bool.and_self]
  | cons frame rest =>
      cases frame with
      | array items => simp only [Scan.deliver, Scan.step, Scan.betweenItems, space, if_true]
      | object members key =>
          simp only [Scan.deliver, Scan.step, Scan.betweenMembers, space, if_true]

end Blanks

section Numbers

/-- A number under way goes on over these bytes. -/
def NumeralScan.Goes (n : NumeralScan) (bytes : List UInt8) (m : NumeralScan) : Prop :=
  ∀ frames, bytes.foldl Scan.step (.reading (.number n) frames) = .reading (.number m) frames

variable {n m k : NumeralScan} {a c : List UInt8} {b : UInt8}

theorem NumeralScan.Goes.append (first : n.Goes a m) (second : m.Goes c k) :
    n.Goes (a ++ c) k := by
  intro frames
  rw [List.foldl_append, first frames, second frames]

theorem NumeralScan.goes_step (steps : n.step b = .ok (some m)) : n.Goes [b] m := by
  intro frames
  simp only [List.foldl_cons, List.foldl_nil, Scan.step, steps]

/-- The parts of a number that any further digit belongs to. -/
def NumeralPart.TakesDigits (part : NumeralPart) : Prop :=
  part ∈ [.whole, .fraction, .exponent]

theorem NumeralPart.takes_whole : TakesDigits .whole := by
  simp [TakesDigits]

theorem NumeralPart.takes_fraction : TakesDigits .fraction := by
  simp [TakesDigits]

theorem NumeralPart.takes_exponent : TakesDigits .exponent := by
  simp [TakesDigits]

theorem NumeralScan.digit_goes (takes : n.part.TakesDigits) (digit : isDigit b = true) :
    ∃ m, m.part = n.part ∧ n.Goes [b] m := by
  have steps : ∃ m, n.step b = .ok (some m) ∧ m.part = n.part := by
    simp only [NumeralPart.TakesDigits, List.mem_cons, List.not_mem_nil, or_false] at takes
    rcases takes with part | part | part
    · exact ⟨_, by simp only [step, part, digit, if_true]; rfl, part.symm⟩
    · exact ⟨_, by simp only [step, part, digit, if_true]; rfl, part.symm⟩
    · exact ⟨_, by simp only [step, part, digit, if_true]; rfl, part.symm⟩
  obtain ⟨m, steps, part⟩ := steps
  exact ⟨m, part, goes_step steps⟩

theorem NumeralScan.digits_go (takes : n.part.TakesDigits) {bytes : List UInt8}
    (digits : ∀ b ∈ bytes, isDigit b = true) : ∃ m, m.part = n.part ∧ n.Goes bytes m := by
  induction bytes generalizing n with
  | nil => exact ⟨n, rfl, fun _ => rfl⟩
  | cons b rest ih =>
      obtain ⟨digit, later⟩ := List.forall_mem_cons.mp digits
      obtain ⟨m, part, first⟩ := digit_goes takes digit
      obtain ⟨k, same, second⟩ := ih (part.symm ▸ takes) later
      exact ⟨k, same.trans part, first.append second⟩

/-- A row of digits that begins a part takes the number through it. -/
theorem NumeralScan.row_goes {part : NumeralPart} (takes : part.TakesDigits)
    (begins : ∀ b, isDigit b = true → ∃ m, m.part = part ∧ n.Goes [b] m) (ds : Digits) :
    ∃ m, m.part = part ∧ n.Goes ds.bytes m := by
  obtain ⟨bytes, nonempty, digits⟩ := ds
  obtain ⟨b, rest, rfl⟩ := List.exists_cons_of_ne_nil nonempty
  obtain ⟨digit, later⟩ := List.forall_mem_cons.mp digits
  obtain ⟨m, here, first⟩ := begins b digit
  obtain ⟨k, same, second⟩ := digits_go (here.symm ▸ takes) later
  exact ⟨k, same.trans here, first.append second⟩

theorem NumeralScan.digit_begins {part : NumeralPart}
    (before : n.part = .point ∧ part = .fraction ∨
      (n.part = .mark ∨ n.part = .markSign) ∧ part = .exponent) (digit : isDigit b = true) :
    ∃ m, m.part = part ∧ n.Goes [b] m := by
  have steps : ∃ m, n.step b = .ok (some m) ∧ m.part = part := by
    rcases before with ⟨here, rfl⟩ | ⟨here | here, rfl⟩
    · exact ⟨_, by simp only [step, here, digit, if_true]; rfl, rfl⟩
    · exact ⟨_, by simp only [step, here, digit, if_true]; rfl, rfl⟩
    · exact ⟨_, by simp only [step, here, digit, if_true]; rfl, rfl⟩
  obtain ⟨m, steps, part⟩ := steps
  exact ⟨m, part, goes_step steps⟩

theorem NumeralScan.fraction_goes (before : n.part = .zero ∨ n.part = .whole)
    (fraction : Option Digits) :
    ∃ m, (m.part = .zero ∨ m.part = .whole ∨ m.part = .fraction) ∧
      n.Goes (NumberText.fractionBytes fraction) m := by
  cases fraction with
  | none => exact ⟨n, before.imp_right .inl, fun _ => rfl⟩
  | some ds =>
      have pointed : ∃ m, n.step 0x2E = .ok (some m) ∧ m.part = .point := by
        rcases before with here | here
        · exact ⟨_, by simp only [step, here]; rfl, rfl⟩
        · exact ⟨_, by simp only [step, here]; rfl, rfl⟩
      obtain ⟨m, steps, point⟩ := pointed
      obtain ⟨k, part, row⟩ := row_goes NumeralPart.takes_fraction
        (fun b digit => digit_begins (.inl ⟨point, rfl⟩) digit) ds
      exact ⟨k, .inr (.inr part), (goes_step steps).append row⟩

theorem NumeralScan.exponent_goes
    (before : n.part = .zero ∨ n.part = .whole ∨ n.part = .fraction)
    (exponent : Option ExponentText) :
    ∃ m, m.complete = true ∧ n.Goes (NumberText.exponentBytes exponent) m := by
  cases exponent with
  | none =>
      refine ⟨n, ?_, fun _ => rfl⟩
      rcases before with here | here | here <;> simp only [complete, here]
  | some exponent =>
      obtain ⟨mark, sign, ds, marked, signed⟩ := exponent
      have begun : ∃ m, n.step mark = .ok (some m) ∧ m.part = .mark := by
        rcases marked with rfl | rfl <;> rcases before with here | here | here <;>
          exact ⟨_, by simp only [step, here]; rfl, rfl⟩
      obtain ⟨m, steps, marking⟩ := begun
      have turned : ∃ k, (k.part = .mark ∨ k.part = .markSign) ∧ m.Goes sign k := by
        simp only [List.mem_cons, List.not_mem_nil, or_false] at signed
        rcases signed with rfl | rfl | rfl
        · exact ⟨m, .inl marking, fun _ => rfl⟩
        · exact ⟨_, .inr rfl, goes_step (by simp only [step, marking]; rfl)⟩
        · exact ⟨_, .inr rfl, goes_step (by simp only [step, marking]; rfl)⟩
      obtain ⟨k, signing, signGoes⟩ := turned
      obtain ⟨last, part, row⟩ := row_goes NumeralPart.takes_exponent
        (fun b digit => digit_begins (.inr ⟨signing, rfl⟩) digit) ds
      refine ⟨last, by simp only [complete, part], ?_⟩
      exact ((goes_step steps).append signGoes).append row

theorem exists_digitByte (digit : isDigit b = true) : ∃ d < 10, b = Decimal.digitByte d := by
  simp only [isDigit, Bool.and_eq_true, decide_eq_true_eq, UInt8.le_iff_toNat_le] at digit
  have low : 0x30 ≤ b.toNat := digit.1
  have high : b.toNat ≤ 0x39 := digit.2
  refine ⟨b.toNat - 0x30, by omega, UInt8.toNat_inj.mp ?_⟩
  rw [Decimal.digitByte, UInt8.toNat_ofNat']
  omega

theorem foldl_begins (negative : Bool) (digit : isDigit b = true) (first : Bool)
    (frames : List Frame) :
    (NumberText.signBytes negative ++ [b]).foldl Scan.step (.reading (.value first) frames) =
      .reading (.number (.first negative b)) frames := by
  cases negative with
  | false =>
      obtain ⟨d, small, rfl⟩ := exists_digitByte digit
      exact atValue_digitByte small first frames
  | true =>
      have signed : Scan.step (.reading (.value first) frames) 0x2D =
          .reading (.number ⟨.sign, true, [], none, none⟩) frames := rfl
      have steps : NumeralScan.step ⟨.sign, true, [], none, none⟩ b =
          .ok (some (.first true b)) := by
        simp only [NumeralScan.step, digit, if_true]
      rw [NumberText.signBytes, if_pos rfl, List.singleton_append, List.foldl_cons, signed]
      exact NumeralScan.goes_step steps frames

theorem NumberText.whole_goes (n : NumberText) :
    ∃ m : NumeralScan, (m.part = .zero ∨ m.part = .whole) ∧ ∀ first frames,
      (signBytes n.negative ++ n.whole.bytes).foldl Scan.step (.reading (.value first) frames) =
        .reading (.number m) frames := by
  obtain ⟨negative, ⟨bytes, nonempty, digits⟩, -, -, leading⟩ := n
  obtain ⟨b, rest, rfl⟩ := List.exists_cons_of_ne_nil nonempty
  obtain ⟨digit, later⟩ := List.forall_mem_cons.mp digits
  simp only [List.cons.injEq, List.head?_cons, ne_eq, Option.some.injEq] at leading
  rcases leading with ⟨rfl, rfl⟩ | other
  · exact ⟨_, .inl rfl, foldl_begins negative digit⟩
  · have part : (NumeralScan.first negative b).part = .whole := by
      simp [NumeralScan.first, other]
    obtain ⟨m, same, goes⟩ := NumeralScan.digits_go (n := .first negative b)
      (part.symm ▸ NumeralPart.takes_whole) later
    refine ⟨m, .inr (same.trans part), fun first frames => ?_⟩
    rw [show NumberText.signBytes negative ++ b :: rest =
      (NumberText.signBytes negative ++ [b]) ++ rest by simp, List.foldl_append,
      foldl_begins negative digit, goes frames]

theorem NumeralScan.ends (complete : n.complete = true) (follows : b ∈ followers) :
    n.step b = .ok none := by
  simp only [followers, List.mem_cons, List.not_mem_nil, or_false] at follows
  cases part : n.part <;> simp only [NumeralScan.complete, part, Bool.false_eq_true] at complete <;>
    rcases follows with rfl | rfl | rfl | rfl | rfl | rfl | rfl <;>
      simp [step, part, isDigit]

theorem consumes_number (n : NumberText) : ∃ tree, Consumes n.bytes tree := by
  obtain ⟨m, begun, whole⟩ := n.whole_goes
  obtain ⟨k, middle, fraction⟩ := m.fraction_goes begun n.fraction
  obtain ⟨last, complete, exponent⟩ := k.exponent_goes middle n.exponent
  refine ⟨.number last.numeral, fun first frames b follows => ?_⟩
  rw [List.foldl_append, NumberText.bytes, List.foldl_append, List.foldl_append, whole, fraction,
    exponent, List.foldl_cons, List.foldl_nil]
  simp only [Scan.step, NumeralScan.ends complete follows]
  exact Scan.after_deliver b _ frames

end Numbers

section Strings

/-- An element as it is written is one more piece. -/
theorem Mark.foldlM_bytes (mark : Mark) (before : List Piece) :
    mark.bytes.foldlM QuotedScan.step ⟨before, .plain⟩ = .ok ⟨mark.piece :: before, .plain⟩ := by
  cases mark with
  | byte b quote slash printed =>
      simp [bytes, piece, List.foldlM, QuotedScan.step, quote, slash, printed, bind, Except.bind,
        pure, Except.pure]
  | short letter meant known =>
      have other : letter ≠ 0x75 := by
        rintro rfl
        cases known
      simp [bytes, piece, List.foldlM, QuotedScan.step, other, known, bind, Except.bind, pure,
        Except.pure]
  | unit a b c d n digits =>
      simp [bytes, piece, List.foldlM, QuotedScan.step, digits, bind, Except.bind, pure,
        Except.pure]

theorem Mark.foldlM_spelled (marks : List Mark) (before : List Piece) :
    (spelled marks).foldlM QuotedScan.step ⟨before, .plain⟩ =
      .ok ⟨(marks.map piece).reverse ++ before, .plain⟩ := by
  induction marks generalizing before with
  | nil => rfl
  | cons mark rest ih =>
      rw [spelled, List.flatMap_cons, List.foldlM_append, foldlM_bytes]
      simp only [bind, Except.bind]
      rw [← spelled, ih]
      simp only [List.map_cons, List.reverse_cons, List.append_assoc, List.singleton_append]

theorem Carries.foldl_spelled {wrap : QuotedScan → Scan} (carries : Carries wrap)
    (marks : List Mark) :
    (Mark.spelled marks).foldl Scan.step (wrap .empty) =
      wrap ⟨(marks.map Mark.piece).reverse, .plain⟩ := by
  have run := carries.foldl (Mark.foldlM_spelled marks [])
  rwa [List.append_nil] at run

theorem Mark.stop_spelled (marks : List Mark) :
    QuotedScan.step ⟨(marks.map piece).reverse, .plain⟩ 0x22 = .error (quoted marks) := by
  simp only [QuotedScan.step, QuotedScan.stop, beq_self_eq_true, if_true, List.reverse_reverse]
  rfl

theorem consumes_text (marks : List Mark) :
    Consumes (0x22 :: Mark.spelled marks ++ [0x22]) (.string (Mark.quoted marks)) := by
  refine consumes_of_deliver fun first frames => ?_
  have begun : Scan.step (.reading (.value first) frames) 0x22 =
      .reading (.text .empty) frames := rfl
  have inside := (carries_text frames).foldl_spelled marks
  have closed : Scan.step (.reading (.text ⟨(marks.map Mark.piece).reverse, .plain⟩) frames) 0x22 =
      .deliver (.string (Mark.quoted marks)) frames := by
    simp only [Scan.step, Mark.stop_spelled]
    rfl
  rw [List.cons_append, List.foldl_cons, List.foldl_append, begun, inside, List.foldl_cons,
    List.foldl_nil, closed]

end Strings

section Containers

variable {frames : List Frame}

/-- A value between blanks, up to what follows the blanks. -/
theorem Item.foldl_bytes (item : Item) {tree : Tree} (consumes : Consumes item.word tree)
    (first : Bool) (frames : List Frame) {b : UInt8} (follows : b ∈ followers) :
    (item.bytes ++ [b]).foldl Scan.step (.reading (.value first) frames) =
      (Scan.deliver tree frames).step b := by
  obtain ⟨before, word, ⟨after, blank⟩⟩ := item
  rw [bytes, List.append_assoc, List.append_assoc, List.foldl_append,
    foldl_gap (value_absorbs first frames)]
  cases after with
  | nil => exact consumes first frames b follows
  | cons space rest =>
      obtain ⟨here, later⟩ := List.forall_mem_cons.mp blank
      have rested := foldl_gap (deliver_absorbs tree frames) ⟨rest, later⟩
      have handed := consumes first frames space (space_follows here)
      rw [deliver_absorbs tree frames space here] at handed
      rw [show word ++ (space :: rest ++ [b]) = (word ++ [space]) ++ (rest ++ [b]) by simp,
        List.foldl_append, handed, List.foldl_append, rested, List.foldl_cons, List.foldl_nil]

/-- Items up to the closing bracket, by induction on the list; before the first of them others may
have been read. -/
theorem foldl_items {items : List Item}
    (each : ∀ item ∈ items, Consumes item.word (treeOf item.word)) (nonempty : items ≠ [])
    (first : Bool) (before : List Tree) (frames : List Frame) :
    ([0x2C].intercalate (items.map Item.bytes) ++ [0x5D]).foldl Scan.step
        (.reading (.value first) (.array before :: frames)) =
      .deliver (arrayOf ((items.map fun item => treeOf item.word).reverse ++ before) none)
        frames := by
  induction items generalizing first before with
  | nil => exact absurd rfl nonempty
  | cons item rest ih =>
      obtain ⟨here, later⟩ := List.forall_mem_cons.mp each
      cases rest with
      | nil =>
          rw [List.map_singleton, List.intercalate_singleton,
            item.foldl_bytes here first (.array before :: frames) (by decide)]
          rfl
      | cons second rest =>
          have parted : Scan.step (.deliver (treeOf item.word) (.array before :: frames)) 0x2C =
              .reading (.value false) (.array (treeOf item.word :: before) :: frames) := rfl
          rw [List.map_cons, List.map_cons, List.intercalate_cons_cons, ← List.map_cons,
            List.append_assoc, List.foldl_append,
            item.foldl_bytes here first (.array before :: frames) (by decide), parted,
            ih later (List.cons_ne_nil _ _)]
          simp only [List.map_cons, List.reverse_cons, List.append_assoc, List.cons_append,
            List.nil_append]

theorem deliver_array (gap : Gap) {items : List Item}
    (each : ∀ item ∈ items, Consumes item.word (treeOf item.word)) (first : Bool)
    (frames : List Frame) :
    (arrayText gap items).foldl Scan.step (.reading (.value first) frames) =
      .deliver (.array (items.map fun item => treeOf item.word) none) frames := by
  have opened : Scan.step (.reading (.value first) frames) 0x5B =
      .reading (.value true) (.array [] :: frames) := rfl
  rw [arrayText, List.cons_append, List.cons_append, List.append_assoc, List.foldl_cons, opened,
    List.foldl_append, foldl_gap (value_absorbs true (.array [] :: frames))]
  by_cases empty : items = []
  · rw [empty]
    rfl
  · rw [foldl_items each empty true [] frames, List.append_nil, arrayOf, List.reverse_reverse]

/-- The name of a member and the colon behind it, before the value. -/
theorem Member.foldl_name (member : Member) (members : List (Quoted × Tree)) (first : Bool)
    (frames : List Frame) :
    (member.before.bytes ++ 0x22 :: Mark.spelled member.name ++ 0x22 :: member.after.bytes ++
        [0x3A]).foldl Scan.step (.reading (.key members first) frames) =
      .reading (.value false) (.object members member.key :: frames) := by
  have begun : Scan.step (.reading (.key members first) frames) 0x22 =
      .reading (.keyText members .empty) frames := rfl
  have inside := (carries_keyText members frames).foldl_spelled member.name
  have closed : Scan.step
      (.reading (.keyText members ⟨(member.name.map Mark.piece).reverse, .plain⟩) frames) 0x22 =
        .reading (.colon members member.key) frames := by
    simp only [Scan.step, Mark.stop_spelled]
    rfl
  have parted : Scan.step (.reading (.colon members member.key) frames) 0x3A =
      .reading (.value false) (.object members member.key :: frames) := rfl
  simp only [List.append_assoc, List.cons_append, List.foldl_append, List.foldl_cons,
    List.foldl_nil]
  rw [foldl_gap (key_absorbs members first frames), begun, inside, closed,
    foldl_gap (colon_absorbs members member.key frames), parted]

/-- A member as it is read. -/
def Member.read (member : Member) : Quoted × Tree :=
  (member.key, treeOf member.value.word)

theorem Member.foldl_bytes (member : Member)
    (consumes : Consumes member.value.word (treeOf member.value.word))
    (members : List (Quoted × Tree)) (first : Bool) (frames : List Frame) {b : UInt8}
    (follows : b ∈ followers) :
    (member.bytes ++ [b]).foldl Scan.step (.reading (.key members first) frames) =
      Scan.step (.reading (.members (member.read :: members)) frames) b := by
  have shape : member.bytes ++ [b] =
      (member.before.bytes ++ 0x22 :: Mark.spelled member.name ++ 0x22 :: member.after.bytes ++
        [0x3A]) ++ (member.value.bytes ++ [b]) := by
    simp [bytes]
  rw [shape, List.foldl_append, member.foldl_name, member.value.foldl_bytes consumes _ _ follows]
  rfl

theorem foldl_members {members : List Member}
    (each : ∀ member ∈ members, Consumes member.value.word (treeOf member.value.word))
    (nonempty : members ≠ []) (first : Bool) (before : List (Quoted × Tree))
    (frames : List Frame) :
    ([0x2C].intercalate (members.map Member.bytes) ++ [0x7D]).foldl Scan.step
        (.reading (.key before first) frames) =
      .deliver (objectOf ((members.map Member.read).reverse ++ before) none) frames := by
  induction members generalizing first before with
  | nil => exact absurd rfl nonempty
  | cons member rest ih =>
      obtain ⟨here, later⟩ := List.forall_mem_cons.mp each
      cases rest with
      | nil =>
          rw [List.map_singleton, List.intercalate_singleton,
            member.foldl_bytes here before first frames (by decide)]
          rfl
      | cons second rest =>
          have parted : Scan.step (.reading (.members (member.read :: before)) frames) 0x2C =
              .reading (.key (member.read :: before) false) frames := rfl
          rw [List.map_cons, List.map_cons, List.intercalate_cons_cons, ← List.map_cons,
            List.append_assoc, List.foldl_append,
            member.foldl_bytes here before first frames (by decide), parted,
            ih later (List.cons_ne_nil _ _)]
          simp only [List.map_cons, List.reverse_cons, List.append_assoc, List.cons_append,
            List.nil_append]

theorem deliver_object (gap : Gap) {members : List Member}
    (each : ∀ member ∈ members, Consumes member.value.word (treeOf member.value.word))
    (first : Bool) (frames : List Frame) :
    (objectText gap members).foldl Scan.step (.reading (.value first) frames) =
      .deliver (.object (members.map Member.read) none) frames := by
  have opened : Scan.step (.reading (.value first) frames) 0x7B =
      .reading (.key [] true) frames := rfl
  rw [objectText, List.cons_append, List.cons_append, List.append_assoc, List.foldl_cons, opened,
    List.foldl_append, foldl_gap (key_absorbs [] true frames)]
  by_cases empty : members = []
  · rw [empty]
    rfl
  · rw [foldl_members each empty true [] frames, List.append_nil, objectOf, List.reverse_reverse]

end Containers

/-- Every written value is consumed, by induction on how it is written. -/
theorem Written.consumes {word : List UInt8} (written : Written word) :
    Consumes word (treeOf word) := by
  have known : ∃ tree, Consumes word tree := by
    induction written with
    | null => exact ⟨.null, consumes_of_deliver fun _ _ => rfl⟩
    | true => exact ⟨.bool Bool.true, consumes_of_deliver fun _ _ => rfl⟩
    | false => exact ⟨.bool Bool.false, consumes_of_deliver fun _ _ => rfl⟩
    | number n => exact consumes_number n
    | text marks => exact ⟨_, consumes_text marks⟩
    | array gap items _ ih =>
        have each : ∀ item ∈ items, Consumes item.word (treeOf item.word) := by
          intro item member
          obtain ⟨tree, consumes⟩ := ih item member
          exact consumes.eq_treeOf ▸ consumes
        exact ⟨_, consumes_of_deliver fun first frames => deliver_array gap each first frames⟩
    | object gap members _ ih =>
        have each : ∀ member ∈ members, Consumes member.value.word (treeOf member.value.word) := by
          intro member inside
          obtain ⟨tree, consumes⟩ := ih member inside
          exact consumes.eq_treeOf ▸ consumes
        exact ⟨_, consumes_of_deliver fun first frames => deliver_object gap each first frames⟩
  obtain ⟨tree, consumes⟩ := known
  exact consumes.eq_treeOf ▸ consumes

/-- A text that begins with a written object is read as its members, whatever stands behind it. -/
theorem ofBytes_object (before gap : Gap) {members : List Member}
    (each : ∀ member ∈ members, Written member.value.word) (behind : List UInt8) :
    Tree.ofBytes (before.bytes ++ objectText gap members ++ behind) =
      .object (members.map Member.read) none := by
  have consumed : Scan.run (before.bytes ++ objectText gap members) =
      .done (.object (members.map Member.read) none) true := by
    rw [Scan.run_append, Scan.run, Scan.start, foldl_gap (value_absorbs false []),
      deliver_object gap (fun member inside => (each member inside).consumes) false []]
    rfl
  exact Tree.ofBytes_append_of_done consumed behind

end Bearer.Json

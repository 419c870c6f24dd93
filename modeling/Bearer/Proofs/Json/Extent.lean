import Mathlib
import Bearer.Proofs.Json.Consumed
import Bearer.Proofs.Json.Fields

/-!
How far the first value of a text reaches. Whatever the scan has read is the beginning of something
written: while it waits the text can go on, and where it hands on a container that text is the one of
a value in brackets. So a text that was read well holds such a value, and no shorter beginning of it
is taken for one.
-/
namespace Bearer.Json

section Numbers

/-- How a number begins, up to each part of it. -/
inductive NumberFront : NumeralPart → List UInt8 → Prop where
  | sign : NumberFront .sign [0x2D]
  | zero (n : NumberText) (plain : n.fraction = none ∧ n.exponent = none) :
      NumberFront .zero n.bytes
  | whole (n : NumberText) (plain : n.fraction = none ∧ n.exponent = none)
      (leading : n.whole.bytes.head? ≠ some 0x30) : NumberFront .whole n.bytes
  | point (n : NumberText) (plain : n.fraction = none ∧ n.exponent = none) :
      NumberFront .point (n.bytes ++ [0x2E])
  | fraction (n : NumberText) (ds : Digits) (has : n.fraction = some ds)
      (plain : n.exponent = none) : NumberFront .fraction n.bytes
  | mark (n : NumberText) (plain : n.exponent = none) (m : UInt8) (marked : m = 0x65 ∨ m = 0x45) :
      NumberFront .mark (n.bytes ++ [m])
  | markSign (n : NumberText) (plain : n.exponent = none) (m : UInt8)
      (marked : m = 0x65 ∨ m = 0x45) (s : UInt8) (signed : [s] ∈ [[], [0x2B], [0x2D]]) :
      NumberFront .markSign (n.bytes ++ [m, s])
  | exponent (n : NumberText) (e : ExponentText) (has : n.exponent = some e) :
      NumberFront .exponent n.bytes

variable {n m : NumeralScan} {b : UInt8} {front : List UInt8}

/-- The digit that begins a number, behind a sign or without one. -/
theorem numberFront_first (negative : Bool) (digit : isDigit b = true) :
    NumberFront (NumeralScan.first negative b).part (NumberText.signBytes negative ++ [b]) := by
  by_cases zero : b = 0x30
  · have alone : (Digits.single b digit).bytes = [0x30] := congrArg (fun b => [b]) zero
    have front := NumberFront.zero ⟨negative, .single b digit, none, none, .inl alone⟩ ⟨rfl, rfl⟩
    simpa [NumberText.bytes, NumberText.fractionBytes, NumberText.exponentBytes,
      NumeralScan.first, zero] using front
  · have other : (Digits.single b digit).bytes.head? ≠ some 0x30 := by
      simpa using zero
    have front := NumberFront.whole ⟨negative, .single b digit, none, none, .inr other⟩ ⟨rfl, rfl⟩
      other
    simpa [NumberText.bytes, NumberText.fractionBytes, NumberText.exponentBytes,
      NumeralScan.first, zero] using front

namespace NumberText

variable (n : NumberText)

def withWhole (ds : Digits) (leading : ds.bytes.head? ≠ some 0x30) : NumberText :=
  { n with whole := ds, leading := .inr leading }

def withFraction (ds : Digits) : NumberText :=
  { n with fraction := some ds }

def withExponent (e : ExponentText) : NumberText :=
  { n with exponent := some e }

variable {n}

theorem bytes_longer_whole (plain : n.fraction = none ∧ n.exponent = none)
    (digit : isDigit b = true) (leading : (n.whole.longer b digit).bytes.head? ≠ some 0x30) :
    (n.withWhole (n.whole.longer b digit) leading).bytes = n.bytes ++ [b] := by
  simp [bytes, withWhole, fractionBytes, exponentBytes, plain]

theorem bytes_first_fraction (plain : n.fraction = none ∧ n.exponent = none)
    (digit : isDigit b = true) :
    (n.withFraction (.single b digit)).bytes = n.bytes ++ [0x2E] ++ [b] := by
  simp [bytes, withFraction, fractionBytes, exponentBytes, plain]

theorem bytes_longer_fraction {ds : Digits} (has : n.fraction = some ds)
    (plain : n.exponent = none) (digit : isDigit b = true) :
    (n.withFraction (ds.longer b digit)).bytes = n.bytes ++ [b] := by
  simp [bytes, withFraction, fractionBytes, exponentBytes, has, plain]

theorem bytes_first_exponent (plain : n.exponent = none) (m : UInt8) (sign : List UInt8)
    (marked : m = 0x65 ∨ m = 0x45) (signed : sign ∈ [[], [0x2B], [0x2D]])
    (digit : isDigit b = true) :
    (n.withExponent ⟨m, sign, .single b digit, marked, signed⟩).bytes =
      n.bytes ++ m :: sign ++ [b] := by
  simp [bytes, withExponent, exponentBytes, ExponentText.bytes, plain]

theorem bytes_longer_exponent {e : ExponentText} (has : n.exponent = some e)
    (digit : isDigit b = true) :
    (n.withExponent { e with digits := e.digits.longer b digit }).bytes = n.bytes ++ [b] := by
  simp [bytes, withExponent, exponentBytes, ExponentText.bytes, has]

end NumberText

/-- A byte that a number takes makes a longer beginning. -/
theorem NumberFront.step (text : NumberFront n.part front) (steps : n.step b = .ok (some m)) :
    NumberFront m.part (front ++ [b]) := by
  obtain ⟨part, negative, whole, fraction, exponent⟩ := n
  cases text with
  | sign =>
      simp only [NumeralScan.step] at steps
      split_ifs at steps with digit
      cases steps
      exact numberFront_first true digit
  | zero n plain =>
      simp only [NumeralScan.step] at steps
      split_ifs at steps with digit point mark <;> cases steps
      · cases eq_of_beq point
        exact .point n plain
      · exact .mark n plain.2 b (by simpa using mark)
  | whole n plain leading =>
      simp only [NumeralScan.step] at steps
      split_ifs at steps with digit point mark <;> cases steps
      · have longer : (n.whole.longer b digit).bytes.head? ≠ some 0x30 := by
          rwa [Digits.head?_longer]
        rw [← NumberText.bytes_longer_whole plain digit longer]
        exact .whole _ plain longer
      · cases eq_of_beq point
        exact .point n plain
      · exact .mark n plain.2 b (by simpa using mark)
  | point n plain =>
      simp only [NumeralScan.step] at steps
      split_ifs at steps with digit
      cases steps
      rw [← NumberText.bytes_first_fraction plain digit]
      exact .fraction _ _ rfl plain.2
  | fraction n ds has plain =>
      simp only [NumeralScan.step] at steps
      split_ifs at steps with digit mark <;> cases steps
      · rw [← NumberText.bytes_longer_fraction has plain digit]
        exact .fraction _ _ rfl plain
      · exact .mark n plain b (by simpa using mark)
  | mark n plain m marked =>
      simp only [NumeralScan.step] at steps
      split_ifs at steps with digit plus minus <;> cases steps
      · rw [← NumberText.bytes_first_exponent plain m [] marked (by simp) digit]
        exact .exponent _ _ rfl
      · cases eq_of_beq plus
        rw [List.append_assoc]
        exact .markSign n plain m marked _ (by simp)
      · cases eq_of_beq minus
        rw [List.append_assoc]
        exact .markSign n plain m marked _ (by simp)
  | markSign n plain m marked s signed =>
      simp only [NumeralScan.step] at steps
      split_ifs at steps with digit
      cases steps
      rw [← NumberText.bytes_first_exponent plain m [s] marked signed digit]
      exact .exponent _ _ rfl
  | exponent n e has =>
      simp only [NumeralScan.step] at steps
      split_ifs at steps with digit <;> cases steps
      rw [← NumberText.bytes_longer_exponent has digit]
      exact .exponent _ _ rfl

/-- A number may end where it is complete. -/
theorem NumberFront.written (text : NumberFront n.part front) (ends : n.step b = .ok none) :
    Written front := by
  obtain ⟨part, negative, whole, fraction, exponent⟩ := n
  cases text with
  | zero n _ | whole n _ _ | fraction n _ _ _ | exponent n _ _ => exact .number n
  | sign | point | mark | markSign =>
      simp only [NumeralScan.step] at ends
      split_ifs at ends <;> cases ends

end Numbers

section Strings

/-- What stands of an escape that is not complete. -/
inductive EscapeFront : Escape → List UInt8 → Prop where
  | plain : EscapeFront .plain []
  | backslash : EscapeFront .backslash [0x5C]
  | hex (digits : List UInt8) (few : digits.length ≤ 3) :
      EscapeFront (.hex digits) (0x5C :: 0x75 :: digits)

/-- How a character string begins, from behind its opening quote. -/
def QuotedScan.Front (q : QuotedScan) (front : List UInt8) : Prop :=
  ∃ marks part, EscapeFront q.escape part ∧ front = Mark.spelled marks ++ part

variable {q next : QuotedScan} {b : UInt8} {front : List UInt8}

theorem QuotedScan.front_empty : QuotedScan.empty.Front [] :=
  ⟨[], [], .plain, rfl⟩

theorem QuotedScan.Front.mark {pieces : List Piece} (marks : List Mark) (mark : Mark) :
    Front ⟨pieces, .plain⟩ (Mark.spelled marks ++ mark.bytes) :=
  ⟨marks ++ [mark], [], .plain, by rw [Mark.spelled_concat, List.append_nil]⟩

/-- A byte that a character string takes makes a longer beginning. -/
theorem QuotedScan.Front.step (text : q.Front front) (steps : q.step b = .ok next) :
    next.Front (front ++ [b]) := by
  obtain ⟨pieces, escape⟩ := q
  obtain ⟨marks, part, escaped, rfl⟩ := text
  rw [List.append_assoc]
  cases escaped with
  | plain =>
      simp only [QuotedScan.step] at steps
      split_ifs at steps with quote slash control <;> cases steps
      · cases eq_of_beq slash
        exact ⟨marks, _, .backslash, rfl⟩
      · exact .mark marks (.byte b (by simpa using quote) (by simpa using slash) control)
  | backslash =>
      simp only [QuotedScan.step] at steps
      split_ifs at steps with letter
      · cases steps
        cases eq_of_beq letter
        exact ⟨marks, _, .hex [] (by decide), rfl⟩
      · split at steps
        · next meant known =>
            cases steps
            exact .mark marks (.short b meant known)
        · cases steps
  | hex digits few =>
      rcases digits with _ | ⟨x, _ | ⟨y, _ | ⟨z, _ | ⟨w, rest⟩⟩⟩⟩
      · cases steps
        exact ⟨marks, _, .hex [b] (by simp), rfl⟩
      · cases steps
        exact ⟨marks, _, .hex [x, b] (by simp), rfl⟩
      · cases steps
        exact ⟨marks, _, .hex [x, y, b] (by simp), rfl⟩
      · simp only [QuotedScan.step] at steps
        split at steps
        · next n known =>
            cases steps
            exact .mark marks (.unit x y z b n known)
        · cases steps
      · simp only [List.length_cons] at few
        omega

/-- A character string ends well only at a quote that is not escaped. -/
theorem QuotedScan.Front.closed {done : Quoted} (text : q.Front front)
    (steps : q.step b = .error done) (well : done.fault = none) :
    b = 0x22 ∧ ∃ marks, front = Mark.spelled marks := by
  obtain ⟨pieces, escape⟩ := q
  obtain ⟨marks, part, escaped, rfl⟩ := text
  cases escaped with
  | plain =>
      simp only [QuotedScan.step] at steps
      split_ifs at steps with quote slash control <;> cases steps
      · exact ⟨eq_of_beq quote, marks, List.append_nil _⟩
      · cases well
  | backslash =>
      simp only [QuotedScan.step] at steps
      split_ifs at steps
      split at steps <;> cases steps
      cases well
  | hex digits few =>
      rcases digits with _ | ⟨x, _ | ⟨y, _ | ⟨z, _ | ⟨w, rest⟩⟩⟩⟩
      · cases steps
      · cases steps
      · cases steps
      · simp only [QuotedScan.step] at steps
        split at steps <;> cases steps
        cases well
      · cases steps

end Strings

section Reading

def Tree.isContainer : Tree → Bool
  | .array _ _ | .object _ _ => true
  | _ => false

/-- The bytes are those of a value, and for a container those of one in brackets. -/
structure Fits (tree : Tree) (word : List UInt8) : Prop where
  written : Written word
  bracketed : tree.isContainer = true → Bracketed word

theorem Bracketed.fits {word : List UInt8} (bracketed : Bracketed word) (tree : Tree) :
    Fits tree word :=
  ⟨bracketed.written, fun _ => bracketed⟩

theorem Written.fits {tree : Tree} {word : List UInt8} (written : Written word)
    (plain : tree.isContainer = Bool.false) : Fits tree word :=
  ⟨written, fun container => absurd (plain.symm.trans container) Bool.false_ne_true⟩

/-- The texts behind which the open containers wait for a value. -/
inductive Due : List Frame → List UInt8 → Prop where
  | start (gap : Gap) : Due [] gap.bytes
  | array {rest : List Frame} {outer : List UInt8} {trees : List Tree} (due : Due rest outer)
      (items : List Item) (each : ∀ item ∈ items, Written item.word) (gap : Gap) :
      Due (.array trees :: rest) (outer ++ 0x5B :: listed (items.map Item.bytes) ++ gap.bytes)
  | object {rest : List Frame} {outer : List UInt8} {known : List (Quoted × Tree)} {key : Quoted}
      (due : Due rest outer) (members : List Member)
      (each : ∀ member ∈ members, Written member.value.word) (before : Gap) (name : List Mark)
      (after gap : Gap) :
      Due (.object known key :: rest)
        (outer ++ 0x7B :: listed (members.map Member.bytes) ++ before.bytes ++
          0x22 :: Mark.spelled name ++ 0x22 :: after.bytes ++ 0x3A :: gap.bytes)

/-- The texts that a scan has behind it in each phase. -/
inductive Reached : Phase → List Frame → List UInt8 → Prop where
  | value {frames : List Frame} {outer : List UInt8} (due : Due frames outer) :
      Reached (.value false) frames outer
  | opening {rest : List Frame} {outer : List UInt8} {trees : List Tree} (due : Due rest outer)
      (gap : Gap) : Reached (.value true) (.array trees :: rest) (outer ++ 0x5B :: gap.bytes)
  | word {frames : List Frame} {outer : List UInt8} {tree : Tree} (due : Due frames outer)
      (front left : List UInt8) (fits : Fits tree (front ++ left)) :
      Reached (.word left tree) frames (outer ++ front)
  | number {frames : List Frame} {outer front : List UInt8} {n : NumeralScan}
      (due : Due frames outer) (text : NumberFront n.part front) :
      Reached (.number n) frames (outer ++ front)
  | text {frames : List Frame} {outer front : List UInt8} {q : QuotedScan}
      (due : Due frames outer) (text : q.Front front) :
      Reached (.text q) frames (outer ++ 0x22 :: front)
  | items {frames : List Frame} {outer : List UInt8} {trees : List Tree} (due : Due frames outer)
      (items : List Item) (each : ∀ item ∈ items, Written item.word) (last : Item)
      (written : Written last.word) :
      Reached (.items trees) frames
        (outer ++ 0x5B :: listed (items.map Item.bytes) ++ last.bytes)
  | key {frames : List Frame} {outer : List UInt8} {known : List (Quoted × Tree)} {first : Bool}
      (due : Due frames outer) (members : List Member)
      (each : ∀ member ∈ members, Written member.value.word) (gap : Gap)
      (none : first = true → members = []) :
      Reached (.key known first) frames
        (outer ++ 0x7B :: listed (members.map Member.bytes) ++ gap.bytes)
  | keyText {frames : List Frame} {outer front : List UInt8} {known : List (Quoted × Tree)}
      {q : QuotedScan} (due : Due frames outer) (members : List Member)
      (each : ∀ member ∈ members, Written member.value.word) (gap : Gap) (text : q.Front front) :
      Reached (.keyText known q) frames
        (outer ++ 0x7B :: listed (members.map Member.bytes) ++ gap.bytes ++ 0x22 :: front)
  | colon {frames : List Frame} {outer : List UInt8} {known : List (Quoted × Tree)} {key : Quoted}
      (due : Due frames outer) (members : List Member)
      (each : ∀ member ∈ members, Written member.value.word) (before : Gap) (name : List Mark)
      (after : Gap) :
      Reached (.colon known key) frames
        (outer ++ 0x7B :: listed (members.map Member.bytes) ++ before.bytes ++
          0x22 :: Mark.spelled name ++ 0x22 :: after.bytes)
  | members {frames : List Frame} {outer : List UInt8} {known : List (Quoted × Tree)}
      (due : Due frames outer) (members : List Member)
      (each : ∀ member ∈ members, Written member.value.word) (last : Member)
      (written : Written last.value.word) :
      Reached (.members known) frames
        (outer ++ 0x7B :: listed (members.map Member.bytes) ++ last.bytes)

/-- What a scan is about that has this text behind it: a finished tree without a fault is that of the
value with which the text begins. -/
def Scan.Reaches : Scan → List UInt8 → Prop
  | .reading phase frames, text => Reached phase frames text
  | .done tree _, text => tree.skipFault = none → ∃ (before : Gap) (word behind : List UInt8),
      text = before.bytes ++ word ++ behind ∧ Fits tree word

variable {frames : List Frame} {outer text word : List UInt8} {tree : Tree} {b : UInt8}

theorem Due.blank (due : Due frames outer) (space : isSpace b = true) :
    Due frames (outer ++ [b]) := by
  cases due with
  | start gap => exact .start (gap.wider b space)
  | array due items each gap =>
      simpa using Due.array due items each (gap.wider b space)
  | object due members each before name after gap =>
      simpa using Due.object due members each before name after (gap.wider b space)

theorem skipFault_settle (fault : Category) (frames : List Frame) (cut : tree.skipFault ≠ none) :
    (Frame.settle fault frames tree).skipFault ≠ none := by
  induction frames generalizing tree with
  | nil => exact cut
  | cons frame rest ih =>
      cases frame with
      | array items => exact ih (Option.some_ne_none fault)
      | object members key => exact ih (Option.some_ne_none fault)

theorem reaches_settle {fault : Category} (cut : tree.skipFault ≠ none) :
    (Scan.done (Frame.settle fault frames tree) true).Reaches text :=
  fun none => absurd none (skipFault_settle fault frames cut)

theorem reaches_deliver (due : Due frames outer) (fits : Fits tree word) :
    (Scan.deliver tree frames).Reaches (outer ++ word) := by
  cases due with
  | start gap => exact fun _ => ⟨gap, word, [], (List.append_nil _).symm, fits⟩
  | @array _ _ trees due items each gap =>
      have reached : Reached (.items (tree :: trees)) _ _ :=
        .items due items each ⟨gap, word, .nothing⟩ fits.written
      simpa [Scan.deliver, Scan.Reaches, Item.bytes] using reached
  | @object _ _ known key due members each before name after gap =>
      have reached : Reached (.members ((key, tree) :: known)) _ _ :=
        .members due members each ⟨before, name, after, ⟨gap, word, .nothing⟩⟩ fits.written
      simpa [Scan.deliver, Scan.Reaches, Member.bytes, Item.bytes] using reached

theorem reaches_deliverText {q : Quoted} (due : Due frames outer)
    (closed : q.fault = none → Written word) :
    (Scan.deliverText q frames).Reaches (outer ++ word) := by
  simp only [Scan.deliverText]
  cases ended : q.fault with
  | none => exact reaches_deliver due ((closed ended).fits rfl)
  | some fault => exact reaches_settle (ended ▸ Option.some_ne_none fault : q.fault ≠ none)

theorem reaches_betweenItems {trees : List Tree} (reached : Reached (.items trees) frames text)
    (b : UInt8) : (Scan.betweenItems trees frames b).Reaches (text ++ [b]) := by
  simp only [Scan.betweenItems]
  cases reached with
  | items due items each last written =>
      have all : ∀ item ∈ items ++ [last], Written item.word :=
        List.forall_mem_append.mpr ⟨each, List.forall_mem_singleton.mpr written⟩
      split_ifs with space comma close
      · have wider : Reached (.items trees) frames _ :=
          .items due items each { last with after := last.after.wider b space } written
        simpa [Scan.Reaches, Item.bytes] using wider
      · cases eq_of_beq comma
        have next : Reached (.value false) (.array trees :: frames) _ :=
          .value (.array due (items ++ [last]) all .nothing)
        simpa [Scan.Reaches, listed_concat] using next
      · cases eq_of_beq close
        have whole := (Bracketed.array .nothing (items ++ [last]) all).fits (arrayOf trees none)
        have delivered := reaches_deliver due whole
        simpa [arrayText, intercalate_concat] using delivered
      · exact reaches_settle (Option.some_ne_none _)

theorem reaches_betweenMembers {known : List (Quoted × Tree)}
    (reached : Reached (.members known) frames text) (b : UInt8) :
    (Scan.betweenMembers known frames b).Reaches (text ++ [b]) := by
  simp only [Scan.betweenMembers]
  cases reached with
  | members due members each last written =>
      have all : ∀ member ∈ members ++ [last], Written member.value.word :=
        List.forall_mem_append.mpr ⟨each, List.forall_mem_singleton.mpr written⟩
      split_ifs with space comma close
      · have wider : Reached (.members known) frames _ :=
          .members due members each
            { last with value := { last.value with after := last.value.after.wider b space } }
            written
        simpa [Scan.Reaches, Member.bytes, Item.bytes] using wider
      · cases eq_of_beq comma
        have next : Reached (.key known false) frames _ :=
          .key due (members ++ [last]) all .nothing fun first => absurd first Bool.false_ne_true
        simpa [Scan.Reaches, listed_concat] using next
      · cases eq_of_beq close
        have whole := (Bracketed.object .nothing (members ++ [last]) all).fits (objectOf known none)
        have delivered := reaches_deliver due whole
        simpa [objectText, intercalate_concat] using delivered
      · exact reaches_settle (Option.some_ne_none _)

/-- A phase in which a value may begin is one behind whose text a value is due. -/
theorem Reached.due {first : Bool} (reached : Reached (.value first) frames text) :
    Due frames text := by
  cases reached with
  | value due => exact due
  | opening due gap => simpa using Due.array due [] (List.forall_mem_nil _) gap

theorem reaches_atValue {first : Bool} (reached : Reached (.value first) frames text) (b : UInt8) :
    (Scan.atValue first frames b).Reaches (text ++ [b]) := by
  have here := reached.due
  simp only [Scan.atValue]
  split_ifs with space quote array object n t f minus digit opened
  · cases reached with
    | value due => exact .value (due.blank space)
    | opening due gap => simpa [Scan.Reaches] using Reached.opening due (gap.wider b space)
  · cases eq_of_beq quote
    exact .text here QuotedScan.front_empty
  · cases eq_of_beq array
    exact .opening here .nothing
  · cases eq_of_beq object
    simpa [Scan.Reaches] using Reached.key here [] (List.forall_mem_nil _) .nothing
      fun _ => rfl
  · cases eq_of_beq n
    exact .word here [0x6E] _ (Written.null.fits rfl)
  · cases eq_of_beq t
    exact .word here [0x74] _ (Written.true.fits rfl)
  · cases eq_of_beq f
    exact .word here [0x66] _ (Written.false.fits rfl)
  · cases eq_of_beq minus
    exact .number here .sign
  · exact .number here (numberFront_first false digit)
  · split
    · next close =>
        cases eq_of_beq close
        cases reached with
        | value due => cases opened
        | opening due gap =>
            have nothing : Bracketed (arrayText gap []) := .array gap [] (List.forall_mem_nil _)
            simpa [arrayText] using reaches_deliver due (nothing.fits (arrayOf _ none))
    · exact reaches_settle (Option.some_ne_none _)
  · split
    · exact reaches_settle (Option.some_ne_none _)
    · exact reaches_settle (Option.some_ne_none _)

theorem reaches_done {clean next : Bool} (reaches : (Scan.done tree clean).Reaches text) (b : UInt8) :
    (Scan.done tree next).Reaches (text ++ [b]) := by
  intro ended
  obtain ⟨before, word, behind, rfl, fits⟩ := reaches ended
  exact ⟨before, word, behind ++ [b], List.append_assoc .., fits⟩

theorem reaches_after (due : Due frames outer) (fits : Fits tree word) (b : UInt8) :
    (Scan.after b (.deliver tree frames)).Reaches (outer ++ word ++ [b]) := by
  have delivered := reaches_deliver due fits
  cases frames with
  | nil => exact reaches_done delivered b
  | cons frame rest =>
      cases frame with
      | array trees => exact reaches_betweenItems delivered b
      | object known key => exact reaches_betweenMembers delivered b

theorem reaches_word {left : List UInt8} (reached : Reached (.word left tree) frames text)
    (b : UInt8) : (Scan.step (.reading (.word left tree) frames) b).Reaches (text ++ [b]) := by
  cases reached with
  | word due front left fits =>
      rcases left with _ | ⟨c, _ | ⟨d, others⟩⟩
      · rw [List.append_nil] at fits
        exact reaches_after due fits b
      · simp only [Scan.step]
        split_ifs with same
        · cases eq_of_beq same
          rw [List.append_assoc]
          exact reaches_deliver due fits
        · exact reaches_settle (Option.some_ne_none _)
      · simp only [Scan.step]
        split_ifs with same
        · cases eq_of_beq same
          rw [List.append_assoc]
          exact .word due (front ++ [b]) (d :: others) (by simpa using fits)
        · exact reaches_settle (Option.some_ne_none _)

theorem reaches_number {n : NumeralScan} (reached : Reached (.number n) frames text) (b : UInt8) :
    (Scan.step (.reading (.number n) frames) b).Reaches (text ++ [b]) := by
  cases reached with
  | number due front =>
      simp only [Scan.step]
      split
      · next next steps =>
          rw [List.append_assoc]
          exact .number due (front.step steps)
      · next ends => exact reaches_after due ((front.written ends).fits rfl) b
      · exact reaches_settle (Option.some_ne_none _)

theorem reaches_text {q : QuotedScan} (reached : Reached (.text q) frames text) (b : UInt8) :
    (Scan.step (.reading (.text q) frames) b).Reaches (text ++ [b]) := by
  cases reached with
  | text due front =>
      rw [List.append_assoc]
      simp only [Scan.step]
      split
      · next next steps => exact .text due (front.step steps)
      · next done steps =>
          refine reaches_deliverText due fun well => ?_
          obtain ⟨rfl, marks, rfl⟩ := front.closed steps well
          exact .text marks

section Members

variable {known : List (Quoted × Tree)}

theorem reaches_key {first : Bool} (reached : Reached (.key known first) frames text) (b : UInt8) :
    (Scan.step (.reading (.key known first) frames) b).Reaches (text ++ [b]) := by
  cases reached with
  | key due members each gap none =>
      simp only [Scan.step]
      split_ifs with space quote close
      · rw [List.append_assoc]
        exact .key due members each (gap.wider b space) none
      · cases eq_of_beq quote
        exact .keyText due members each gap QuotedScan.front_empty
      · simp only [Bool.and_eq_true, beq_iff_eq] at close
        obtain ⟨opened, rfl⟩ := close
        cases none opened
        have nothing : Bracketed (objectText gap []) := .object gap [] (List.forall_mem_nil _)
        simpa [objectText] using reaches_deliver due (nothing.fits (objectOf known .none))
      · exact reaches_settle (Option.some_ne_none _)

theorem reaches_keyText {q : QuotedScan} (reached : Reached (.keyText known q) frames text)
    (b : UInt8) : (Scan.step (.reading (.keyText known q) frames) b).Reaches (text ++ [b]) := by
  cases reached with
  | keyText due members each gap front =>
      rw [List.append_assoc]
      simp only [Scan.step]
      split
      · next next steps => exact .keyText due members each gap (front.step steps)
      · next done steps =>
          split
          · next well =>
              obtain ⟨rfl, marks, rfl⟩ := front.closed steps well
              simpa [Scan.Reaches] using Reached.colon due members each gap marks .nothing
          · exact reaches_settle (Option.some_ne_none _)

theorem reaches_colon {key : Quoted} (reached : Reached (.colon known key) frames text)
    (b : UInt8) : (Scan.step (.reading (.colon known key) frames) b).Reaches (text ++ [b]) := by
  cases reached with
  | colon due members each before name after =>
      simp only [Scan.step]
      split_ifs with space colon
      · simpa [Scan.Reaches] using
          Reached.colon due members each before name (after.wider b space)
      · cases eq_of_beq colon
        simpa [Scan.Reaches] using
          Reached.value (Due.object due members each before name after .nothing)
      · exact reaches_settle (Option.some_ne_none _)

end Members

/-- One more byte is one more byte of the text, whatever the scan makes of it. -/
theorem Scan.Reaches.step {scan : Scan} (reaches : scan.Reaches text) (b : UInt8) :
    (scan.step b).Reaches (text ++ [b]) := by
  cases scan with
  | done tree clean => exact reaches_done reaches b
  | reading phase frames =>
      cases phase with
      | value first => exact reaches_atValue reaches b
      | word left tree => exact reaches_word reaches b
      | number n => exact reaches_number reaches b
      | text q => exact reaches_text reaches b
      | items trees => exact reaches_betweenItems reaches b
      | key known first => exact reaches_key reaches b
      | keyText known q => exact reaches_keyText reaches b
      | colon known key => exact reaches_colon reaches b
      | members known => exact reaches_betweenMembers reaches b

theorem Scan.reaches_run (text : List UInt8) : (Scan.run text).Reaches text := by
  induction text using List.reverseRecOn with
  | nil => exact Reached.value (.start .nothing)
  | append_singleton before b ih =>
      rw [run_append, List.foldl_cons, List.foldl_nil]
      exact ih.step b

/-- A text at whose end the scan still waits is no whole container. -/
theorem cut_of_reading (phase : Phase) (frames : List Frame)
    (container : (Scan.reading phase frames).finish.1.isContainer = true) :
    (Scan.reading phase frames).finish.1.skipFault ≠ none := by
  cases phase with
  | value first =>
      cases frames with
      | nil => exact skipFault_settle _ _ (Option.some_ne_none _)
      | cons frame rest => cases frame <;> exact skipFault_settle _ _ (Option.some_ne_none _)
  | number n =>
      simp only [Scan.finish, Scan.atEnd] at container ⊢
      split_ifs at container ⊢
      · cases frames with
        | nil => cases container
        | cons frame rest => cases frame <;> exact skipFault_settle _ _ (Option.some_ne_none _)
      · exact skipFault_settle _ _ (Option.some_ne_none _)
  | _ => exact skipFault_settle _ _ (Option.some_ne_none _)

end Reading

section Extent

variable {text word : List UInt8}

/-- A text that is read as a whole container begins with a value in brackets. -/
theorem Tree.begins_with_brackets (container : (Tree.ofBytes text).isContainer = true)
    (ended : (Tree.ofBytes text).skipFault = none) :
    ∃ (before : Gap) (word behind : List UInt8),
      text = before.bytes ++ word ++ behind ∧ Bracketed word := by
  have reaches := Scan.reaches_run text
  cases run : Scan.run text with
  | reading phase frames =>
      rw [Tree.ofBytes, Tree.scan, run] at container ended
      exact absurd ended (cut_of_reading phase frames container)
  | done tree clean =>
      rw [Tree.ofBytes, Tree.scan, run] at container ended
      rw [run] at reaches
      obtain ⟨before, word, behind, split, fits⟩ := reaches ended
      exact ⟨before, word, behind, split, fits.bracketed container⟩

/-- Behind its last bracket a value is finished. -/
theorem Bracketed.run (bracketed : Bracketed word) (before : Gap) :
    ∃ tree, Scan.run (before.bytes ++ word) = .done tree true := by
  rw [Scan.run_append, Scan.run, Scan.start, foldl_gap (value_absorbs false [])]
  cases bracketed with
  | array gap items each =>
      exact ⟨_, deliver_array gap (fun item inside => (each item inside).consumes) false []⟩
  | object gap members each =>
      exact ⟨_, deliver_object gap (fun member inside => (each member inside).consumes) false []⟩

theorem Bracketed.closes (bracketed : Bracketed word) :
    ∃ inside close, word = inside ++ [close] ∧ isSpace close = false := by
  cases bracketed with
  | array gap items each => exact ⟨_, 0x5D, rfl, by decide⟩
  | object gap members each => exact ⟨_, 0x7D, rfl, by decide⟩

/-- Before its last bracket no beginning of a value is finished: what is behind a finished one is not
clean unless it is blank. -/
theorem Bracketed.reading_before (bracketed : Bracketed word) (before : Gap) {cut : List UInt8}
    (front : cut <+: before.bytes ++ word) (proper : cut ≠ before.bytes ++ word) :
    ∃ phase frames, Scan.run cut = .reading phase frames := by
  obtain ⟨tree, run⟩ := bracketed.run before
  obtain ⟨inside, close, rfl, dark⟩ := bracketed.closes
  obtain ⟨rest, whole⟩ := front
  cases scanned : Scan.run cut with
  | reading phase frames => exact ⟨phase, frames, rfl⟩
  | done early clean =>
      have last : close ∈ rest := by
        have nonempty : rest ≠ [] := by
          rintro rfl
          exact proper (by simpa using whole)
        have ending : (cut ++ rest).getLast? = some close := by
          rw [whole, ← List.append_assoc, List.getLast?_concat]
        rw [List.getLast?_append_of_ne_nil _ nonempty] at ending
        exact List.mem_of_getLast? ending
      have stained : rest.all isSpace = false :=
        List.all_eq_false.mpr ⟨close, last, by simp [dark]⟩
      rw [← whole, Scan.run_append, scanned, Scan.foldl_done, stained, Bool.and_false] at run
      cases run

section Records

variable {σ α : Type} {record : Record σ} {build : List (String × σ) → Option α}

/-- What a record is read from is a whole container. -/
theorem Record.whole_of_read {tree : Tree} {entries : List (String × σ)}
    (done : record.read tree = .ok entries) :
    tree.isContainer = true ∧ tree.skipFault = none := by
  rcases Record.shape_of_read done with ⟨members, rfl, -⟩ | ⟨items, fault, rfl, taken⟩
  · exact ⟨rfl, rfl⟩
  · cases fault with
    | none => exact ⟨rfl, rfl⟩
    | some category => exact absurd taken Record.ofItems_fault

theorem Record.decode_reading {cut : List UInt8} {phase : Phase} {frames : List Frame}
    (reading : Scan.run cut = .reading phase frames) :
    ∃ fault, decode (record.readAs build) cut = .error fault := by
  cases decoded : decode (record.readAs build) cut with
  | error fault => exact ⟨fault, rfl⟩
  | ok value =>
      obtain ⟨entries, done, -⟩ := Record.readAs_eq_ok.mp decoded
      rw [Tree.ofBytes, Tree.scan, reading] at done
      obtain ⟨container, ended⟩ := Record.whole_of_read done
      exact absurd ended (cut_of_reading phase frames container)

/-- What a reader makes of a text depends on a beginning of it, on all of that and on nothing else:
what is behind may be anything or grow, and without its end the beginning is refused. -/
structure KeepsTo (read : Reader α) (text front : List UInt8) : Prop where
  behind : ∀ after, decode read (front ++ after) = decode read text
  longer : ∀ appended, decode read (text ++ appended) = decode read text
  shorter : ∀ cut, cut <+: front → cut ≠ front → ∃ fault, decode read cut = .error fault

theorem Bracketed.keepsTo (bracketed : Bracketed word) (before : Gap) (behind : List UInt8) :
    KeepsTo (record.readAs build) (before.bytes ++ word ++ behind) (before.bytes ++ word) := by
  obtain ⟨tree, run⟩ := bracketed.run before
  have fixed : ∀ after, decode (record.readAs build) (before.bytes ++ word ++ after) =
      record.readAs build tree := by
    intro after
    rw [decode, Tree.ofBytes_append_of_done run]
  refine ⟨fun after => ?_, fun appended => ?_, fun cut front proper => ?_⟩
  · rw [fixed, fixed]
  · rw [List.append_assoc _ behind, fixed, fixed]
  · obtain ⟨phase, frames, reading⟩ := bracketed.reading_before before front proper
    exact Record.decode_reading reading

/-- A text from which a record is read begins with a value in brackets. -/
theorem Record.brackets_of_decode {value : α}
    (decoded : decode (record.readAs build) text = .ok value) :
    ∃ (before : Gap) (word behind : List UInt8),
      text = before.bytes ++ word ++ behind ∧ Bracketed word := by
  obtain ⟨entries, done, -⟩ := Record.readAs_eq_ok.mp decoded
  obtain ⟨container, ended⟩ := Record.whole_of_read done
  exact Tree.begins_with_brackets container ended

end Records

end Extent

end Bearer.Json

import Mathlib
import Bearer.Proofs.Json.Record
import Bearer.Proofs.Text.Utf8

/-!
Texts between quotes. Every byte of a text, written as it is or behind a backslash, is taken as one
element of the character string that is read, and the elements together are the text again.
-/
namespace Bearer

theorem Text.hexValue_lowerHexDigit {n : Nat} (small : n < 16) :
    hexValue (lowerHexDigit n) = some n := by
  interval_cases n <;> rfl

namespace Json

/-- What a written byte is taken for. Only a control character without a short escape is given by
its digits. -/
def pieceOf (b : UInt8) : Piece :=
  if b < 0x20 ∧ b ∉ [0x08, 0x09, 0x0A, 0x0C, 0x0D] then .unit b.toNat else .byte b

/-- A text as it is read from between its quotes. -/
def quoted (s : String) : Quoted :=
  ⟨(Text.utf8 s).map pieceOf, none⟩

section Reading

theorem unitOfHex_digits (b : UInt8) :
    unitOfHex 0x30 0x30 (Text.lowerHexDigit (b.toNat / 16)) (Text.lowerHexDigit (b.toNat % 16)) =
      some b.toNat := by
  have bound := b.toNat_lt
  have zero : Text.hexValue 0x30 = some 0 := rfl
  have high := Text.hexValue_lowerHexDigit (show b.toNat / 16 < 16 by omega)
  have low := Text.hexValue_lowerHexDigit (show b.toNat % 16 < 16 by omega)
  simp only [unitOfHex, zero, high, low, bind, Option.bind_some]
  exact congrArg some (by omega)

/-- A byte as it is written is one more element. -/
theorem foldlM_escapeByte (b : UInt8) (before : List Piece) :
    (escapeByte b).foldlM QuotedScan.step ⟨before, .plain⟩ =
      .ok ⟨pieceOf b :: before, .plain⟩ := by
  unfold escapeByte
  split_ifs with quote slash backspace feed newline carriage tab control
  · rw [eq_of_beq quote]; rfl
  · rw [eq_of_beq slash]; rfl
  · rw [eq_of_beq backspace]; rfl
  · rw [eq_of_beq feed]; rfl
  · rw [eq_of_beq newline]; rfl
  · rw [eq_of_beq carriage]; rfl
  · rw [eq_of_beq tab]; rfl
  · simp only [beq_iff_eq] at backspace feed newline carriage tab
    have digits : pieceOf b = .unit b.toNat := by
      simp [pieceOf, control, backspace, feed, newline, carriage, tab]
    simp [List.foldlM, QuotedScan.step, unitOfHex_digits, digits, bind, Except.bind, pure,
      Except.pure]
  · have itself : pieceOf b = .byte b := by simp [pieceOf, control]
    simp [List.foldlM, QuotedScan.step, quote, slash, control, itself, bind, Except.bind, pure,
      Except.pure]

/-- All bytes of a text, in their order. -/
theorem foldlM_escaped (bytes : List UInt8) (before : List Piece) :
    (bytes.flatMap escapeByte).foldlM QuotedScan.step ⟨before, .plain⟩ =
      .ok ⟨(bytes.map pieceOf).reverse ++ before, .plain⟩ := by
  induction bytes generalizing before with
  | nil => rfl
  | cons b rest ih =>
      rw [List.flatMap_cons, List.foldlM_append, foldlM_escapeByte]
      simp only [bind, Except.bind, ih, List.map_cons, List.reverse_cons, List.append_assoc,
        List.cons_append, List.nil_append]

/-- A phase of the scan that hands every byte to a character string, as long as that goes on. -/
def Carries (wrap : QuotedScan → Scan) : Prop :=
  ∀ q b next, q.step b = .ok next → (wrap q).step b = wrap next

theorem carries_text (frames : List Frame) :
    Carries fun q => .reading (.text q) frames := by
  intro q b next goes
  simp only [Scan.step, goes]

theorem carries_keyText (members : List (Quoted × Tree)) (frames : List Frame) :
    Carries fun q => .reading (.keyText members q) frames := by
  intro q b next goes
  simp only [Scan.step, goes]

theorem Carries.foldl {wrap : QuotedScan → Scan} (carries : Carries wrap) {bytes : List UInt8}
    {q last : QuotedScan} (run : bytes.foldlM QuotedScan.step q = .ok last) :
    bytes.foldl Scan.step (wrap q) = wrap last := by
  induction bytes generalizing q with
  | nil => cases run; rfl
  | cons b rest ih =>
      rw [List.foldlM_cons] at run
      obtain ⟨next, goes, run⟩ := bind_eq_ok.mp run
      rw [List.foldl_cons, carries q b next goes, ih run]

/-- Between its quotes a text is taken up to the closing one, in whichever phase it is read. -/
theorem Carries.foldl_text {wrap : QuotedScan → Scan} (carries : Carries wrap) (s : String) :
    ((Text.utf8 s).flatMap escapeByte).foldl Scan.step (wrap .empty) =
      wrap ⟨(quoted s).pieces.reverse, .plain⟩ := by
  have run := carries.foldl (foldlM_escaped (Text.utf8 s) [])
  rwa [List.append_nil] at run

end Reading

section Telling

theorem bytesOf_pieceOf (b : UInt8) (rest : List Piece) :
    Quoted.bytesOf none (pieceOf b :: rest) = (b :: ·) <$> Quoted.bytesOf none rest := by
  unfold pieceOf
  split
  · next control =>
      have low : b.toNat < 0x20 := control.1
      have noTrail : isTrail b.toNat = false := by
        simp only [isTrail, Bool.and_eq_false_iff, decide_eq_false_iff_not]
        omega
      have noLead : isLead b.toNat = false := by
        simp only [isLead, Bool.and_eq_false_iff, decide_eq_false_iff_not]
        omega
      have itself : String.utf8EncodeChar (Char.ofNat b.toNat) = [b] :=
        Text.utf8EncodeChar_byte (by omega)
      conv_lhs => unfold Quoted.bytesOf
      simp only [noTrail, noLead, itself, Bool.false_eq_true, if_false]
      rfl
  · rfl

theorem bytesOf_pieces (bytes : List UInt8) :
    Quoted.bytesOf none (bytes.map pieceOf) = .ok bytes := by
  induction bytes with
  | nil => rw [List.map_nil, Quoted.bytesOf]
  | cons b rest ih => rw [List.map_cons, bytesOf_pieceOf, ih]; rfl

theorem text_quoted (s : String) : (quoted s).text = .ok s := by
  simp only [Quoted.text, quoted, bytesOf_pieces, bind, Except.bind, Text.ofUtf8?_utf8]
  rfl

end Telling

section Bytes

theorem lowerHexDigit_low {n : Nat} (small : n < 16) : (Text.lowerHexDigit n).toNat < 0x80 := by
  interval_cases n <;> decide

theorem isUtf8_escapeByte {b : UInt8} (low : b.toNat < 0x80) : Text.IsUtf8 (escapeByte b) := by
  apply Text.isUtf8_of_low
  have high := lowerHexDigit_low (show b.toNat / 16 < 16 by omega)
  have last := lowerHexDigit_low (show b.toNat % 16 < 16 by omega)
  unfold escapeByte
  split_ifs <;> simp [low, high, last]

theorem escapeByte_high {b : UInt8} (high : 0x80 ≤ b.toNat) : escapeByte b = [b] := by
  have other : ∀ c : UInt8, c.toNat < 0x80 → (b == c) = false := by
    intro c low
    refine beq_eq_false_iff_ne.mpr fun same => ?_
    rw [same] at high
    omega
  have printed : ¬b < 0x20 := fun control => absurd (show b.toNat < 0x20 from control) (by omega)
  simp [escapeByte, other, printed]

theorem flatMap_escapeByte_high {bytes : List UInt8} (high : ∀ b ∈ bytes, 0x80 ≤ b.toNat) :
    bytes.flatMap escapeByte = bytes := by
  induction bytes with
  | nil => rfl
  | cons b rest ih =>
      obtain ⟨here, later⟩ := List.forall_mem_cons.mp high
      rw [List.flatMap_cons, escapeByte_high here, ih later, List.singleton_append]

theorem isUtf8_escapeChar (c : Char) :
    Text.IsUtf8 ((String.utf8EncodeChar c).flatMap escapeByte) := by
  by_cases low : c.val.toNat < 0x80
  · rw [Text.utf8EncodeChar_low low, List.flatMap_singleton]
    apply isUtf8_escapeByte
    rw [UInt8.toNat_ofNat']
    omega
  · rw [flatMap_escapeByte_high fun b => Text.le_of_mem_utf8EncodeChar (by omega)]
    exact Text.isUtf8_char c

/-- What is written for a text is a text. -/
theorem isUtf8_quote (s : String) : Text.IsUtf8 (quote s) := by
  have mark : Text.IsUtf8 [0x22] := Text.isUtf8_ascii (by decide)
  have inside : Text.IsUtf8 ((Text.utf8 s).flatMap escapeByte) := by
    rw [Text.utf8_eq_flatMap, List.flatMap_assoc]
    exact Text.isUtf8_flatMap fun c _ => isUtf8_escapeChar c
  exact (mark.append inside).append mark

end Bytes

end Json

end Bearer

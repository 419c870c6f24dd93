import Mathlib
import Bearer.Proofs.Text.Utf8
import Bearer.Url.Percent

/-!
The form encoding can be read back: plus signs to spaces first, then percent signs to the bytes that
they stand for. So no two texts are written alike.
-/
namespace Bearer

namespace Text

theorem hexValue_upperHexDigit {n : Nat} (small : n < 16) :
    hexValue (upperHexDigit n) = some n := by
  interval_cases n <;> rfl

end Text

namespace Url

/-- A character of the form encoding as a byte, a plus sign as the space that it stands for. -/
def formPlain (c : Char) : UInt8 :=
  if c = '+' then 0x20 else c.toNat.toUInt8

theorem formPlain_safe : ∀ b : Fin 256, isFormSafe (UInt8.ofFin b) = true →
    formPlain (asciiChar (UInt8.ofFin b)) = UInt8.ofFin b ∧ UInt8.ofFin b ≠ 0x25 := by
  decide +kernel

theorem formPlain_digit {n : Nat} (small : n < 16) :
    formPlain (asciiChar (Text.upperHexDigit n)) = Text.upperHexDigit n := by
  interval_cases n <;> rfl

theorem percentDecode_cons {b : UInt8} (other : b ≠ 0x25) (rest : List UInt8) :
    percentDecode (b :: rest) = b :: percentDecode rest := by
  rw [percentDecode]
  intro a c more same
  exact absurd same other

theorem percentDecode_formByte (b : UInt8) (rest : List UInt8) :
    percentDecode ((formByte b).map formPlain ++ rest) = b :: percentDecode rest := by
  simp only [formByte]
  split
  · next safe =>
      obtain ⟨plain, other⟩ := formPlain_safe b.toFin safe
      simp only [List.map_cons, List.map_nil, List.cons_append, List.nil_append]
      rw [show formPlain (asciiChar b) = b from plain]
      exact percentDecode_cons other rest
  · split
    · next space =>
        rw [eq_of_beq space]
        exact percentDecode_cons (by decide) rest
    · have high := b.toNat_lt
      have upper : b.toNat / 16 < 16 := by omega
      have lower : b.toNat % 16 < 16 := by omega
      have sign : formPlain '%' = 0x25 := rfl
      have value : (16 * (b.toNat / 16) + b.toNat % 16).toUInt8 = b := by
        rw [Nat.div_add_mod]
        simp
      simp only [percentByte, List.map_cons, List.map_nil, List.cons_append, List.nil_append, sign,
        formPlain_digit upper, formPlain_digit lower, percentDecode,
        Text.hexValue_upperHexDigit upper, Text.hexValue_upperHexDigit lower, value]

theorem percentDecode_formBytes (bytes : List UInt8) :
    percentDecode ((bytes.flatMap formByte).map formPlain) = bytes := by
  induction bytes with
  | nil => rfl
  | cons b rest ih =>
      rw [List.flatMap_cons, List.map_append, percentDecode_formByte, ih]

theorem percentDecode_formEncode (text : List Char) :
    percentDecode ((formEncode text).map formPlain) = text.flatMap String.utf8EncodeChar := by
  rw [formEncode, ← List.flatMap_assoc, percentDecode_formBytes]

theorem formEncode_injective : Function.Injective formEncode := by
  intro a b same
  apply Text.flatMap_utf8_injective
  have read := congrArg (fun text => percentDecode (text.map formPlain)) same
  simpa only [percentDecode_formEncode] using read

end Url

end Bearer

import Mathlib
import Bearer.Text.Utf8

/-!
Byte strings that are the UTF-8 of a text. Texts can be put one behind the other, a byte below 0x80
is a character by itself, and no byte of another character is below 0x80.
-/
namespace Bearer.Text

theorem utf8_ofList (text : List Char) :
    utf8 (String.ofList text) = text.flatMap String.utf8EncodeChar := by
  simp [utf8, String.toUTF8, List.utf8Encode]

theorem utf8_eq_flatMap (s : String) : utf8 s = s.toList.flatMap String.utf8EncodeChar := by
  rw [← utf8_ofList, String.ofList_toList]

theorem flatMap_utf8_injective :
    Function.Injective fun text : List Char => text.flatMap String.utf8EncodeChar := by
  intro a b same
  simp only [← utf8_ofList] at same
  have read := congrArg ofUtf8? same
  rw [ofUtf8?_utf8, ofUtf8?_utf8] at read
  exact String.ofList_inj.mp (Option.some.inj read)

theorem utf8_append (s t : String) : utf8 (s ++ t) = utf8 s ++ utf8 t := by
  simp only [utf8_eq_flatMap, String.toList_append, List.flatMap_append]

/-- The bytes of some text. -/
def IsUtf8 (bytes : List UInt8) : Prop :=
  ∃ s, utf8 s = bytes

theorem IsUtf8.read {bytes : List UInt8} (text : IsUtf8 bytes) :
    ∃ s, ofUtf8? bytes = some s ∧ utf8 s = bytes := by
  obtain ⟨s, rfl⟩ := text
  exact ⟨s, ofUtf8?_utf8 s, rfl⟩

theorem isUtf8_nil : IsUtf8 [] :=
  ⟨"", rfl⟩

theorem IsUtf8.append {a b : List UInt8} (first : IsUtf8 a) (second : IsUtf8 b) :
    IsUtf8 (a ++ b) := by
  obtain ⟨s, rfl⟩ := first
  obtain ⟨t, rfl⟩ := second
  exact ⟨s ++ t, utf8_append s t⟩

theorem isUtf8_char (c : Char) : IsUtf8 (String.utf8EncodeChar c) :=
  ⟨String.ofList [c], by rw [utf8_ofList, List.flatMap_singleton]⟩

theorem isUtf8_flatMap {α : Type} {f : α → List UInt8} {items : List α}
    (each : ∀ item ∈ items, IsUtf8 (f item)) : IsUtf8 (items.flatMap f) := by
  induction items with
  | nil => exact isUtf8_nil
  | cons item rest ih =>
      obtain ⟨here, later⟩ := List.forall_mem_cons.mp each
      exact here.append (ih later)

theorem le_of_mem_utf8EncodeChar {c : Char} (high : 0x80 ≤ c.val.toNat) {b : UInt8}
    (member : b ∈ String.utf8EncodeChar c) : 0x80 ≤ b.toNat := by
  have long : ¬c.val.toNat ≤ 127 := by omega
  simp only [String.utf8EncodeChar, long, if_false] at member
  split_ifs at member <;>
    simp only [List.mem_cons, List.not_mem_nil, or_false] at member <;>
    rcases member with rfl | rfl | rfl | rfl <;>
    simp only [UInt8.toNat_ofNat'] <;> omega

theorem toNat_ofNat_low {n : Nat} (low : n < 0x80) : (Char.ofNat n).val.toNat = n := by
  have valid : n.isValidChar := Or.inl (by omega)
  simp [Char.ofNat, valid, Char.ofNatAux]

theorem utf8EncodeChar_byte {b : UInt8} (low : b.toNat < 0x80) :
    String.utf8EncodeChar (Char.ofNat b.toNat) = [b] := by
  have value := toNat_ofNat_low low
  rw [utf8EncodeChar_low (by omega), value, UInt8.ofNat_toNat]

theorem isUtf8_ascii {b : UInt8} (low : b.toNat < 0x80) : IsUtf8 [b] :=
  utf8EncodeChar_byte low ▸ isUtf8_char (Char.ofNat b.toNat)

/-- Bytes below 0x80 are a text. -/
theorem isUtf8_of_low {bytes : List UInt8} (low : ∀ b ∈ bytes, b.toNat < 0x80) :
    IsUtf8 bytes := by
  have each := isUtf8_flatMap (f := fun b => [b]) fun b member => isUtf8_ascii (low b member)
  simpa using each

end Bearer.Text

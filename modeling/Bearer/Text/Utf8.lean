/-!
Strings as lists of UTF-8 bytes, and back where the bytes are well formed.
-/
namespace Bearer.Text

def utf8 (s : String) : List UInt8 :=
  s.toUTF8.data.toList

def ofUtf8? (bytes : List UInt8) : Option String :=
  String.fromUTF8? ⟨bytes.toArray⟩

theorem ofUtf8?_utf8 (s : String) : ofUtf8? (utf8 s) = some s := by
  have h : (⟨(utf8 s).toArray⟩ : ByteArray) = s.toByteArray := by
    simp [utf8, String.toUTF8]
  simp only [ofUtf8?, h, String.fromUTF8?]
  rw [dif_pos s.isValidUTF8]
  rfl

theorem utf8_of_ofUtf8? {bytes : List UInt8} {s : String} (h : ofUtf8? bytes = some s) :
    utf8 s = bytes := by
  simp only [ofUtf8?, String.fromUTF8?] at h
  split at h
  · cases h
    rfl
  · cases h

/-- A character of ASCII is one byte. -/
theorem utf8EncodeChar_low {c : Char} (low : c.val.toNat < 0x80) :
    String.utf8EncodeChar c = [UInt8.ofNat c.val.toNat] := by
  have short : c.val.toNat ≤ 127 := by omega
  simp only [String.utf8EncodeChar, short, if_true]

end Bearer.Text

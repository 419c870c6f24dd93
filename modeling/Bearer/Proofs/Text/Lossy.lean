import Mathlib
import Bearer.Proofs.Text.Utf8
import Bearer.Text.Lossy

/-!
Reading bytes as UTF-8 where they are. Behind a byte below 0x80 no character is under way, so from
there on the rest is read as if it stood alone; and a text is read as itself.
-/
namespace Bearer.Text

theorem toNat_ofNat_byte {n : Nat} (small : n < 256) : (UInt8.ofNat n).toNat = n := by
  simp only [UInt8.toNat_ofNat']
  omega

section Bytes

variable {n bits least greatest : Nat} (rest : List UInt8)

theorem lossyFrom_ascii (low : n < 0x80) :
    lossyFrom none (UInt8.ofNat n :: rest) = Char.ofNat n :: lossyFrom none rest := by
  simp [lossyFrom, readByte, lead, toNat_ofNat_byte (n := n) (by omega), low]

theorem lossyFrom_two (above : 0xC2 ≤ n) (below : n < 0xE0) :
    lossyFrom none (UInt8.ofNat n :: rest) = lossyFrom (some ⟨1, n - 0xC0, 0x80, 0xBF⟩) rest := by
  have past : ¬n < 0x80 ∧ ¬n < 0xC2 := by omega
  simp [lossyFrom, readByte, lead, toNat_ofNat_byte (n := n) (by omega), past, below]

theorem lossyFrom_three (above : 0xE0 ≤ n) (below : n < 0xF0) :
    lossyFrom none (UInt8.ofNat n :: rest) =
      lossyFrom (some ⟨2, n - 0xE0, if n = 0xE0 then 0xA0 else 0x80,
        if n = 0xED then 0x9F else 0xBF⟩) rest := by
  have past : ¬n < 0x80 ∧ ¬n < 0xC2 ∧ ¬n < 0xE0 := by omega
  simp [lossyFrom, readByte, lead, toNat_ofNat_byte (n := n) (by omega), past, below]

theorem lossyFrom_four (above : 0xF0 ≤ n) (below : n < 0xF5) :
    lossyFrom none (UInt8.ofNat n :: rest) =
      lossyFrom (some ⟨3, n - 0xF0, if n = 0xF0 then 0x90 else 0x80,
        if n = 0xF4 then 0x8F else 0xBF⟩) rest := by
  have past : ¬n < 0x80 ∧ ¬n < 0xC2 ∧ ¬n < 0xE0 ∧ ¬n < 0xF0 := by omega
  simp [lossyFrom, readByte, lead, toNat_ofNat_byte (n := n) (by omega), past, below]

/-- The last byte of a character gives it. -/
theorem lossyFrom_last (small : n < 256) (above : least ≤ n) (below : n ≤ greatest) :
    lossyFrom (some ⟨1, bits, least, greatest⟩) (UInt8.ofNat n :: rest) =
      Char.ofNat (bits * 64 + (n - 0x80)) :: lossyFrom none rest := by
  simp [lossyFrom, readByte, toNat_ofNat_byte small, above, below, Begun.take]

/-- A byte between the first and the last adds its bits. -/
theorem lossyFrom_more (missing : Nat) (small : n < 256) (above : least ≤ n)
    (below : n ≤ greatest) :
    lossyFrom (some ⟨missing + 2, bits, least, greatest⟩) (UInt8.ofNat n :: rest) =
      lossyFrom (some ⟨missing + 1, bits * 64 + (n - 0x80), 0x80, 0xBF⟩) rest := by
  simp [lossyFrom, readByte, toNat_ofNat_byte small, above, below, Begun.take]

/-- The bytes of a character are read as that character, whatever stands behind them. -/
theorem lossyFrom_char (c : Char) :
    lossyFrom none (String.utf8EncodeChar c ++ rest) = c :: lossyFrom none rest := by
  have same : Char.ofNat c.val.toNat = c := Char.ofNat_toNat c
  have valid : c.val.toNat < 0xD800 ∨ 0xDFFF < c.val.toNat ∧ c.val.toNat < 0x110000 := c.valid
  simp only [String.utf8EncodeChar]
  generalize c.val.toNat = v at same valid
  split_ifs with one two three
  · rw [List.singleton_append, lossyFrom_ascii _ (by omega), same]
  · have sum : (v / 64 % 32 + 192 - 0xC0) * 64 + (v % 64 + 128 - 0x80) = v := by omega
    simp only [List.cons_append, List.nil_append]
    rw [lossyFrom_two _ (by omega) (by omega), lossyFrom_last _ (by omega) (by omega) (by omega),
      sum, same]
  · have sum : ((v / 4096 % 16 + 224 - 0xE0) * 64 + (v / 64 % 64 + 128 - 0x80)) * 64 +
        (v % 64 + 128 - 0x80) = v := by omega
    simp only [List.cons_append, List.nil_append]
    rw [lossyFrom_three _ (by omega) (by omega),
      lossyFrom_more _ 0 (by omega) (by split <;> omega) (by split <;> omega),
      lossyFrom_last _ (by omega) (by omega) (by omega), sum, same]
  · have sum : (((v / 262144 % 8 + 240 - 0xF0) * 64 + (v / 4096 % 64 + 128 - 0x80)) * 64 +
        (v / 64 % 64 + 128 - 0x80)) * 64 + (v % 64 + 128 - 0x80) = v := by omega
    simp only [List.cons_append, List.nil_append]
    rw [lossyFrom_four _ (by omega) (by omega),
      lossyFrom_more _ 1 (by omega) (by split <;> omega) (by split <;> omega),
      lossyFrom_more _ 0 (by omega) (by omega) (by omega),
      lossyFrom_last _ (by omega) (by omega) (by omega), sum, same]

end Bytes

theorem lossy_utf8 (text : List Char) : lossy (text.flatMap String.utf8EncodeChar) = text := by
  rw [lossy]
  induction text with
  | nil => rfl
  | cons c rest ih => rw [List.flatMap_cons, lossyFrom_char, ih]

/-- Inside a character only bytes from 0x80 on are expected. -/
def Expects (begun : Option Begun) : Prop :=
  ∀ inside, begun = some inside → 0x80 ≤ inside.least

theorem expects_none : Expects none :=
  nofun

theorem expects_lead (b : UInt8) : Expects (lead b).2 := by
  intro inside found
  simp only [lead] at found
  split_ifs at found <;> cases found <;> simp

theorem expects_readByte (begun : Option Begun) (b : UInt8) : Expects (readByte begun b).2 := by
  cases begun with
  | none => exact expects_lead b
  | some inside =>
      simp only [readByte]
      split
      · intro next found
        simp only [Begun.take] at found
        split at found <;> cases found
        exact Nat.le_refl 0x80
      · exact expects_lead b

theorem readByte_ascii {begun : Option Begun} (expects : Expects begun) {b : UInt8}
    (low : b.toNat < 0x80) : (readByte begun b).2 = none := by
  have first : (lead b).2 = none := by
    simp [lead, low]
  cases begun with
  | none => exact first
  | some inside =>
      have above := expects inside rfl
      rw [readByte, if_neg (by omega)]
      exact first

/-- Behind a byte below 0x80 the rest is read as if it stood alone. By induction on what stands
before that byte. -/
theorem lossyFrom_append {begun : Option Begun} (expects : Expects begun) (bytes : List UInt8)
    {b : UInt8} (low : b.toNat < 0x80) (rest : List UInt8) :
    lossyFrom begun (bytes ++ b :: rest) =
      lossyFrom begun (bytes ++ [b]) ++ lossyFrom none rest := by
  induction bytes generalizing begun with
  | nil =>
      have ended := readByte_ascii expects low
      simp only [List.nil_append, lossyFrom, ended, List.append_nil]
  | cons first others ih =>
      simp only [List.cons_append, lossyFrom, ih (expects_readByte begun first), List.append_assoc]

theorem lossy_append (bytes : List UInt8) {b : UInt8} (low : b.toNat < 0x80) (rest : List UInt8) :
    lossy (bytes ++ b :: rest) = lossy (bytes ++ [b]) ++ lossy rest :=
  lossyFrom_append expects_none bytes low rest

end Bearer.Text

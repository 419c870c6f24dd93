/-!
Byte strings read as UTF-8 whatever they hold. A character that breaks off, and a byte with which
none can begin, are read as the replacement character; reading goes on with the byte that did not
fit.
-/
namespace Bearer.Text

/-- A character under way: how many bytes are missing, the bits of those seen, and the least and the
greatest byte that may come next. -/
structure Begun where
  missing : Nat
  bits : Nat
  least : Nat
  greatest : Nat

def replacement : Char :=
  '\uFFFD'

/-- What a byte gives with no character under way. The bounds for the byte behind it leave out what
is written too long, surrogates, and what lies beyond the last character. -/
def lead (b : UInt8) : List Char × Option Begun :=
  let n := b.toNat
  if n < 0x80 then ([Char.ofNat n], none)
  else if n < 0xC2 then ([replacement], none)
  else if n < 0xE0 then ([], some ⟨1, n - 0xC0, 0x80, 0xBF⟩)
  else if n < 0xF0 then
    ([], some ⟨2, n - 0xE0, if n = 0xE0 then 0xA0 else 0x80, if n = 0xED then 0x9F else 0xBF⟩)
  else if n < 0xF5 then
    ([], some ⟨3, n - 0xF0, if n = 0xF0 then 0x90 else 0x80, if n = 0xF4 then 0x8F else 0xBF⟩)
  else ([replacement], none)

/-- What a byte gives that fits the character under way. -/
def Begun.take (begun : Begun) (b : UInt8) : List Char × Option Begun :=
  let bits := begun.bits * 64 + (b.toNat - 0x80)
  if begun.missing = 1 then ([Char.ofNat bits], none)
  else ([], some ⟨begun.missing - 1, bits, 0x80, 0xBF⟩)

def readByte : Option Begun → UInt8 → List Char × Option Begun
  | none, b => lead b
  | some begun, b =>
    if begun.least ≤ b.toNat ∧ b.toNat ≤ begun.greatest then begun.take b
    else (replacement :: (lead b).1, (lead b).2)

def lossyFrom : Option Begun → List UInt8 → List Char
  | none, [] => []
  | some _, [] => [replacement]
  | begun, b :: rest => (readByte begun b).1 ++ lossyFrom (readByte begun b).2 rest

def lossy (bytes : List UInt8) : List Char :=
  lossyFrom none bytes

example : lossy [0x61, 0xE2, 0x82, 0xAC, 0xE2, 0x82, 0x62] = ['a', '€', replacement, 'b'] := by
  decide

end Bearer.Text

import Bearer.Text.Hex
import Bearer.Text.Utf8

/-!
Percent-encoding, with the set of bytes that each part of a URL does not take as they are, and
the form encoding of names and values in a query.
-/
namespace Bearer.Url

def isControl (b : UInt8) : Bool :=
  b < 0x20 || b ≥ 0x7F

def avoidedInFragment (b : UInt8) : Bool :=
  isControl b || b == 0x20 || b == 0x22 || b == 0x3C || b == 0x3E || b == 0x60

def avoidedInQuery (b : UInt8) : Bool :=
  isControl b || b == 0x20 || b == 0x22 || b == 0x23 || b == 0x3C || b == 0x3E

def avoidedInSpecialQuery (b : UInt8) : Bool :=
  avoidedInQuery b || b == 0x27

def avoidedInPath (b : UInt8) : Bool :=
  avoidedInFragment b || b == 0x23 || b == 0x3F || b == 0x7B || b == 0x7D

def avoidedInUserinfo (b : UInt8) : Bool :=
  avoidedInPath b || b == 0x2F || b == 0x3A || b == 0x3B || b == 0x3D || b == 0x40 ||
    b == 0x5B || b == 0x5C || b == 0x5D || b == 0x5E || b == 0x7C

def asciiChar (b : UInt8) : Char :=
  Char.ofNat b.toNat

def percentByte (b : UInt8) : List Char :=
  ['%', asciiChar (Text.upperHexDigit (b.toNat / 16)), asciiChar (Text.upperHexDigit (b.toNat % 16))]

def encodeByte (avoided : UInt8 → Bool) (b : UInt8) : List Char :=
  if avoided b then percentByte b else [asciiChar b]

/-- The UTF-8 bytes of a text, each one in the set written with a percent sign. -/
def encode (avoided : UInt8 → Bool) (text : List Char) : List Char :=
  text.flatMap fun c => (String.utf8EncodeChar c).flatMap (encodeByte avoided)

/-- Replaces each percent sign that two digits follow, and leaves all else. -/
def percentDecode : List UInt8 → List UInt8
  | 0x25 :: a :: b :: rest =>
    match Text.hexValue a, Text.hexValue b with
    | some high, some low => (16 * high + low).toUInt8 :: percentDecode rest
    | _, _ => 0x25 :: percentDecode (a :: b :: rest)
  | b :: rest => b :: percentDecode rest
  | [] => []

def isFormSafe (b : UInt8) : Bool :=
  (0x30 ≤ b && b ≤ 0x39) || (0x41 ≤ b && b ≤ 0x5A) || (0x61 ≤ b && b ≤ 0x7A) ||
    b == 0x2A || b == 0x2D || b == 0x2E || b == 0x5F

/-- Letters, digits and `*-._` stay, a space becomes a plus sign, all else is percent-encoded. -/
def formByte (b : UInt8) : List Char :=
  if isFormSafe b then [asciiChar b] else if b == 0x20 then ['+'] else percentByte b

def formEncode (text : List Char) : List Char :=
  text.flatMap fun c => (String.utf8EncodeChar c).flatMap formByte

theorem encode_append (avoided : UInt8 → Bool) (a b : List Char) :
    encode avoided (a ++ b) = encode avoided a ++ encode avoided b :=
  List.flatMap_append

end Bearer.Url

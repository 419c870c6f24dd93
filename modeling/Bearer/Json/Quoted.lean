import Bearer.Json.Tree
import Bearer.Text.Hex
import Bearer.Text.Utf8

/-!
The text of a character string and the way back. Units from escapes must be scalar values or
pair up as surrogates; this is checked in order, before the bytes as a whole are checked
to be UTF-8 at the closing quote.
-/
namespace Bearer.Json

def isLead (n : Nat) : Bool :=
  0xD800 ≤ n && n < 0xDC00

def isTrail (n : Nat) : Bool :=
  0xDC00 ≤ n && n < 0xE000

def pair (lead trail : Nat) : Nat :=
  0x10000 + (lead - 0xD800) * 0x400 + (trail - 0xDC00)

namespace Quoted

def bytesOf (fault : Option Category) : List Piece → Except Category (List UInt8)
  | [] =>
    match fault with
    | none => .ok []
    | some fault => .error fault
  | .byte b :: rest => (b :: ·) <$> bytesOf fault rest
  | .unit n :: rest =>
    if isTrail n then .error .malformed
    else if isLead n then
      match rest with
      | .unit m :: rest =>
        if isTrail m then (String.utf8EncodeChar (Char.ofNat (pair n m)) ++ ·) <$> bytesOf fault rest
        else .error .malformed
      | .byte _ :: _ => .error .malformed
      | [] =>
        match fault with
        | some .truncated => .error .truncated
        | _ => .error .malformed
    else (String.utf8EncodeChar (Char.ofNat n) ++ ·) <$> bytesOf fault rest

def text (q : Quoted) : Except Category String := do
  let bytes ← bytesOf q.fault q.pieces
  match Text.ofUtf8? bytes with
  | some s => return s
  | none => .error .malformed

end Quoted

/-- A byte as it is written inside quotes: quote, backslash and control characters are escaped. -/
def escapeByte (b : UInt8) : List UInt8 :=
  if b == 0x22 then [0x5C, 0x22]
  else if b == 0x5C then [0x5C, 0x5C]
  else if b == 0x08 then [0x5C, 0x62]
  else if b == 0x0C then [0x5C, 0x66]
  else if b == 0x0A then [0x5C, 0x6E]
  else if b == 0x0D then [0x5C, 0x72]
  else if b == 0x09 then [0x5C, 0x74]
  else if b < 0x20 then
    [0x5C, 0x75, 0x30, 0x30, Text.lowerHexDigit (b.toNat / 16), Text.lowerHexDigit (b.toNat % 16)]
  else [b]

def quote (s : String) : List UInt8 :=
  0x22 :: (Text.utf8 s).flatMap escapeByte ++ [0x22]

end Bearer.Json

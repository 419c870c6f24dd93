import Bearer.Decimal.Shortest
import Bearer.Json.Tree

/-!
The values of numerals and the numerals of values. A numeral without fraction and exponent is an
integer when 64 bits hold it, signed for a negative one and unsigned otherwise; every other
numeral, `-0` among them, is a double. Its significand keeps digits as long as 64 bits hold
them and is then scaled by powers of ten in double arithmetic.
-/
namespace Bearer.Json

inductive Number where
  | int (value : Int)
  | float (value : Float)

namespace Numeral

def magnitude (n : Numeral) : Nat :=
  Decimal.ofDigits n.whole

/-- The integer that the numeral denotes, unless it counts as a double. -/
def toInt? (n : Numeral) : Option Int :=
  if n.fraction.isSome || n.exponent.isSome then none
  else if n.negative then
    if 1 ≤ n.magnitude ∧ n.magnitude ≤ 1 <<< 63 then some (-n.magnitude) else none
  else if n.magnitude < 1 <<< 64 then some n.magnitude
  else none

/-- Appends digits to a significand as long as 64 bits hold it, and gives the digits left. -/
def fold (significand : Nat) : List Nat → Nat × List Nat
  | [] => (significand, [])
  | d :: rest =>
    if 10 * significand + d < 1 <<< 64 then fold (10 * significand + d) rest
    else (significand, d :: rest)

/-- The significand and the power of ten that the digits before an exponent amount to. -/
def significand (n : Numeral) : Nat × Int :=
  let (s, uncounted) := fold 0 n.whole
  match n.fraction with
  | none => (s, uncounted.length)
  | some fraction =>
    let (s, dropped) := fold s fraction
    (s, uncounted.length - (fraction.length - dropped.length : Nat))

def power (k : Nat) : Float :=
  Float.ofScientific 1 false k

def shrink (f : Float) (k : Nat) : Float :=
  if h : k ≤ 308 then f / power k
  else if f == 0 then f
  else shrink (f / power 308) (k - 308)
termination_by k

/-- `f` times a power of ten, or nothing where no double is large enough. -/
def scale (f : Float) (exponent : Int) : Option Float :=
  match exponent with
  | .ofNat k =>
    if k ≤ 308 then
      let g := f * power k
      if g.isInf then none else some g
    else if f == 0 then some f
    else none
  | .negSucc k => some (shrink f (k + 1))

def maxExponent : Int := 0x7FFFFFFF

/-- The double that the numeral denotes, or nothing where it is out of range. -/
def toFloat? (n : Numeral) : Option Float := do
  let (s, start) := n.significand
  let positive ←
    match n.exponent with
    | none => scale (Float.ofNat s) start
    | some (negative, digits) =>
      let e : Int := Decimal.ofDigits digits
      if e > maxExponent then
        if s ≠ 0 && !negative then none else some 0
      else
        let total := if negative then start - e else start + e
        scale (Float.ofNat s) (max (-maxExponent - 1) (min maxExponent total))
  return if n.negative then -positive else positive

def value? (n : Numeral) : Option Number :=
  match n.toInt? with
  | some i => some (.int i)
  | none => n.toFloat?.map .float

end Numeral

/-- Doubles are written without an exponent from 10⁻⁵ up to 10¹⁶, and always with a digit behind
the point or with an exponent. -/
def Number.positional (digits : List Nat) (scale : Int) : List UInt8 :=
  let ds := digits.map Decimal.digitByte
  let n : Int := digits.length
  let zeros (k : Int) : List UInt8 := List.replicate k.toNat 0x30
  if n ≤ scale ∧ scale ≤ 16 then ds ++ zeros (scale - n) ++ [0x2E, 0x30]
  else if 0 < scale ∧ scale ≤ 16 then ds.take scale.toNat ++ 0x2E :: ds.drop scale.toNat
  else if -5 < scale ∧ scale ≤ 0 then [0x30, 0x2E] ++ zeros (-scale) ++ ds
  else
    match ds with
    | [d] => d :: 0x65 :: Decimal.intBytes (scale - 1)
    | d :: rest => d :: 0x2E :: rest ++ 0x65 :: Decimal.intBytes (scale - 1)
    | [] => []

/-- A double that is not finite has no numeral and is written as `null`. -/
def Number.bytes : Number → List UInt8
  | .int i => Decimal.intBytes i
  | .float f =>
    let bits := f.toBits.toNat
    let sign : List UInt8 := if bits ≥ 1 <<< 63 then [0x2D] else []
    let rest := bits % (1 <<< 63)
    if rest ≥ 0x7FF0000000000000 then [0x6E, 0x75, 0x6C, 0x6C]
    else if rest = 0 then sign ++ [0x30, 0x2E, 0x30]
    else
      let s := Decimal.shortest rest
      sign ++ positional s.digits s.scale

end Bearer.Json

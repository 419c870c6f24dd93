import Bearer.Decimal.Digits

/-!
The shortest decimal that reads back as a given double. A finite double stands for the interval
of reals that round to it; the fewest digits that reach into this interval are taken, and among
decimals of that length the one nearest to the double itself.
-/
namespace Bearer.Decimal

/-- A decimal `0.d₁d₂… · 10 ^ scale`. -/
structure Scientific where
  digits : List Nat
  scale : Int
  deriving DecidableEq, Repr

structure Ratio where
  num : Nat
  den : Nat

def Ratio.scaled (num : Nat) (two : Int) : Ratio :=
  match two with
  | .ofNat k => ⟨num <<< k, 1⟩
  | .negSucc k => ⟨num, 1 <<< (k + 1)⟩

def Ratio.timesTenPow (r : Ratio) (exponent : Int) : Ratio :=
  match exponent with
  | .ofNat k => ⟨r.num * Nat.pow 10 k, r.den⟩
  | .negSucc k => ⟨r.num, r.den * Nat.pow 10 (k + 1)⟩

/-- The least `k` with `r * 10 ^ k ≥ 1`, counted up from `k`. -/
def Ratio.leadingZeros (r : Ratio) : Nat → Nat → Nat
  | 0, k => k
  | fuel + 1, k => if r.num * Nat.pow 10 k ≥ r.den then k else leadingZeros r fuel (k + 1)

/-- The exponent `s` with `10 ^ (s - 1) ≤ r < 10 ^ s`, for `r` in the range of doubles. -/
def Ratio.magnitude (r : Ratio) : Int :=
  if r.num ≥ r.den then (Decimal.digits (r.num / r.den)).length
  else 1 - (r.leadingZeros 400 1 : Nat)

/-- A double `m * 2 ^ q` together with the ends of its interval, in units of `2 ^ (q - 2)`. -/
structure Binary where
  mantissa : Nat
  exponent : Int
  low : Nat
  high : Nat

/-- Decodes the bits of a finite positive double. -/
def Binary.ofBits (bits : Nat) : Binary :=
  let fraction := bits % (1 <<< 52)
  let field := (bits >>> 52) % (1 <<< 11)
  let m := if field = 0 then fraction else (1 <<< 52) + fraction
  let q : Int := (if field = 0 then 1 else field : Nat) - 1075
  ⟨m, q, if fraction = 0 ∧ field > 1 then 4 * m - 1 else 4 * m - 2, 4 * m + 2⟩

/-- Whether `candidate * 10 ^ exponent` rounds to the double. -/
def Binary.holds (b : Binary) (candidate : Nat) (exponent : Int) : Bool :=
  let low := Ratio.scaled b.low (b.exponent - 2)
  let high := Ratio.scaled b.high (b.exponent - 2)
  let c := (Ratio.mk candidate 1).timesTenPow exponent
  if b.mantissa % 2 = 0 then
    low.num * c.den ≤ c.num * low.den && c.num * high.den ≤ high.num * c.den
  else
    low.num * c.den < c.num * low.den && c.num * high.den < high.num * c.den

/-- Of the two decimals with `n` digits that enclose the double, the nearer one that rounds to it;
an even last digit decides between two at the same distance. -/
def Binary.withDigits (b : Binary) (magnitude : Int) (n : Nat) : Option (Nat × Int) :=
  let exponent := magnitude - n
  let v := (Ratio.scaled b.mantissa b.exponent).timesTenPow (-exponent)
  let below := v.num / v.den
  let twice := 2 * (v.num % v.den)
  match b.holds below exponent && below > 0, b.holds (below + 1) exponent with
  | true, true =>
    if twice < v.den || (twice = v.den && below % 2 = 0) then some (below, exponent)
    else some (below + 1, exponent)
  | true, false => some (below, exponent)
  | false, true => some (below + 1, exponent)
  | false, false => none

def Binary.search (b : Binary) (magnitude : Int) : Nat → Nat → Option (Nat × Int)
  | 0, _ => none
  | fuel + 1, n =>
    match b.withDigits magnitude n with
    | some found => some found
    | none => search b magnitude fuel (n + 1)

/-- The shortest decimal of the positive double with these bits. -/
def shortest (bits : Nat) : Scientific :=
  let b := Binary.ofBits bits
  let magnitude := (Ratio.scaled b.mantissa b.exponent).magnitude
  let (value, exponent) := (b.search magnitude 17 1).getD (0, 0)
  let ds := digits value
  let kept := (ds.reverse.dropWhile (· == 0)).reverse
  ⟨kept, ds.length + exponent⟩

example : shortest 0x3FF8000000000000 = ⟨[1, 5], 1⟩ := by decide +kernel
example : shortest 1 = ⟨[5], -323⟩ := by decide +kernel
example : shortest 0x4059000000000000 = ⟨[1], 3⟩ := by decide +kernel
example : shortest 0x3FB999999999999A = ⟨[1], 0⟩ := by decide +kernel

end Bearer.Decimal

import Bearer.Decimal.Digits

/-!
Lengths of time. An interval is not negative, is counted in nanoseconds and has fewer than 2⁶⁴
seconds; a span may be negative.
-/
namespace Bearer.Time

def nanosPerSecond : Nat := 1000000000

/-- Nanoseconds in the longest interval, and one more. -/
def Interval.bound : Nat := (1 <<< 64) * nanosPerSecond

structure Interval where
  nanos : Nat
  lt_bound : nanos < Interval.bound
  deriving DecidableEq

namespace Interval

def seconds (i : Interval) : Nat :=
  i.nanos / nanosPerSecond

def subsecond (i : Interval) : Nat :=
  i.nanos % nanosPerSecond

def ofNanos? (n : Nat) : Option Interval :=
  if h : n < bound then some ⟨n, h⟩ else none

/-- Seconds and nanoseconds, of which any number carries into the seconds. -/
def ofParts? (seconds nanos : Nat) : Option Interval :=
  ofNanos? (seconds * nanosPerSecond + nanos)

def ofSeconds (n : Nat) (h : n < 1 <<< 64 := by decide) : Interval :=
  ⟨n * nanosPerSecond, Nat.mul_lt_mul_of_pos_right h (by decide)⟩

def ofMillis (n : Nat) (h : n < 1 <<< 64 := by decide) : Interval :=
  ⟨n * 1000000, by simp only [bound, nanosPerSecond]; omega⟩

def zero : Interval :=
  ⟨0, by decide⟩

/-- Ticks of a clock that counts milliseconds until the interval is over. -/
def ticks (i : Interval) : Nat :=
  (i.nanos + 999999) / 1000000

def max (a b : Interval) : Interval :=
  if a.nanos ≤ b.nanos then b else a

private def fractionText (digits : List Nat) : String :=
  match (digits.reverse.dropWhile (· == 0)).reverse with
  | [] => ""
  | kept => "." ++ String.join (kept.map toString)

/-- Digits of a fraction of `10 ^ width`, zeros in front included. -/
def padded (width n : Nat) : List Nat :=
  let ds := Decimal.digits n
  List.replicate (width - ds.length) 0 ++ ds

/-- The largest unit of which there is at least one, with a fraction as long as it has to be. -/
def text (i : Interval) : String :=
  let n := i.subsecond
  if i.seconds > 0 then toString i.seconds ++ fractionText (padded 9 n) ++ "s"
  else if n ≥ 1000000 then toString (n / 1000000) ++ fractionText (padded 6 (n % 1000000)) ++ "ms"
  else if n ≥ 1000 then toString (n / 1000) ++ fractionText (padded 3 (n % 1000)) ++ "µs"
  else toString n ++ "ns"

end Interval

/-- A signed length of time in nanoseconds. -/
structure Span where
  nanos : Int
  deriving DecidableEq, Repr

namespace Span

def ofSeconds (n : Int) : Span :=
  ⟨n * nanosPerSecond⟩

def ofMillis (n : Int) : Span :=
  ⟨n * 1000000⟩

def seconds (s : Span) : Int :=
  s.nanos.tdiv nanosPerSecond

def subsecond (s : Span) : Int :=
  s.nanos.tmod nanosPerSecond

def toInterval? (s : Span) : Option Interval :=
  match s.nanos with
  | .ofNat n => Interval.ofNanos? n
  | .negSucc _ => none

end Span

example : (Interval.ofMillis 50).text = "50ms" := by decide +kernel
example : (Interval.ofMillis 3140).text = "3.14s" := by decide +kernel
example : (Span.ofMillis (-100)).seconds = 0 ∧ (Span.ofMillis (-100)).subsecond = -100000000 := by
  decide

end Bearer.Time

/-!
Decimal digits of natural numbers, first digit first.
-/
namespace Bearer.Decimal

def digits (n : Nat) : List Nat :=
  if n < 10 then [n] else digits (n / 10) ++ [n % 10]
termination_by n

/-- The number that a list of digits stands for. -/
def ofDigits (ds : List Nat) : Nat :=
  ds.foldl (fun n d => 10 * n + d) 0

theorem ofDigits_digits (n : Nat) : ofDigits (digits n) = n := by
  fun_induction digits n with
  | case1 n h => simp [ofDigits]
  | case2 n h ih =>
    simp only [ofDigits] at ih
    simp only [ofDigits, List.foldl_append, ih, List.foldl_cons, List.foldl_nil]
    omega

theorem lt_of_mem_digits (n : Nat) : ∀ d ∈ digits n, d < 10 := by
  fun_induction digits n with
  | case1 n h => simpa using h
  | case2 n h ih =>
    intro d hd
    rcases List.mem_append.mp hd with hd | hd
    · exact ih d hd
    · simp only [List.mem_singleton] at hd
      omega

def digitByte (d : Nat) : UInt8 :=
  (0x30 + d).toUInt8

def natBytes (n : Nat) : List UInt8 :=
  (digits n).map digitByte

def intBytes : Int → List UInt8
  | .ofNat n => natBytes n
  | .negSucc n => 0x2D :: natBytes (n + 1)

end Bearer.Decimal

/-!
The Unicode property White_Space, as the twenty-five code points that have it.
-/
namespace Bearer.Text

def isBlank (c : Char) : Bool :=
  let n := c.toNat
  (0x09 ≤ n && n ≤ 0x0D) || n == 0x20 || n == 0x85 || n == 0xA0 || n == 0x1680 ||
    (0x2000 ≤ n && n ≤ 0x200A) || n == 0x2028 || n == 0x2029 || n == 0x202F ||
    n == 0x205F || n == 0x3000

example : isBlank '\u00A0' ∧ isBlank '\u0085' ∧ ¬ isBlank '\u200B' := by decide

end Bearer.Text

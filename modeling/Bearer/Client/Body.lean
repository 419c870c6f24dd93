import Bearer.Error
import Bearer.Json.Value

/-!
Bodies of requests.
-/
namespace Bearer.Client

/-- The text that stands for a value in the place of a name: strings stay, numbers and truth values
are written out, and nothing else can be a name. -/
def nameBytes : Json.Value → Except Error (List UInt8)
  | .string s => .ok (Json.quote s)
  | .number n => .ok (0x22 :: n.bytes ++ [0x22])
  | .bool b => .ok (0x22 :: (Json.Value.bool b).bytes ++ [0x22])
  | _ => .error .requestBody

def pairBytes : List (Json.Value × Json.Value) → Except Error (List (List UInt8))
  | [] => .ok []
  | (name, value) :: rest => do
    return ((← nameBytes name) ++ 0x3A :: value.bytes) :: (← pairBytes rest)

/-- An object whose members are these pairs in their order, repeated names included. -/
def bodyOfPairs (pairs : List (Json.Value × Json.Value)) : Except Error (List UInt8) := do
  let members ← pairBytes pairs
  return 0x7B :: List.intercalate [0x2C] members ++ [0x7D]

end Bearer.Client

import Bearer.Json.Number
import Bearer.Json.Quoted

/-!
JSON values and the compact text that is sent for them.
-/
namespace Bearer.Json

inductive Value where
  | null
  | bool (value : Bool)
  | number (value : Number)
  | string (value : String)
  | array (items : List Value)
  | object (members : List (String × Value))

namespace Value

def int (i : Int) : Value :=
  .number (.int i)

mutual

def bytes : Value → List UInt8
  | .null => [0x6E, 0x75, 0x6C, 0x6C]
  | .bool true => [0x74, 0x72, 0x75, 0x65]
  | .bool false => [0x66, 0x61, 0x6C, 0x73, 0x65]
  | .number n => n.bytes
  | .string s => quote s
  | .array items => 0x5B :: itemBytes items ++ [0x5D]
  | .object members => 0x7B :: memberBytes members ++ [0x7D]

def itemBytes : List Value → List UInt8
  | [] => []
  | [v] => v.bytes
  | v :: w :: rest => v.bytes ++ 0x2C :: itemBytes (w :: rest)

def memberBytes : List (String × Value) → List UInt8
  | [] => []
  | [(k, v)] => quote k ++ 0x3A :: v.bytes
  | (k, v) :: m :: rest => quote k ++ 0x3A :: v.bytes ++ 0x2C :: memberBytes (m :: rest)

end

/-- The value of the first member with this name. -/
def get? (v : Value) (name : String) : Option Value :=
  match v with
  | .object members => members.lookup name
  | _ => none

end Value

/-- Members in the order of their names; a name that is there already gets the new value. -/
def insertMember (name : String) (value : Value) : List (String × Value) → List (String × Value)
  | [] => [(name, value)]
  | (other, old) :: rest =>
    if name < other then (name, value) :: (other, old) :: rest
    else if name = other then (name, value) :: rest
    else (other, old) :: insertMember name value rest

end Bearer.Json

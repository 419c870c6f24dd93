import Bearer.Json.Fault

/-!
What can be told about a JSON text before it is known which shape is wanted: its values in order,
down to the point where the grammar is broken or the text ends. Character strings and numbers
are kept as written, because a value that is passed over is checked less strictly than one that
is read.
-/
namespace Bearer.Json

/-- One element of a character string: a byte that stands for itself (a short escape is already
replaced), or a unit given by four hexadecimal digits. -/
inductive Piece where
  | byte (value : UInt8)
  | unit (value : Nat)
  deriving DecidableEq, Repr

/-- A character string up to its closing quote, or up to the fault met before it. -/
structure Quoted where
  pieces : List Piece
  fault : Option Category
  deriving DecidableEq, Repr

/-- A number as written. Digits are values below ten, the first written digit first; an exponent
carries `true` when it is negative. -/
structure Numeral where
  negative : Bool
  whole : List Nat
  fraction : Option (List Nat)
  exponent : Option (Bool × List Nat)
  deriving DecidableEq, Repr

/-- `broken` is a value that cannot be completed, with the fault for a reader that wants the value
and for one that passes over it. `absent` stands where a bracket, a comma or a name announces a
value and none begins; its fault is one of the container. A list of items or members ends with the fault that stopped it,
or with none where its bracket was closed; behind an unfinished value the fault repeats the one
for passing over that value. -/
inductive Tree where
  | null
  | bool (value : Bool)
  | number (value : Numeral)
  | string (value : Quoted)
  | array (items : List Tree) (fault : Option Category)
  | object (members : List (Quoted × Tree)) (fault : Option Category)
  | broken (whenRead whenSkipped : Category)
  | absent (fault : Category)

/-- The fault that a reader meets who passes over the value. -/
def Tree.skipFault : Tree → Option Category
  | .null | .bool _ | .number _ => none
  | .string value => value.fault
  | .array _ fault | .object _ fault => fault
  | .broken _ whenSkipped => some whenSkipped
  | .absent fault => some fault

/-- A fault of this value, seen from the container in which the value is at `segment`. -/
def Tree.place (segment : Segment) : Tree → Fault → Fault
  | .absent _, fault => fault
  | _, fault => fault.inside segment

end Bearer.Json

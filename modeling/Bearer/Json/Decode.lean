import Bearer.Json.Scan
import Bearer.Json.Value

/-!
Readers: from the tree of a text to a value of the shape that is wanted, or to the first fault in
the order of the text. A record may be written as an object, its members in any order, or as
an array of its fields in their order; unless the record is closed, members that it does not
know are passed over.
-/
namespace Bearer.Json

abbrev Reader (α : Type) := Tree → Except Fault α

namespace Reader

/-- The fault for a value of another shape than the one wanted. What a scalar holds is checked
first; what is inside a bracket is not looked at. -/
def mismatch : Tree → Category
  | .null | .bool _ | .array _ _ | .object _ _ => .mismatched
  | .number n => if n.value?.isSome then .mismatched else .malformed
  | .string q =>
    match q.text with
    | .ok _ => .mismatched
    | .error fault => fault
  | .broken whenRead _ => whenRead
  | .absent fault => fault

def refuse {α : Type} (tree : Tree) : Except Fault α :=
  .error (.here (mismatch tree))

def text : Reader String
  | .string q => q.text.mapError .here
  | tree => refuse tree

def intIn (low high : Int) : Reader Int
  | .number n =>
    match n.value? with
    | some (.int i) => if low ≤ i ∧ i ≤ high then .ok i else .error (.here .mismatched)
    | some (.float _) => .error (.here .mismatched)
    | none => .error (.here .malformed)
  | tree => refuse tree

def int64 : Reader Int :=
  intIn (-0x8000000000000000) 0x7FFFFFFFFFFFFFFF

def natBelow (bound : Nat) : Reader Nat := fun tree =>
  Int.toNat <$> intIn 0 (bound - 1) tree

/-- `null` stands for nothing. -/
def optional {α : Type} (read : Reader α) : Reader (Option α)
  | .null => .ok none
  | tree => some <$> read tree

/-- Refuses with the text's own fault what a further check does not accept. -/
def filterMap {α β : Type} (read : Reader α) (check : α → Option β) : Reader β := fun tree => do
  match check (← read tree) with
  | some b => return b
  | none => .error (.here .mismatched)

def skip (tree : Tree) : Except Fault Unit :=
  match tree.skipFault with
  | none => .ok ()
  | some fault => .error (.here fault)

/-- The items from index `i` on, up to the closing bracket. -/
def items {α : Type} (read : Reader α) (fault : Option Category) :
    Nat → List Tree → Except Fault (List α)
  | _, [] =>
    match fault with
    | none => .ok []
    | some fault => .error (.here fault)
  | i, tree :: rest => do
    let first ← (read tree).mapError (tree.place (.item i))
    return first :: (← items read fault (i + 1) rest)

def list {α : Type} (read : Reader α) : Reader (List α)
  | .array trees fault => items read fault 0 trees
  | tree => refuse tree

end Reader

/-- The shape of a record with field values in `σ`: its fields in order, and whether a member with
another name is refused. -/
structure Record (σ : Type) where
  fields : List (String × Reader σ)
  closed : Bool

namespace Record

variable {σ : Type}

/-- The members of an object that are fields, in the order of the text. A field may occur once. -/
def ofMembers (record : Record σ) (fault : Option Category) :
    List String → List (Quoted × Tree) → Except Fault (List (String × σ))
  | _, [] =>
    match fault with
    | none => .ok []
    | some fault => .error (.inside .unnamed (.here fault))
  | seen, (key, tree) :: rest => do
    let name ← key.text.mapError fun fault => Fault.inside .unnamed (.here fault)
    match record.fields.lookup name with
    | some read =>
      if name ∈ seen then .error (.here .mismatched)
      else
        let value ← (read tree).mapError (tree.place (.member name))
        return (name, value) :: (← ofMembers record fault (name :: seen) rest)
    | none =>
      if record.closed then .error (.here .mismatched)
      else
        (Reader.skip tree).mapError (tree.place (.member name))
        ofMembers record fault seen rest

/-- The fields that the items of an array are, in order; fewer items give fewer fields. -/
def ofItems (fault : Option Category) :
    Nat → List (String × Reader σ) → List Tree → Except Fault (List (String × σ))
  | _, [], [] =>
    match fault with
    | none => .ok []
    | some fault => .error (.here fault)
  | _, [], _ :: _ => .error (.here .malformed)
  | _, _ :: _, [] =>
    match fault with
    | none => .ok []
    | some fault => .error (.here fault)
  | i, (name, read) :: fields, tree :: rest => do
    let value ← (read tree).mapError (tree.place (.item i))
    return (name, value) :: (← ofItems fault (i + 1) fields rest)

/-- The fields that are present, by name. -/
def read (record : Record σ) : Reader (List (String × σ))
  | .object members fault => record.ofMembers fault [] members
  | .array items fault => ofItems fault 0 record.fields items
  | tree => Reader.refuse tree

/-- Reads the record and builds a value from its fields; a value that cannot be built is a fault of
the record. -/
def readAs {α : Type} (record : Record σ) (build : List (String × σ) → Option α) : Reader α :=
  Reader.filterMap record.read build

end Record

namespace Value

/-- How many brackets may be open around a value that is built. -/
def depthLimit : Nat := 127

mutual

/-- Builds any value. `room` is the number of brackets that may still be opened. -/
def ofTree (room : Nat) : Reader Value
  | .null => .ok .null
  | .bool b => .ok (.bool b)
  | .number n =>
    match n.value? with
    | some value => .ok (.number value)
    | none => .error (.here .malformed)
  | .string q => .string <$> q.text.mapError .here
  | .array items fault =>
    match room with
    | 0 => .error (.here .malformed)
    | room + 1 => .array <$> ofItems room fault 0 items
  | .object members fault =>
    match room with
    | 0 => .error (.here .malformed)
    | room + 1 => .object <$> ofMembers room fault [] members
  | .broken whenRead _ => .error (.here whenRead)
  | .absent fault => .error (.here fault)

def ofItems (room : Nat) (fault : Option Category) :
    Nat → List Tree → Except Fault (List Value)
  | _, [] =>
    match fault with
    | none => .ok []
    | some fault => .error (.here fault)
  | i, tree :: rest => do
    let first ← (ofTree room tree).mapError (tree.place (.item i))
    return first :: (← ofItems room fault (i + 1) rest)

def ofMembers (room : Nat) (fault : Option Category) :
    List (String × Value) → List (Quoted × Tree) → Except Fault (List (String × Value))
  | built, [] =>
    match fault with
    | none => .ok built
    | some fault => .error (.inside .unnamed (.here fault))
  | built, (key, tree) :: rest => do
    let name ← key.text.mapError fun fault => Fault.inside .unnamed (.here fault)
    let value ← (ofTree room tree).mapError (tree.place (.member name))
    ofMembers room fault (insertMember name value built) rest

end

def reader : Reader Value :=
  ofTree depthLimit

end Value

def decode {α : Type} (read : Reader α) (bytes : List UInt8) : Except Fault α :=
  read (Tree.ofBytes bytes)

/-- Reads a whole text, behind whose value only blanks may follow. -/
def decodeAll {α : Type} (read : Reader α) (text : String) : Except Category α :=
  let (tree, clean) := Tree.scan (Text.utf8 text)
  match read tree with
  | .error fault => .error fault.category
  | .ok value => if clean then .ok value else .error .malformed

end Bearer.Json

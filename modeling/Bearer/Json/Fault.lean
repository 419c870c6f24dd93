/-!
Why a JSON text was refused: the kind of fault and the place of the value that was being read.
-/
namespace Bearer.Json

/-- The three ways in which reading fails: the text breaks the grammar, it ends too early, or it
is well formed and has another shape than the one asked for. -/
inductive Category where
  | malformed
  | truncated
  | mismatched
  deriving DecidableEq, Repr

def Category.label : Category → String
  | .malformed => "syntax"
  | .truncated => "eof"
  | .mismatched => "data"

/-- One step from a value to a value inside it. `unnamed` stands for a member whose name could not
be read. -/
inductive Segment where
  | member (name : String)
  | item (index : Nat)
  | unnamed
  deriving DecidableEq, Repr

abbrev Path := List Segment

def Segment.text : Segment → String
  | .member name => name
  | .item index => "[" ++ toString index ++ "]"
  | .unnamed => "?"

private def Path.textAfter : Path → String
  | [] => ""
  | .item index :: rest => (Segment.item index).text ++ Path.textAfter rest
  | segment :: rest => "." ++ segment.text ++ Path.textAfter rest

/-- The root is a single point; member names are joined by points, and an index follows directly
what it indexes. -/
def Path.text : Path → String
  | [] => "."
  | segment :: rest => segment.text ++ Path.textAfter rest

structure Fault where
  path : Path
  category : Category
  deriving DecidableEq, Repr

def Fault.here (category : Category) : Fault :=
  ⟨[], category⟩

/-- The same fault, seen from the value that encloses it. -/
def Fault.inside (segment : Segment) (fault : Fault) : Fault :=
  { fault with path := segment :: fault.path }

example : Path.text [.member "menu", .member "button", .item 1, .member "name"] =
    "menu.button[1].name" := by decide

example : Path.text [] = "." := rfl

end Bearer.Json

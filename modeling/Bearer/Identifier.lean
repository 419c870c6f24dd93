import Bearer.Json.Decode
import Bearer.Text.Blank

/-!
Names of applications and of issuers. An identifier holds its own proof that the text was
accepted.
-/
namespace Bearer

inductive Identifier.Kind where
  | app
  | issuer
  deriving DecidableEq, Repr

def Identifier.Kind.label : Identifier.Kind → String
  | .app => "App"
  | .issuer => "Issuer"

inductive Identifier.Problem where
  | empty
  | whitespace
  | tooLong
  deriving DecidableEq, Repr

def Identifier.maxLength : Nat := 128

def Identifier.Problem.message : Identifier.Problem → String
  | .empty => "cannot be empty"
  | .whitespace => "cannot contain whitespace"
  | .tooLong => "cannot exceed " ++ toString Identifier.maxLength ++ " characters"

/-- The first thing that is wrong with a text; length is counted in characters. -/
def Identifier.problem? (text : String) : Option Identifier.Problem :=
  if text.isEmpty then some .empty
  else if text.toList.any Text.isBlank then some .whitespace
  else if text.length > Identifier.maxLength then some .tooLong
  else none

structure Identifier (kind : Identifier.Kind) where
  text : String
  accepted : Identifier.problem? text = none
  deriving DecidableEq

namespace Identifier

structure Fault where
  kind : Kind
  problem : Problem
  deriving DecidableEq, Repr

def Fault.message (fault : Fault) : String :=
  fault.kind.label ++ " identifier " ++ fault.problem.message ++ "."

def ofText (kind : Kind) (text : String) : Except Fault (Identifier kind) :=
  match h : problem? text with
  | none => .ok ⟨text, h⟩
  | some problem => .error ⟨kind, problem⟩

def describe {kind : Kind} (id : Identifier kind) : String :=
  kind.label ++ "(" ++ id.text ++ ")"

def toJson {kind : Kind} (id : Identifier kind) : Json.Value :=
  .string id.text

def reader (kind : Kind) : Json.Reader (Identifier kind) :=
  Json.Reader.filterMap Json.Reader.text fun text => (ofText kind text).toOption

end Identifier

abbrev AppId := Identifier .app

abbrev IssuerId := Identifier .issuer

end Bearer

import Bearer.Error
import Bearer.Json.Decode

/-!
Requests to an issuer and the replies to them.
-/
namespace Bearer.Http

structure Request where
  method : String
  target : String
  contentType : Option String
  body : List UInt8
  deriving DecidableEq, Repr

structure Reply where
  status : Nat
  body : List UInt8
  deriving DecidableEq, Repr

def jsonContentType : String := "application/json; charset=utf-8"

/-- A body, even an empty one, is announced as JSON. -/
def Request.build (method : String) (url : Url) (body : Option (List UInt8)) :
    Except Error Request :=
  match targetOf url.text with
  | .error fault => .error (.requestTarget fault)
  | .ok target => .ok ⟨method, target, body.map fun _ => jsonContentType, body.getD []⟩

namespace Reply

def isSuccess (reply : Reply) : Bool :=
  200 ≤ reply.status && reply.status < 300

def requireSuccess (reply : Reply) : Except Error Unit :=
  if reply.isSuccess then .ok () else .error (.httpStatus reply.status)

def decode {α : Type} (read : Json.Reader α) (reply : Reply) : Except Error α :=
  (Json.decode read reply.body).mapError (.decode · reply.status)

end Reply

end Bearer.Http

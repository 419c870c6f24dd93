import Bearer.Http.Target
import Bearer.Json.Fault
import Bearer.Url.Fault

/-!
Everything that can go wrong on the way to a credential or to the answer of a call, as causes, with
the message and the issuer's code that each carries.
-/
namespace Bearer

inductive Error where
  | clientBuild (cause : String)
  | requestTarget (fault : Http.TargetFault)
  | requestBody
  | invalidUrl (url : String) (fault : Url.Fault)
  | invalidTemplate (template : String)
  | network (cause : String)
  | timeout (cause : String)
  | io (cause : String)
  | issuer (code : Int) (message : String)
  | httpStatus (status : Nat)
  | decode (fault : Json.Fault) (status : Nat)
  | invalidExpiry (expiresIn : Int)
  | unavailable (inner : Error)
  deriving DecidableEq, Repr

namespace Error

def message : Error → String
  | clientBuild _ => "HTTP client could not be constructed."
  | requestTarget fault => fault.message
  | requestBody => "Request body could not be serialized."
  | invalidUrl url _ => "URL `" ++ url ++ "` is invalid."
  | invalidTemplate template =>
    "URL template `" ++ template ++ "` must end with `=` so the credential can be appended."
  | network _ => "Network error occurred while calling the issuer."
  | timeout _ => "Request timed out while calling the issuer."
  | io _ => "I/O error occurred while calling the issuer."
  | issuer code message =>
    "Issuer returned error code " ++ toString code ++ ": " ++ message ++ "."
  | httpStatus status => "Issuer answered with HTTP status " ++ toString status ++ "."
  | decode _ _ => "Issuer returned malformed JSON."
  | invalidExpiry expiresIn =>
    "The advertised expires_in value " ++ toString expiresIn ++ " is not a usable validity."
  | unavailable inner => "No valid credential is available: " ++ inner.message

/-- The issuer's code, also of the failure behind a credential that is not available. -/
def issuerCode : Error → Option Int
  | issuer code _ => some code
  | unavailable inner => inner.issuerCode
  | _ => none

/-- The texts of the causes behind an error, the nearest first. -/
def causes : Error → List String
  | clientBuild cause | network cause | timeout cause | io cause => [cause]
  | invalidUrl _ fault => [fault.message]
  | unavailable inner => inner.message :: inner.causes
  | _ => []

end Error

end Bearer

import Bearer.Credential
import Bearer.Http.Exchange

/-!
Grants: what an issuer hands out, a value together with the seconds for which it says the value is
good. A part of that time is given up, so that a credential is replaced before it is refused.
-/
namespace Bearer

structure Grant where
  value : String
  expiresIn : Int
  deriving DecidableEq, Repr

namespace Grant

/-- The seconds that are given up of an advertised validity, which has to be positive. -/
def margin? (expiresIn : Int) : Option Int :=
  if expiresIn > 3600 then some 600
  else if expiresIn > 1800 then some 300
  else if expiresIn > 300 then some 60
  else if expiresIn > 60 then some 10
  else if expiresIn > 0 then some 0
  else none

/-- How long a credential with this advertised validity is trusted. -/
def trusted (expiresIn : Int) : Except Error Time.Span :=
  match margin? expiresIn with
  | some margin => .ok (.ofSeconds (expiresIn - margin))
  | none => .error (.invalidExpiry expiresIn)

def credential (grant : Grant) (now : Time.Instant) : Except Error Credential := do
  let validFor ← trusted grant.expiresIn
  (Credential.create grant.value now validFor).mapError fun _ => .invalidExpiry grant.expiresIn

inductive Entry where
  | value (text : String)
  | expiresIn (seconds : Int)

def Entry.value? : Entry → Option String
  | .value text => some text
  | _ => none

def Entry.expiresIn? : Entry → Option Int
  | .expiresIn seconds => some seconds
  | _ => none

/-- A grant whose value is in the member with this name. -/
def record (name : String) : Json.Record Entry where
  fields :=
    [(name, fun tree => .value <$> Json.Reader.text tree),
      ("expires_in", fun tree => .expiresIn <$> Json.Reader.int64 tree)]
  closed := false

def reader (name : String) : Json.Reader Grant :=
  (record name).readAs fun entries => do
    return ⟨← (← entries.lookup name).value?, ← (← entries.lookup "expires_in").expiresIn?⟩

def tokenReader : Json.Reader Grant :=
  reader "access_token"

def ticketReader : Json.Reader Grant :=
  reader "ticket"

end Grant

end Bearer

import Bearer.Error
import Bearer.Secret
import Bearer.Time.Instant

/-!
Credentials: a secret together with the time from which and until which it is trusted.
-/
namespace Bearer

structure Credential where
  secret : CredentialSecret
  obtainedAt : Time.Instant
  validUntil : Time.Instant
  deriving DecidableEq

namespace Credential

/-- A credential that is trusted for `validFor`, where the calendar reaches that far. -/
def create (value : String) (obtainedAt : Time.Instant) (validFor : Time.Span) :
    Except Error Credential :=
  match obtainedAt.add? validFor with
  | some validUntil => .ok ⟨⟨value⟩, obtainedAt, validUntil⟩
  | none => .error (.invalidExpiry validFor.seconds)

def value (c : Credential) : String :=
  c.secret.exposed

def lifetime (c : Credential) : Time.Span :=
  c.validUntil.since c.obtainedAt

def carries (c : Credential) (value : String) : Bool :=
  c.value = value

def describe (c : Credential) : String :=
  "Credential \x7b secret: \"" ++ Secret.redacted ++ "\", obtained_at: " ++ c.obtainedAt.text ++
    ", valid_until: " ++ c.validUntil.text ++ " \x7d"

end Credential

end Bearer

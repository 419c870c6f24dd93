import Bearer.Json.Decode

/-!
Secrets: texts that no description shows.
-/
namespace Bearer

inductive Secret.Kind where
  | app
  | credential
  deriving DecidableEq, Repr

def Secret.Kind.label : Secret.Kind → String
  | .app => "AppSecret"
  | .credential => "CredentialSecret"

structure Secret (kind : Secret.Kind) where
  exposed : String
  deriving DecidableEq

namespace Secret

def redacted : String := "<redacted>"

/-- What stands for the secret wherever it is shown. -/
def display {kind : Kind} (_ : Secret kind) : String :=
  redacted

def describe {kind : Kind} (_ : Secret kind) : String :=
  kind.label ++ "(\"" ++ redacted ++ "\")"

def isEmpty {kind : Kind} (secret : Secret kind) : Bool :=
  secret.exposed.isEmpty

def reader (kind : Kind) : Json.Reader (Secret kind) := fun tree =>
  Secret.mk <$> Json.Reader.text tree

end Secret

abbrev AppSecret := Secret .app

abbrev CredentialSecret := Secret .credential

end Bearer

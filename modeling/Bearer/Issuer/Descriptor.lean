import Bearer.Client.Template
import Bearer.Identifier
import Bearer.Issuer.Code
import Bearer.Secret

/-!
What is known about an issuer: where credentials come from, which query parameters carry the two
secrets, where the rest of its interface is, and what its codes mean.
-/
namespace Bearer.Issuer

/-- The query parameters for the application's name and secret. -/
structure Params where
  appId : String
  appSecret : String
  deriving DecidableEq, Repr

structure Descriptor where
  id : IssuerId
  tokenEndpoint : Url
  apiBase : Url
  params : Params
  codes : Codes
  deriving DecidableEq

namespace Descriptor

def classify (d : Descriptor) (code : Int) : CodeClass :=
  d.codes.classify code

def tokenRequestUrl (d : Descriptor) (appId : AppId) (appSecret : AppSecret) : Url :=
  (d.tokenEndpoint.appendPair d.params.appId appId.text).appendPair d.params.appSecret
    appSecret.exposed

variable [Url.Idna]

def apiTemplate (d : Descriptor) (path : String) : Except Error Template := do
  let url ← (d.apiBase.resolve path).mapError (.invalidUrl (d.apiBase.text ++ path))
  Template.ofText url.text

def toJson (d : Descriptor) : Json.Value :=
  .object
    [("id", d.id.toJson),
      ("token_endpoint", .string d.tokenEndpoint.text),
      ("api_base", .string d.apiBase.text),
      ("credential_params",
        .object [("app_id", .string d.params.appId), ("app_secret", .string d.params.appSecret)]),
      ("codes", d.codes.toJson)]

def urlReader : Json.Reader Url :=
  Json.Reader.filterMap Json.Reader.text fun text => (Url.parse text).toOption

def paramsRecord : Json.Record String where
  fields := [("app_id", Json.Reader.text), ("app_secret", Json.Reader.text)]
  closed := false

def paramsReader : Json.Reader Params :=
  paramsRecord.readAs fun entries => do
    return ⟨← entries.lookup "app_id", ← entries.lookup "app_secret"⟩

inductive Entry where
  | id (id : IssuerId)
  | url (url : Url)
  | params (params : Params)
  | codes (codes : Codes)

def Entry.id? : Entry → Option IssuerId
  | .id value => some value
  | _ => none

def Entry.url? : Entry → Option Url
  | .url value => some value
  | _ => none

def Entry.params? : Entry → Option Params
  | .params value => some value
  | _ => none

def Entry.codes? : Entry → Option Codes
  | .codes value => some value
  | _ => none

def record : Json.Record Entry where
  fields :=
    [("id", fun tree => .id <$> Identifier.reader .issuer tree),
      ("token_endpoint", fun tree => .url <$> urlReader tree),
      ("api_base", fun tree => .url <$> urlReader tree),
      ("credential_params", fun tree => .params <$> paramsReader tree),
      ("codes", fun tree => .codes <$> Codes.reader tree)]
  closed := false

/-- Reads a descriptor as it is written, without the checks that building one makes. -/
def reader : Json.Reader Descriptor :=
  record.readAs fun entries => do
    return {
      id := ← (← entries.lookup "id").id?
      tokenEndpoint := ← (← entries.lookup "token_endpoint").url?
      apiBase := ← (← entries.lookup "api_base").url?
      params := ← (← entries.lookup "credential_params").params?
      codes := ← (← entries.lookup "codes").codes? }

end Descriptor

end Bearer.Issuer

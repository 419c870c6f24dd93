import Bearer.Issuer.Descriptor

/-!
Descriptors under construction. A finished one asks for credentials over HTTPS or from the machine
itself only, names both parameters, and does not take its success code for an expired credential.
-/
namespace Bearer.Issuer

inductive Endpoint where
  | token
  | apiBase
  deriving DecidableEq, Repr

def Endpoint.label : Endpoint → String
  | .token => "token"
  | .apiBase => "api base"

inductive Param where
  | appId
  | appSecret
  deriving DecidableEq, Repr

def Param.label : Param → String
  | .appId => "app id"
  | .appSecret => "app secret"

inductive DescriptorFault where
  | invalidId (fault : Identifier.Fault)
  | missingTokenEndpoint
  | invalidEndpoint (url : String) (fault : Url.Fault)
  | insecureEndpoint (endpoint : Endpoint) (url : String)
  | emptyParameterName (param : Param)
  | okCodeMarkedExpired (code : Int)
  deriving DecidableEq, Repr

def DescriptorFault.message : DescriptorFault → String
  | .invalidId fault => fault.message
  | .missingTokenEndpoint => "Missing token endpoint."
  | .invalidEndpoint url _ => "Endpoint `" ++ url ++ "` is not a valid URL."
  | .insecureEndpoint endpoint url =>
    "The " ++ endpoint.label ++ " endpoint must use HTTPS: " ++ url ++ "."
  | .emptyParameterName param => "The " ++ param.label ++ " parameter name must not be empty."
  | .okCodeMarkedExpired code =>
    "Code " ++ toString code ++ " cannot be both the success code and an expiry code."

/-- HTTPS, or plain HTTP to the machine itself. -/
def isSecure (url : Url) : Bool :=
  url.scheme = "https" || url.isLoopback

namespace Descriptor

def fault? (d : Descriptor) : Option DescriptorFault :=
  if !isSecure d.tokenEndpoint then some (.insecureEndpoint .token d.tokenEndpoint.text)
  else if !isSecure d.apiBase then some (.insecureEndpoint .apiBase d.apiBase.text)
  else if d.params.appId = "" then some (.emptyParameterName .appId)
  else if d.params.appSecret = "" then some (.emptyParameterName .appSecret)
  else if d.codes.ok ∈ d.codes.expired then some (.okCodeMarkedExpired d.codes.ok)
  else none

end Descriptor

structure Draft where
  id : IssuerId
  tokenEndpoint : Option Url
  apiBase : Option Url
  params : Params
  codes : Codes

inductive Setting where
  | tokenEndpoint (url : Url)
  | apiBase (url : Url)
  | appIdParam (name : String)
  | appSecretParam (name : String)
  | okCode (code : Int)
  | expiryCode (code : Int)
  | codes (codes : Codes)

namespace Draft

def create (id : IssuerId) : Draft :=
  ⟨id, none, none, ⟨"appid", "secret"⟩, .default⟩

/-- A later choice of the same thing wins; an expiry code comes to those that are there. -/
def set (draft : Draft) : Setting → Draft
  | .tokenEndpoint url => { draft with tokenEndpoint := some url }
  | .apiBase url => { draft with apiBase := some url }
  | .appIdParam name => { draft with params := { draft.params with appId := name } }
  | .appSecretParam name => { draft with params := { draft.params with appSecret := name } }
  | .okCode code => { draft with codes := { draft.codes with ok := code } }
  | .expiryCode code =>
    { draft with codes := { draft.codes with expired := Codes.insert code draft.codes.expired } }
  | .codes codes => { draft with codes := codes }

def setAll (draft : Draft) (settings : List Setting) : Draft :=
  settings.foldl set draft

/-- Without a choice of its own the interface is at the root of the token endpoint's site. -/
def build (draft : Draft) : Except DescriptorFault Descriptor :=
  match draft.tokenEndpoint with
  | none => .error .missingTokenEndpoint
  | some tokenEndpoint =>
    let descriptor : Descriptor :=
      ⟨draft.id, tokenEndpoint, draft.apiBase.getD tokenEndpoint.origin, draft.params, draft.codes⟩
    match descriptor.fault? with
    | none => .ok descriptor
    | some fault => .error fault

end Draft

variable [Url.Idna]

/-- A descriptor for which only the token endpoint and the parameter names are chosen. -/
def preset (id endpoint appIdParam appSecretParam : String) :
    Except DescriptorFault Descriptor := do
  let id ← (Identifier.ofText .issuer id).mapError .invalidId
  let url ← (Url.parse endpoint).mapError (.invalidEndpoint endpoint)
  ((Draft.create id).setAll
    [.tokenEndpoint url, .appIdParam appIdParam, .appSecretParam appSecretParam]).build

def publicAccount : Except DescriptorFault Descriptor :=
  preset "public-account" "https://api.weixin.qq.com/cgi-bin/token?grant_type=client_credential"
    "appid" "secret"

def enterprise : Except DescriptorFault Descriptor :=
  preset "enterprise" "https://qyapi.weixin.qq.com/cgi-bin/gettoken" "corpid" "corpsecret"

end Bearer.Issuer

import Bearer.Grant
import Bearer.Issuer.Descriptor
import Bearer.Issuer.Status
import Bearer.Trace

/-!
Access tokens from the issuer's token endpoint: one request, no retry.
-/
namespace Bearer.Source

structure IssuerToken where
  descriptor : Issuer.Descriptor
  appId : AppId
  appSecret : AppSecret

namespace IssuerToken

def request (source : IssuerToken) : Except Error Http.Request :=
  Http.Request.build "GET" (source.descriptor.tokenRequestUrl source.appId source.appSecret) none

/-- The credential in a reply. Any code but the one for success is a failure here. -/
def ofReply (source : IssuerToken) (now : Time.Instant) (reply : Http.Reply) :
    Except Error Credential := do
  reply.requireSuccess
  let status ← reply.decode Issuer.Status.reader
  if source.descriptor.classify status.errcode ≠ .ok then
    .error status.toError
  let grant ← reply.decode Grant.tokenReader
  grant.credential now

def receive (source : IssuerToken) (now : Time.Instant) (reply : Except Error Http.Reply) :
    Except Error Credential :=
  reply.bind (source.ofReply now)

def describe (source : IssuerToken) : String :=
  "IssuerTokenSource \x7b descriptor: " ++ source.descriptor.id.describe ++ ", app_id: " ++
    source.appId.describe ++ ", app_secret: " ++ source.appSecret.describe ++ " \x7d"

end IssuerToken

def began (span : Span) : List Observation :=
  [.opened span none, .counted .fetch .attempt]

def ended {ε α : Type} (outcome : Except ε α) : List Observation :=
  [.counted .fetch (.of outcome)]

end Bearer.Source

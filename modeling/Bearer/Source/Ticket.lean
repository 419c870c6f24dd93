import Bearer.Client.Call
import Bearer.Grant

/-!
Tickets: credentials that the issuer grants to the holder of an access token, fetched by a call like
any other.
-/
namespace Bearer.Source.Ticket

def jsapiPath : String := "cgi-bin/ticket/getticket?type=jsapi&access_token="

variable [Url.Idna]

def jsapiTemplate (descriptor : Issuer.Descriptor) : Except Error Template :=
  descriptor.apiTemplate jsapiPath

def plan (descriptor : Issuer.Descriptor) (template : Template) : Plan :=
  ⟨"GET", template, none, descriptor.codes⟩

def ofReply (now : Time.Instant) (reply : Http.Reply) : Except Error Credential := do
  let grant ← reply.decode Grant.ticketReader
  grant.credential now

def receive (now : Time.Instant) (result : Except Error Http.Reply) : Except Error Credential :=
  result.bind (ofReply now)

end Bearer.Source.Ticket

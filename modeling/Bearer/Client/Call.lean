import Bearer.Credential
import Bearer.Http.Exchange
import Bearer.Issuer.Descriptor
import Bearer.Issuer.Status
import Bearer.Trace

/-!
One call of the issuer's interface. A call sends a request with the current credential; when the
issuer refuses the credential, the call asks for a newer one and sends the same request once more
with it. A call is a sequence of moves, each decided by the answer to the one before.
-/
namespace Bearer

variable [Url.Idna]

structure Plan where
  method : String
  template : Template
  body : Option (List UInt8)
  codes : Issuer.Codes

/-- Which request is under way, and the value that it carries. -/
inductive Attempt where
  | first (value : String)
  | second (value : String)
  deriving DecidableEq, Repr

def Attempt.value : Attempt → String
  | .first value | .second value => value

inductive Move where
  | send (request : Http.Request) (attempt : Attempt)
  | resolve (failed : String) (code : Int)
  | finish (result : Except Error Http.Reply)

/-- What a reply means to the call. -/
inductive Verdict where
  | done (reply : Http.Reply)
  | expired (status : Issuer.Status)

namespace Plan

def request (plan : Plan) (value : String) : Except Error Http.Request := do
  let url ← plan.template.complete value
  Http.Request.build plan.method url plan.body

def inspect (plan : Plan) (reply : Http.Reply) : Except Error Verdict := do
  reply.requireSuccess
  let status ← reply.decode Issuer.Status.reader
  match plan.codes.classify status.errcode with
  | .ok => return .done reply
  | .expired => return .expired status
  | .terminal => .error status.toError

def attempt (plan : Plan) (attempt : Attempt) : Move :=
  match plan.request attempt.value with
  | .ok request => .send request attempt
  | .error error => .finish (.error error)

def start (plan : Plan) : Except Error Credential → Move
  | .ok credential => plan.attempt (.first credential.value)
  | .error error => .finish (.error error)

def received (plan : Plan) (attempt : Attempt) (reply : Except Error Http.Reply) : Move :=
  match reply.bind plan.inspect with
  | .error error => .finish (.error error)
  | .ok (.done reply) => .finish (.ok reply)
  | .ok (.expired status) =>
    match attempt with
    | .first value => .resolve value status.errcode
    | .second _ => .finish (.error status.toError)

def resolved (plan : Plan) : Except Error Credential → Move
  | .ok credential => plan.attempt (.second credential.value)
  | .error error => .finish (.error error)

def began : List Observation :=
  [.opened .call none, .counted .call .attempt]

end Plan

def Move.observed : Move → List Observation
  | .send _ _ => []
  | .resolve _ code => [.emitted (.expiryRetry code) (some .call)]
  | .finish result => [.counted .call (.of result)]

/-- How hard a client leans on the issuer. -/
structure ClientCounters where
  calls : Nat
  attempts : Nat
  expiryRetries : Nat
  deriving DecidableEq, Repr

namespace ClientCounters

def zero : ClientCounters :=
  ⟨0, 0, 0⟩

def call (counters : ClientCounters) : ClientCounters :=
  { counters with calls := counters.calls + 1 }

def after (counters : ClientCounters) : Move → ClientCounters
  | .send _ _ => { counters with attempts := counters.attempts + 1 }
  | .resolve _ _ => { counters with expiryRetries := counters.expiryRetries + 1 }
  | .finish _ => counters

def toList (counters : ClientCounters) : List Nat :=
  [counters.calls, counters.attempts, counters.expiryRetries]

def describe (counters : ClientCounters) : String :=
  "ClientMetrics \x7b calls: " ++ toString counters.calls ++ ", attempts: " ++
    toString counters.attempts ++ ", expiry_retries: " ++ toString counters.expiryRetries ++
    " \x7d"

end ClientCounters

def describeClient (descriptor : Issuer.Descriptor) (counters : ClientCounters) : String :=
  "ApiClient \x7b descriptor: " ++ descriptor.id.describe ++ ", metrics: " ++ counters.describe ++
    ", .. \x7d"

end Bearer

import Bearer.Http.Exchange
import Bearer.Store

/-!
Everything that a scenario writes down beforehand: what a source answers, what a token service
answers, and what comes back over the wire.
-/
namespace Bearer.Scenario

/-- The instant at which scripted credentials are obtained, the beginning of 2025. -/
def epoch : Time.Instant :=
  ⟨1735689600 * Time.nanosPerSecond, 0, by decide, by decide⟩

def credential (value : String) (lifetime : Time.Span) : Except Error Credential :=
  Credential.create value epoch lifetime

/-- A source that answers from a queue. When the queue is empty it fails as long as it is told to,
and else mints credentials that are numbered by the fetch. -/
structure Script where
  queue : List (Except Error Credential)
  lifetime : Time.Span
  delay : Nat
  failing : Bool
  begun : Nat

namespace Script

def begin (script : Script) : Script :=
  { script with begun := script.begun + 1 }

def mint (script : Script) (number : Nat) : Except Error Credential :=
  if script.failing then .error (.network "source unreachable")
  else credential ("token-" ++ toString number) script.lifetime

/-- The outcome of the fetch with this number, which ends now. -/
def finish (script : Script) (number : Nat) : Except Error Credential × Script :=
  match script.queue with
  | outcome :: rest => (outcome, { script with queue := rest })
  | [] => (script.mint number, script)

end Script

/-- The answers of a token service; the last one of each kind is given again and again. -/
structure TokenScript where
  current : List (Except Error Credential)
  resolve : List (Except Error Credential)
  refresh : List (Except Error Credential)

inductive TokenCall where
  | current
  | refresh
  | resolve (failed : String)
  deriving DecidableEq, Repr

namespace TokenScript

def empty : TokenScript :=
  ⟨[], [], []⟩

/-- The next answer of a queue, and what is left of the queue. -/
def next : List (Except Error Credential) →
    Except Error Credential × List (Except Error Credential)
  | [] => (.error (.httpStatus 599), [])
  | [last] => (last, [last])
  | first :: rest => (first, rest)

def take (script : TokenScript) : TokenCall → Except Error Credential × TokenScript
  | .current =>
    let (answer, rest) := next script.current
    (answer, { script with current := rest })
  | .refresh =>
    let (answer, rest) := next script.refresh
    (answer, { script with refresh := rest })
  | .resolve _ =>
    let (answer, rest) := next script.resolve
    (answer, { script with resolve := rest })

end TokenScript

/-- What comes back for a request, and after how many ticks. -/
structure Planned where
  result : Except Error Http.Reply
  delay : Nat

/-- The far end of the wire: replies in a queue, and behind the queue a rule. The rule refuses some
credentials and accepts all others where it has a body for them. -/
structure Wire where
  queue : List Planned
  rejected : List String
  accepted : Option (List UInt8)

namespace Wire

def refusal : List UInt8 :=
  Text.utf8 "\x7b\"errcode\":40001,\"errmsg\":\"invalid credential\"\x7d"

def rule (wire : Wire) (request : Http.Request) : Except Error Http.Reply :=
  if wire.rejected.any fun token => request.target.endsWith ("=" ++ token) then
    .ok ⟨200, refusal⟩
  else
    match wire.accepted with
    | some body => .ok ⟨200, body⟩
    | none => .error (.network "no response queued")

def answer (wire : Wire) (request : Http.Request) : Planned × Wire :=
  match wire.queue with
  | planned :: rest => (planned, { wire with queue := rest })
  | [] => (⟨wire.rule request, 0⟩, wire)

end Wire

end Bearer.Scenario

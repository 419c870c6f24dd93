import Bearer.Issuer.Code

/-!
What an observer sees of the work: spans that are opened, events, and counted outcomes. An
observation is made inside a span of its own component or, where it has none, inside whatever
span the surrounding work is in.
-/
namespace Bearer

inductive Work where
  | fetch
  | renewal
  | refresh
  | resolve
  | call
  deriving DecidableEq, Repr

def Work.label : Work → String
  | .fetch => "fetch"
  | .renewal => "renewal"
  | .refresh => "refresh"
  | .resolve => "resolve"
  | .call => "call"

def Work.all : List Work :=
  [.fetch, .renewal, .refresh, .resolve, .call]

inductive Outcome where
  | attempt
  | success
  | failure
  deriving DecidableEq, Repr

def Outcome.label : Outcome → String
  | .attempt => "attempt"
  | .success => "success"
  | .failure => "failure"

def Outcome.all : List Outcome :=
  [.attempt, .success, .failure]

def Outcome.of {ε α : Type} : Except ε α → Outcome
  | .ok _ => .success
  | .error _ => .failure

inductive Span where
  | eager
  | refreshFetch
  | renewalFetch
  | issuerToken
  | ticket
  | scheduled
  | forceRefresh
  | resolveNew
  | call
  deriving DecidableEq, Repr

namespace Span

def work : Span → Work
  | .eager | .refreshFetch | .renewalFetch | .issuerToken | .ticket => .fetch
  | .scheduled => .renewal
  | .forceRefresh => .refresh
  | .resolveNew => .resolve
  | .call => .call

def stage : Span → String
  | .eager => "eager"
  | .refreshFetch => "refresh"
  | .renewalFetch => "renewal"
  | .issuerToken => "issuer_token"
  | .ticket => "ticket"
  | .scheduled => "scheduled"
  | .forceRefresh => "force_refresh"
  | .resolveNew => "resolve_new"
  | .call => "call"

def label (span : Span) : String :=
  span.work.label ++ "/" ++ span.stage

end Span

inductive Event where
  | renewalFailed (error : String) (retryInSeconds : Nat)
  | refreshDebounced (sinceLastMillis : Nat)
  | fellThrough (polls : Nat)
  | expiryRetry (code : Int)
  deriving DecidableEq, Repr

namespace Event

def level : Event → String
  | .renewalFailed _ _ => "WARN"
  | .refreshDebounced _ => "DEBUG"
  | .fellThrough _ | .expiryRetry _ => "INFO"

def message : Event → String
  | .renewalFailed _ _ => "Credential renewal failed."
  | .refreshDebounced _ => "Refresh debounced; returning the current credential."
  | .fellThrough _ => "Credential unchanged after polling; forcing a refresh."
  | .expiryRetry _ => "Issuer rejected the credential; retrying once with a newer one."

/-- What the event says next to its message. -/
def fields : Event → List (String × Json.Value)
  | .renewalFailed error retryIn => [("error", .string error), ("retry_in_secs", .int retryIn)]
  | .refreshDebounced since => [("since_last_ms", .int since)]
  | .fellThrough polls => [("polls", .int polls)]
  | .expiryRetry code => [("code", .int code)]

end Event

/-- `within` is `none` where the surrounding work decides. -/
inductive Observation where
  | opened (span : Span) (within : Option Span)
  | emitted (event : Event) (within : Option Span)
  | counted (work : Work) (outcome : Outcome)
  deriving DecidableEq, Repr

/-- The same observation made inside the span of the surrounding work. -/
def Observation.inside (ambient : Option Span) : Observation → Observation
  | .opened span within => .opened span (within <|> ambient)
  | .emitted event within => .emitted event (within <|> ambient)
  | .counted work outcome => .counted work outcome

def total (work : Work) (outcome : Outcome) (observed : List Observation) : Nat :=
  observed.countP (· = .counted work outcome)

def totalLabel (work : Work) (outcome : Outcome) : String :=
  "token_broker_op_total\x7bop=" ++ work.label ++ ",outcome=" ++ outcome.label ++ "\x7d"

def totals (observed : List Observation) : List (String × Nat) :=
  (Work.all.flatMap fun work => Outcome.all.map fun outcome =>
    (totalLabel work outcome, total work outcome observed)).filter (·.2 > 0)

end Bearer

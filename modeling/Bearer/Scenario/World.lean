import Bearer.Broker.Step
import Bearer.Scenario.Script
import Bearer.Source.IssuerToken
import Bearer.Source.Ticket

/-!
The world of a scenario: brokers over sources, a client, and tasks that run one at a time on a clock
that counts milliseconds. A task is what it does next together with what waits for it. It runs
until it waits; the clock moves only when all wait, to the next moment at which one of them wakes.
-/
namespace Bearer.Scenario

variable [Url.Idna]

inductive Source where
  | script
  | issuerToken (source : Source.IssuerToken)
  | ticket (plan : Plan)

inductive Service where
  | broker (number : Nat)
  | script (tokens : TokenScript)

inductive Answer where
  | elapsed
  | pushed
  | changed
  | credential (outcome : Except Error Credential)
  | reply (result : Except Error Http.Reply)
  | json (result : Except Error Json.Value)

/-- Work that a task can be given; some of it only changes what is scripted. -/
inductive Op where
  | sleep (ticks : Nat)
  | found (config : Config)
  | current (broker : Nat)
  | refresh (broker : Nat)
  | resolve (broker : Nat) (failed : String)
  | readStore (broker : Nat)
  | writeStore (broker : Nat) (outcome : Except Error Credential)
  | fetch (source : Nat)
  | pushOutcome (outcome : Except Error Credential)
  | setFailing (failing : Bool)
  | pushReply (planned : Planned)
  | pushReject (token : String)
  | clientCurrent
  | clientRefresh
  | call (plan : Except Error Plan)
  | read (plan : Except Error Plan) (reader : Json.Reader Json.Value)

inductive Frame where
  | begin (op : Op)
  | caller (broker : Nat)
  | fetcher (broker : Nat) (party : Broker.Party)
  | founder (config : Config)
  | renewal (broker : Nat)
  | script (number : Nat)
  | issuerToken (source : Source.IssuerToken)
  | ticket
  | attempt (plan : Plan) (attempt : Attempt)
  | retry (plan : Plan)
  | delay (result : Except Error Http.Reply)
  | read (reader : Json.Reader Json.Value)

/-- The span that work is in while this frame waits for it. -/
def Frame.span? : Frame → Option Span
  | .fetcher _ (.caller _) => some .refreshFetch
  | .fetcher _ .renewal => some .renewalFetch
  | .founder _ => some .eager
  | .issuerToken _ => some .issuerToken
  | .ticket => some .ticket
  | .attempt _ _ | .retry _ => some .call
  | .begin _ | .caller _ | .renewal _ | .script _ | .delay _ | .read _ => none

/-- The innermost span around a piece of work. -/
def ambient (frames : List Frame) : Option Span :=
  frames.findSome? Frame.span?

inductive Job where
  | start (op : Op)
  | refresh (broker : Nat)
  | resolve (broker : Nat) (failed : String)
  | fetch (source : Nat)
  | call (plan : Plan)
  | send (request : Http.Request)
  | sleep (due : Nat)
  | give (answer : Answer)
  | wait

structure Task where
  id : Nat
  frames : List Frame

structure Timer where
  task : Nat
  due : Nat

structure Finished where
  task : Nat
  answer : Answer
  tick : Nat

/-- Logs hold the newest entry first. -/
structure World where
  clock : Nat
  brokers : List Broker
  renewers : List Nat
  sources : List Source
  script : Script
  wire : Wire
  service : Service
  client : ClientCounters
  tasks : List Task
  spawned : Nat
  ready : List Nat
  timers : List Timer
  finished : List Finished
  requests : List Http.Request
  fetches : List Nat
  calls : List TokenCall
  observed : List Observation

namespace World

def create (sources : List Source) (script : Script) (wire : Wire) (service : Service) : World where
  clock := 0
  brokers := []
  renewers := []
  sources
  script
  wire
  service
  client := .zero
  tasks := []
  spawned := 0
  ready := []
  timers := []
  finished := []
  requests := []
  fetches := []
  calls := []
  observed := []

def moment (w : World) : Nat :=
  w.clock * 1000000

/-- The first tick at which a moment has come. -/
def tickOf (moment : Nat) : Nat :=
  (moment + 999999) / 1000000

/-- Notes observations that work inside these frames made. -/
def observe (w : World) (frames : List Frame) (observed : List Observation) : World :=
  { w with
    observed := (observed.map (Observation.inside (ambient frames))).reverse ++ w.observed }

/-- A task that is woken runs after those that were woken before it. -/
def wake (w : World) (id : Nat) : World :=
  if id ∈ w.ready then w else { w with ready := w.ready ++ [id] }

def setTimer (w : World) (id due : Nat) : World :=
  { w with timers := w.timers.filter (·.task ≠ id) ++ [⟨id, due⟩] }

def suspend (w : World) (id : Nat) (frames : List Frame) : World :=
  { w with tasks := ⟨id, frames⟩ :: w.tasks.filter (·.id ≠ id) }

def finish (w : World) (id : Nat) (answer : Answer) : World :=
  { w with finished := ⟨id, answer, w.clock⟩ :: w.finished }

def spawn (w : World) (frames : List Frame) : Nat × World :=
  (w.spawned, { w.suspend w.spawned frames with
    spawned := w.spawned + 1
    ready := w.ready ++ [w.spawned] })

def taskOf? (w : World) (broker : Nat) : Broker.Party → Option Nat
  | .caller id => some id
  | .renewal => w.renewers[broker]?

def wakeParty (broker : Nat) (w : World) (party : Broker.Party) : World :=
  match w.taskOf? broker party with
  | some id => w.wake id
  | none => w

def input (w : World) (frames : List Frame) (broker : Nat) (input : Broker.Input) :
    Broker.Next × World :=
  match w.brokers[broker]? with
  | none => (.nothing, w)
  | some b =>
    let ran := b.step w.moment input
    let w := { w with brokers := w.brokers.set broker ran.broker }.observe frames ran.observed
    (ran.next, ran.woken.foldl (wakeParty broker) w)

/-- Ends a task that is not to go on. Callers among its frames leave their brokers. -/
def abort (w : World) (id : Nat) : World :=
  let frames := ((w.tasks.find? (·.id = id)).map Task.frames).getD []
  let w :=
    { w with
      tasks := w.tasks.filter (·.id ≠ id)
      ready := w.ready.filter (· ≠ id)
      timers := w.timers.filter (·.task ≠ id) }
  frames.foldl
    (fun w frame =>
      match frame with
      | .caller broker => (w.input [] broker (.cancel id)).2
      | _ => w)
    w

end World

end Bearer.Scenario

import Bearer.Scenario.Engine

/-!
Sessions: a broker in a world of its own, and steps that are taken one after the other. After each
step it is reported what has changed.
-/
namespace Bearer.Scenario

variable [Url.Idna]

/-- The broker of the session is the last that was founded; a client gets its credentials from the
first. `handles` counts those handles of the broker that the session itself holds. -/
structure Session where
  world : World
  config : Config
  descriptor : Issuer.Descriptor
  broker : Nat
  handles : Nat
  client : Bool

inductive Step where
  | op (op : Op)
  | concurrent (ops : List (Nat × Op))
  | again (times : Nat) (step : Step)
  | clone
  | drop
  | dropClient
  | config
  | describe

inductive Report where
  | created
  | dropped
  | answer (answer : Answer)
  | answers (answers : List (Answer × Nat))
  | each (reports : List Report)
  | count (n : Nat)
  | config (config : Config)
  | descriptions (broker client : Option String)

structure Entry where
  report : Report
  tick : Nat
  broker : Option Broker.Counters
  inner : Option Broker.Counters
  client : Option ClientCounters
  requests : List Http.Request
  fetches : List Nat
  calls : List TokenCall
  observed : List Observation

namespace Session

/-- The broker, as long as the session holds a handle of it. -/
def ownBroker? (s : Session) : Option Broker :=
  if s.handles = 0 then none else s.world.brokers[s.broker]?

def innerBroker? (s : Session) : Option Broker :=
  if s.broker = 0 then none else s.world.brokers[0]?

def input (s : Session) (broker : Nat) (input : Broker.Input) : Session :=
  { s with world := (s.world.input [] broker input).2 }

/-- The task that renews ends with its broker's last handle. -/
def settleHandles (s : Session) (broker : Nat) : Session :=
  match s.world.brokers[broker]?, s.world.renewers[broker]? with
  | some b, some task =>
    if b.handles = 0 then { s with world := s.world.abort task } else s
  | _, _ => s

def dropHandle (s : Session) (broker : Nat) : Session :=
  (s.input broker .drop).settleHandles broker

/-- Does a step `n` times, and keeps every report. -/
def times (f : Session → Report × Session) : Nat → Session → List Report × Session
  | 0, s => ([], s)
  | n + 1, s =>
    let (report, s) := f s
    let (reports, s) := times f n s
    (report :: reports, s)

def perform : Step → Session → Report × Session
  | .op op, s =>
    let (answer, world) := s.world.perform op
    (.answer answer, { s with world })
  | .concurrent ops, s =>
    let (answers, world) := s.world.performAll ops
    (.answers answers, { s with world })
  | .again n step, s =>
    let (reports, s) := times (perform step) n s
    (.each reports, s)
  | .clone, s =>
    (.count (s.handles + 1), { s.input s.broker .clone with handles := s.handles + 1 })
  | .drop, s =>
    (.count (s.handles - 1), { s.dropHandle s.broker with handles := s.handles - 1 })
  | .dropClient, s =>
    (.dropped, { (if s.broker = 0 then s.dropHandle 0 else s) with client := false })
  | .config, s =>
    (.config s.config, s)
  | .describe, s =>
    (.descriptions (s.ownBroker?.map Broker.describe)
      (if s.client then some (describeClient s.descriptor s.world.client) else none), s)

def entry (report : Report) (s : Session) : Entry × Session :=
  let w := s.world
  ({ report
     tick := w.clock
     broker := s.ownBroker?.map Broker.counters
     inner := s.innerBroker?.map Broker.counters
     client := if s.client then some w.client else none
     requests := w.requests.reverse
     fetches := w.fetches.reverse
     calls := w.calls.reverse
     observed := w.observed.reverse },
    { s with world := { w with requests := [], fetches := [], calls := [], observed := [] } })

def runSteps : List Step → Session → List Entry
  | [], _ => []
  | step :: rest, s =>
    let (report, s) := perform step s
    let (entry, s) := entry report s
    entry :: runSteps rest s

/-- Founds the brokers in their order, and gives the client its handle. -/
def found (configs : List Config) (client : Bool) (s : Session) : Session :=
  let world := configs.foldl (fun w config => (w.perform (.found config)).2) s.world
  let s := { s with world, client }
  if client && s.broker = 0 then s.input 0 .clone else s

def run (configs : List Config) (client : Bool) (steps : List Step) (s : Session) : List Entry :=
  let (first, s) := entry .created (s.found configs client)
  first :: runSteps steps s

end Session

def countedIn (entries : List Entry) : List (String × Nat) :=
  totals (entries.flatMap Entry.observed)

end Bearer.Scenario

import Bearer.Broker.Counters
import Bearer.Config
import Bearer.Store
import Bearer.Trace

/-!
The state of a broker. A broker keeps one credential in its store and fetches a new one when the
last has lived its time or when a caller asks. Every fetch after the first is made by the holder of
one lock. Moments are nanoseconds of the broker's clock.
-/
namespace Bearer

/-- The interval after which a fetch is made again: the lifetime of what was fetched, where that is
positive, and else the fallback. -/
def Config.nextInterval (config : Config) (outcome : Except Error Credential) : Time.Interval :=
  match outcome with
  | .error _ => config.fallbackInterval
  | .ok credential =>
    match credential.lifetime.toInterval? with
    | none => config.fallbackInterval
    | some lifetime => if lifetime.nanos = 0 then config.fallbackInterval else lifetime

namespace Broker

inductive Party where
  | caller (id : Nat)
  | renewal
  deriving DecidableEq, Repr

/-- What a caller asked for: a refresh, or a credential other than one that failed. -/
inductive Origin where
  | forced
  | resolving (failed : String)
  deriving DecidableEq, Repr

namespace Origin

def span : Origin → Span
  | .forced => .forceRefresh
  | .resolving _ => .resolveNew

def work (origin : Origin) : Work :=
  origin.span.work

end Origin

/-- What a caller waits for. `left` counts the polls that are still to be made of all `polls`. -/
inductive Wait where
  | pausing (polls left due : Nat)
  | queued
  | fetching
  deriving DecidableEq, Repr

structure Caller where
  id : Nat
  origin : Origin
  wait : Wait
  deriving DecidableEq, Repr

/-- The task that renews. `seen` is the version of the schedule that it last looked at. -/
inductive Renewal where
  | armed (deadline seen : Nat)
  | queued (seen : Nat)
  | fetching (seen : Nat)
  | stopped
  deriving DecidableEq, Repr

end Broker

/-- `published` is the interval that the last landed refresh asked for, `version` counts the
refreshes that have landed. `queue` holds those who wait for the lock; `notified` says that the
first of them has been told to try. -/
structure Broker where
  config : Config
  store : Store
  counters : Broker.Counters
  published : Time.Interval
  version : Nat
  lastRefresh : Option Nat
  lock : Option Broker.Party
  queue : List Broker.Party
  notified : Bool
  callers : List Broker.Caller
  renewal : Broker.Renewal
  handles : Nat

namespace Broker

/-- A broker whose first fetch, made before there was a broker, had this outcome. -/
def create (config : Config) (now : Nat) (outcome : Except Error Credential) : Broker where
  config
  store := .create outcome
  counters := Counters.zero.fetch
  published := config.nextInterval outcome
  version := 0
  lastRefresh := none
  lock := none
  queue := []
  notified := false
  callers := []
  renewal := .armed (now + (config.nextInterval outcome).nanos) 0
  handles := 1

/-- What is said about a fetch outside the span of its work: a failure, and when it is tried
again. -/
def reported (config : Config) (outcome : Except Error Credential) : List Observation :=
  match outcome with
  | .ok _ => []
  | .error error =>
    [.emitted (.renewalFailed error.message (config.nextInterval outcome).seconds) none]

def current (b : Broker) : Except Error Credential :=
  b.store.answer

def caller? (b : Broker) (id : Nat) : Option Caller :=
  b.callers.find? (·.id = id)

def place (b : Broker) (caller : Caller) : Broker :=
  { b with callers := caller :: b.callers.filter (·.id ≠ caller.id) }

def dismiss (b : Broker) (id : Nat) : Broker :=
  { b with callers := b.callers.filter (·.id ≠ id) }

def countBy (b : Broker) (count : Counters → Counters) : Broker :=
  { b with counters := count b.counters }

def enqueue (b : Broker) (party : Party) : Broker :=
  { b with queue := b.queue ++ [party] }

/-- Takes a party out of the queue; one that was told to try has tried. -/
def dequeue (b : Broker) (party : Party) : Broker :=
  { b with
    queue := b.queue.erase party
    notified := b.notified && b.queue.head? != some party }

/-- The first in the queue is told to try, unless it has been told already. -/
def notify (b : Broker) : Broker × List Party :=
  match b.queue, b.notified with
  | first :: _, false => ({ b with notified := true }, [first])
  | _, _ => (b, [])

def unlock (b : Broker) : Broker × List Party :=
  notify { b with lock := none }

/-- A new schedule for the renewal, which is woken where it waits for the old one. -/
def publish (b : Broker) (interval : Time.Interval) : Broker × List Party :=
  ({ b with published := interval, version := b.version + 1 },
    match b.renewal with
    | .armed _ _ => [.renewal]
    | _ => [])

def describe (b : Broker) : String :=
  "CredentialBroker \x7b config: " ++ b.config.describe ++ ", metrics: " ++ b.counters.describe ++
    ", .. \x7d"

end Broker

end Bearer

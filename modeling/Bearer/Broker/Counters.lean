/-!
How hard a broker leans on its source, and how its callers were served.
-/
namespace Bearer.Broker

structure Counters where
  fetches : Nat
  renewals : Nat
  renewalFailures : Nat
  forcedRefreshes : Nat
  debouncedRefreshes : Nat
  resolverPollHits : Nat
  resolverFallThroughs : Nat
  deriving DecidableEq, Repr

namespace Counters

def zero : Counters :=
  ⟨0, 0, 0, 0, 0, 0, 0⟩

def fetch (c : Counters) : Counters :=
  { c with fetches := c.fetches + 1 }

def renewal (c : Counters) : Counters :=
  { c with renewals := c.renewals + 1 }

def renewalFailure (c : Counters) : Counters :=
  { c with renewalFailures := c.renewalFailures + 1 }

def forcedRefresh (c : Counters) : Counters :=
  { c with forcedRefreshes := c.forcedRefreshes + 1 }

def debouncedRefresh (c : Counters) : Counters :=
  { c with debouncedRefreshes := c.debouncedRefreshes + 1 }

def pollHit (c : Counters) : Counters :=
  { c with resolverPollHits := c.resolverPollHits + 1 }

def fallThrough (c : Counters) : Counters :=
  { c with resolverFallThroughs := c.resolverFallThroughs + 1 }

def toList (c : Counters) : List Nat :=
  [c.fetches, c.renewals, c.renewalFailures, c.forcedRefreshes, c.debouncedRefreshes,
    c.resolverPollHits, c.resolverFallThroughs]

def describe (c : Counters) : String :=
  "BrokerMetrics \x7b upstream_fetches: " ++ toString c.fetches ++ ", renewals: " ++
    toString c.renewals ++ ", renewal_failures: " ++ toString c.renewalFailures ++
    ", forced_refreshes: " ++ toString c.forcedRefreshes ++ ", debounced_refreshes: " ++
    toString c.debouncedRefreshes ++ ", resolver_poll_hits: " ++ toString c.resolverPollHits ++
    ", resolver_fall_throughs: " ++ toString c.resolverFallThroughs ++ " \x7d"

end Counters

end Bearer.Broker

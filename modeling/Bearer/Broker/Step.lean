import Bearer.Broker.Basic

/-!
What a broker does when something happens to it. An input is what one party does next, or what comes
from outside; which input comes when is not decided here, so a sequence of inputs is any order in
which the parties may run. An input that does not fit the state changes nothing.
-/
namespace Bearer.Broker

inductive Input where
  | force (id : Nat)
  | resolve (id : Nat) (failed : String) (polls : Nat)
  | poll (id : Nat)
  | timer
  | rearm
  | acquire (party : Party)
  | land (party : Party) (outcome : Except Error Credential)
  | cancel (id : Nat)
  | clone
  | drop
  | write (outcome : Except Error Credential)

/-- What the party whose input it was does next: it has its answer, sleeps until a moment, waits
for the lock, or fetches. -/
inductive Next where
  | answer (snapshot : Snapshot)
  | sleep (due : Nat)
  | queue
  | fetch
  | nothing

/-- The state after an input, with what was observed on the way and who was woken. -/
structure Ran where
  broker : Broker
  next : Next
  observed : List Observation
  woken : List Party

namespace Ran

def after (observed : List Observation) (ran : Ran) : Ran :=
  { ran with observed := observed ++ ran.observed }

def waking (woken : List Party) (ran : Ran) : Ran :=
  { ran with woken := woken ++ ran.woken }

end Ran

def unchanged (b : Broker) : Ran :=
  ⟨b, .nothing, [], []⟩

def answer (b : Broker) (id : Nat) (origin : Origin) (snapshot : Snapshot) : Ran :=
  ⟨b.dismiss id, .answer snapshot, [.counted origin.work (.of snapshot.answer)], []⟩

/-- How long ago the last refresh landed, where that is less than the debounce window. -/
def debounced? (b : Broker) (now : Nat) : Option Nat :=
  (b.lastRefresh.map (now - ·)).filter (· < b.config.debounceWindow.nanos)

/-- A caller has the lock. It fetches, unless a refresh has landed a short time ago; then it is
served from the store and gives the lock back. -/
def refresh (b : Broker) (now id : Nat) (origin : Origin) : Ran :=
  match b.debounced? now with
  | some since =>
    let (b, woken) := (b.countBy .debouncedRefresh).unlock
    ((b.answer id origin b.store.current).after
      [.emitted (.refreshDebounced (since / 1000000)) (some origin.span)]).waking woken
  | none =>
    ⟨{ b.place ⟨id, origin, .fetching⟩ with
        lock := some (.caller id)
        counters := b.counters.fetch },
      .fetch, [.opened .refreshFetch (some origin.span)], []⟩

/-- A caller tries the lock and waits behind the others where it is taken. -/
def contend (b : Broker) (now id : Nat) (origin : Origin) : Ran :=
  match b.lock with
  | none => b.refresh now id origin
  | some _ => ⟨(b.place ⟨id, origin, .queued⟩).enqueue (.caller id), .queue, [], []⟩

/-- What a poll looks for: a credential other than the one that failed. -/
def other? (b : Broker) (failed : String) : Option Snapshot :=
  match b.store.current.outcome with
  | .ok credential => if credential.carries failed then none else some b.store.current
  | .error _ => none

/-- A caller that resolves looks at the store. Without a hit it pauses before the next look, and
after the last one it asks for a refresh. -/
def look (b : Broker) (now id : Nat) (failed : String) (polls left : Nat) : Ran :=
  match b.other? failed with
  | some snapshot => (b.countBy .pollHit).answer id (.resolving failed) snapshot
  | none =>
    if 1 < left then
      let due := now + b.config.pollInterval.nanos
      ⟨b.place ⟨id, .resolving failed, .pausing polls (left - 1) due⟩, .sleep due, [], []⟩
    else
      (((b.countBy .fallThrough).countBy .forcedRefresh).contend now id (.resolving failed)).after
        [.emitted (.fellThrough polls) (some .resolveNew)]

def arm (b : Broker) (deadline seen : Nat) : Ran :=
  ⟨{ b with renewal := .armed deadline seen }, .sleep deadline, [], []⟩

def reschedule (b : Broker) (now : Nat) : Ran :=
  b.arm (now + b.published.nanos) b.version

/-- The renewal has the lock. It fetches, unless a refresh has published a schedule that it has not
seen yet; then it follows that. -/
def renew (b : Broker) (now seen : Nat) : Ran :=
  if b.version = seen then
    ⟨{ b with
        lock := some .renewal
        renewal := .fetching seen
        counters := b.counters.renewal.fetch },
      .fetch,
      [.opened .scheduled none, .counted .renewal .attempt,
        .opened .renewalFetch (some .scheduled)],
      []⟩
  else
    let (b, woken) := b.unlock
    (b.reschedule now).waking woken

def contendRenewal (b : Broker) (now seen : Nat) : Ran :=
  match b.lock with
  | none => b.renew now seen
  | some _ => ⟨({ b with renewal := .queued seen }).enqueue .renewal, .queue, [], []⟩

/-- A refresh has its outcome: it is stored, the renewal follows it, and the time is kept, also
after a failure. -/
def landRefresh (b : Broker) (now id : Nat) (origin : Origin)
    (outcome : Except Error Credential) : Ran :=
  let b := { b with store := b.store.write outcome, lastRefresh := some now }
  let (b, followers) := b.publish (b.config.nextInterval outcome)
  let (b, woken) := b.unlock
  (b.answer id origin b.store.current).waking (followers ++ woken)

/-- A renewal has its outcome: it is stored, and the timer is set by it. -/
def landRenewal (b : Broker) (now seen : Nat) (outcome : Except Error Credential) : Ran :=
  let b := { b with store := b.store.write outcome }
  let b :=
    match outcome with
    | .ok _ => b
    | .error _ => b.countBy .renewalFailure
  let (b, woken) := b.unlock
  ((b.arm (now + (b.config.nextInterval outcome).nanos) seen).after
    (reported b.config outcome ++ [.counted .renewal (.of outcome)])).waking woken

/-- A party leaves without an answer, and what it holds or was told passes on. -/
def leave (b : Broker) (party : Party) : Ran :=
  let (b, woken) :=
    if b.lock = some party then b.unlock
    else if b.notified && b.queue.head? = some party then (b.dequeue party).notify
    else (b.dequeue party, [])
  ⟨b, .nothing, [], woken⟩

def acquireCaller (b : Broker) (now id : Nat) : Ran :=
  match b.caller? id with
  | some ⟨_, origin, .queued⟩ => (b.dequeue (.caller id)).contend now id origin
  | _ => b.unchanged

def acquireRenewal (b : Broker) (now : Nat) : Ran :=
  match b.renewal with
  | .queued seen => (b.dequeue .renewal).contendRenewal now seen
  | _ => b.unchanged

/-- One more handle is gone; nobody is left to renew for when it was the last. -/
def dropHandle (b : Broker) : Ran :=
  if b.handles = 1 then
    { b with handles := 0, renewal := .stopped }.leave .renewal
  else { b with handles := b.handles - 1 }.unchanged

def step (b : Broker) (now : Nat) : Input → Ran
  | .force id =>
    match b.caller? id with
    | some _ => b.unchanged
    | none =>
      ((b.countBy .forcedRefresh).contend now id .forced).after
        [.opened .forceRefresh none, .counted .refresh .attempt]
  | .resolve id failed polls =>
    match b.caller? id with
    | some _ => b.unchanged
    | none =>
      (b.look now id failed polls polls).after
        [.opened .resolveNew none, .counted .resolve .attempt]
  | .poll id =>
    match b.caller? id with
    | some ⟨_, .resolving failed, .pausing polls left due⟩ =>
      if due ≤ now then b.look now id failed polls left else b.unchanged
    | _ => b.unchanged
  | .timer =>
    match b.renewal with
    | .armed deadline seen => if deadline ≤ now then b.contendRenewal now seen else b.unchanged
    | _ => b.unchanged
  | .rearm =>
    match b.renewal with
    | .armed _ seen => if b.version = seen then b.unchanged else b.reschedule now
    | _ => b.unchanged
  | .acquire (.caller id) => b.acquireCaller now id
  | .acquire .renewal => b.acquireRenewal now
  | .land (.caller id) outcome =>
    match b.caller? id with
    | some ⟨_, origin, .fetching⟩ => b.landRefresh now id origin outcome
    | _ => b.unchanged
  | .land .renewal outcome =>
    match b.renewal with
    | .fetching seen => b.landRenewal now seen outcome
    | _ => b.unchanged
  | .cancel id =>
    match b.caller? id with
    | some _ => (b.dismiss id).leave (.caller id)
    | none => b.unchanged
  | .clone => { b with handles := b.handles + 1 }.unchanged
  | .drop => b.dropHandle
  | .write outcome => { b with store := b.store.write outcome }.unchanged

def run (b : Broker) : List (Nat × Input) → List Ran
  | [] => []
  | (now, input) :: rest =>
    let ran := b.step now input
    ran :: run ran.broker rest

def onWake? (b : Broker) (now : Nat) : Party → Option Input
  | .caller id =>
    match b.caller? id with
    | some ⟨_, _, .pausing ..⟩ => some (.poll id)
    | some ⟨_, _, .queued⟩ => some (.acquire (.caller id))
    | _ => none
  | .renewal =>
    match b.renewal with
    | .armed deadline seen =>
      if b.version ≠ seen then some .rearm else if deadline ≤ now then some .timer else none
    | .queued _ => some (.acquire .renewal)
    | _ => none

def renewalDeadline? (b : Broker) : Option Nat :=
  match b.renewal with
  | .armed deadline _ => some deadline
  | _ => none

end Bearer.Broker

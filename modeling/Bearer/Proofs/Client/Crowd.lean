import Mathlib
import Bearer.Client.Call
import Bearer.Proofs.Broker.Clock

/-!
Calls of one issuer, made at any times by clones of a client over one broker. A call follows its
plan; when its request is refused it asks the broker for another credential, and it goes on when
the broker answers. Which event comes next is not decided here: requests are answered, tasks run and
the clock moves in any order that the rules of `Allowed` leave open.
-/
namespace Bearer

/-- Where a call is: it waits for the reply to a request, waits for another credential, or has
returned. -/
inductive Stage where
  | begun
  | sent (attempt : Attempt)
  | resolving
  | returned (result : Except Error Http.Reply)

/-- What a sum over a list becomes where one entry is replaced. -/
theorem sum_set {α : Type} {l : List α} {id : Nat} {entry : α} (found : l[id]? = some entry)
    (next : α) (f : α → Nat) :
    ((l.set id next).map f).sum + f entry = (l.map f).sum + f next := by
  induction l generalizing id with
  | nil => simp at found
  | cons first rest ih =>
      cases id with
      | zero =>
          cases found
          simp only [List.set_cons_zero, List.map_cons, List.sum_cons]
          omega
      | succ id =>
          have sum := ih (show rest[id]? = some entry from found)
          simp only [List.set_cons_succ, List.map_cons, List.sum_cons]
          omega

variable [Url.Idna]

/-- A call, with the looks that it will take at the store, the requests that it has sent, and
whether one of them was refused. -/
structure Call where
  plan : Plan
  polls : Nat
  sent : List Http.Request
  refused : Bool
  stage : Stage

def Call.create (plan : Plan) (polls : Nat) : Call :=
  ⟨plan, polls, [], false, .begun⟩

def Call.moved (call : Call) : Move → Call
  | .send request attempt => { call with sent := call.sent ++ [request], stage := .sent attempt }
  | .resolve _ _ => { call with refused := true, stage := .resolving }
  | .finish result => { call with stage := .returned result }

def Call.finished (call : Call) : Bool :=
  match call.stage with
  | .returned _ => true
  | _ => false

theorem Call.returned {call : Call} (finished : call.finished = true) :
    ∃ result, call.stage = .returned result := by
  simp only [Call.finished] at finished
  split at finished
  · next result stage => exact ⟨result, stage⟩
  · cases finished

/-- A plan and a reply to be used in fixed runs. -/
def Plan.sample (template : Template) : Plan :=
  ⟨"GET", template, none, .default⟩

def Http.Reply.sample (text : String) : Http.Reply :=
  ⟨200, text.toList.map fun c => c.toNat.toUInt8⟩

/-- The calls of a run, each known by its place in the list. -/
structure Crowd where
  clock : Nat
  broker : Broker
  calls : List Call

namespace Crowd

def opened (clock : Nat) (b : Broker) : Crowd :=
  ⟨clock, b, []⟩

inductive Event where
  | wait (till : Nat)
  | call (plan : Plan) (polls : Nat)
  | reply (id : Nat) (result : Except Error Http.Reply)
  | wake (party : Broker.Party)
  | land (party : Broker.Party) (outcome : Except Error Credential)

/-- Whether something is done, and not only time passes. -/
def Event.acts : Event → Bool
  | .wait _ => false
  | _ => true

def enter (c : Crowd) (id : Nat) (call : Call) (move : Move) : Crowd :=
  { c with calls := c.calls.set id (call.moved move) }

section Enter

variable {c : Crowd} {id : Nat} {call : Call} {move : Move}

theorem enter_own (found : c.calls[id]? = some call) :
    (c.enter id call move).calls[id]? = some (call.moved move) :=
  List.getElem?_set_self (List.getElem?_eq_some_iff.mp found).1

theorem enter_other {other : Nat} (differs : other ≠ id) :
    (c.enter id call move).calls[other]? = c.calls[other]? :=
  List.getElem?_set_ne (Ne.symm differs)

theorem enter_all {P : Call → Prop} (all : ∀ other ∈ c.calls, P other)
    (new : P (call.moved move)) : ∀ other ∈ (c.enter id call move).calls, P other := by
  intro other inside
  cases List.mem_or_eq_of_mem_set inside with
  | inl old => exact all other old
  | inr eq => exact eq ▸ new

end Enter

/-- A party of the broker goes on, and where that answers a caller, so does its call. -/
def input (c : Crowd) (party : Broker.Party) (input : Broker.Input) : Crowd :=
  let ran := c.broker.step c.clock input
  let c := { c with broker := ran.broker }
  match party, ran.next with
  | .caller id, .answer snapshot =>
    match c.calls[id]? with
    | some call => c.enter id call (call.plan.resolved snapshot.answer)
    | none => c
  | _, _ => c

theorem input_waits {c : Crowd} {id : Nat} {input : Broker.Input}
    (waits : ∀ snapshot, (c.broker.step c.clock input).next ≠ .answer snapshot) :
    c.input (.caller id) input = { c with broker := (c.broker.step c.clock input).broker } := by
  cases next : (c.broker.step c.clock input).next with
  | answer snapshot => exact absurd next (waits snapshot)
  | sleep _ | queue | fetch | nothing => simp only [Crowd.input, next]

theorem input_answers {c : Crowd} {id : Nat} {input : Broker.Input} {snapshot : Snapshot}
    {call : Call} (next : (c.broker.step c.clock input).next = .answer snapshot)
    (found : c.calls[id]? = some call) :
    c.input (.caller id) input =
      { c with broker := (c.broker.step c.clock input).broker }.enter id call
        (call.plan.resolved snapshot.answer) := by
  simp only [Crowd.input, next, found]

/-- A call has its reply; where it was refused, it asks for another credential at once. -/
def receive (c : Crowd) (id : Nat) (call : Call) (move : Move) : Crowd :=
  let c := c.enter id call move
  match move with
  | .resolve failed _ => c.input (.caller id) (.resolve id failed call.polls)
  | _ => c

def step (c : Crowd) : Event → Crowd
  | .wait till => { c with clock := till }
  | .call plan polls =>
    { c with
      calls := c.calls ++ [(Call.create plan polls).moved (plan.start c.broker.current)] }
  | .reply id result =>
    match c.calls[id]? with
    | some call =>
      match call.stage with
      | .sent attempt => c.receive id call (call.plan.received attempt result)
      | _ => c
    | none => c
  | .wake party =>
    match c.broker.onWake? c.clock party with
    | some input => c.input party input
    | none => c
  | .land party outcome => c.input party (.land party outcome)

def run (c : Crowd) (events : List Event) : Crowd :=
  events.foldl step c

/-- What may happen. The clock stands still while a task is ready. The issuer refuses no request but
one that carries `x`, and answers every other with success. What the source brings is `y`. -/
inductive Allowed (x y : Credential) (c : Crowd) : Event → Prop where
  | wait (till : Nat) (onward : c.clock ≤ till)
      (idle : ∀ party ∈ c.broker.parties, c.broker.ready c.clock party = false) :
      Allowed x y c (.wait till)
  | call (plan : Plan) (polls : Nat) : Allowed x y c (.call plan polls)
  | accept (id : Nat) (call : Call) (attempt : Attempt) (reply : Http.Reply)
      (found : c.calls[id]? = some call) (sent : call.stage = .sent attempt)
      (success : call.plan.inspect reply = .ok (.done reply)) :
      Allowed x y c (.reply id (.ok reply))
  | refuse (id : Nat) (call : Call) (attempt : Attempt) (reply : Http.Reply)
      (status : Issuer.Status) (found : c.calls[id]? = some call)
      (sent : call.stage = .sent attempt) (carries : attempt.value = x.value)
      (expired : call.plan.inspect reply = .ok (.expired status)) :
      Allowed x y c (.reply id (.ok reply))
  | wake (party : Broker.Party) (ready : c.broker.ready c.clock party = true) :
      Allowed x y c (.wake party)
  | land (party : Broker.Party) (fetching : c.broker.phase party = .fetching) :
      Allowed x y c (.land party (.ok y))

/-- No renewal falls due. -/
def Undue (c : Crowd) : Prop :=
  ∀ deadline seen, c.broker.renewal = .armed deadline seen → c.clock < deadline

/-- A run in which only what is allowed happens and in which no renewal falls due. -/
def Admitted (x y : Credential) (c : Crowd) : List Event → Prop
  | [] => c.Undue
  | event :: rest => c.Undue ∧ c.Allowed x y event ∧ (c.step event).Admitted x y rest

/-- The rules of `Allowed` as a check that runs. -/
def allows (x y : Credential) (c : Crowd) : Event → Bool
  | .wait till => c.clock ≤ till && c.broker.parties.all fun party => !c.broker.ready c.clock party
  | .call _ _ => true
  | .reply _ (.error _) => false
  | .reply id (.ok reply) =>
    match c.calls[id]? with
    | some call =>
      match call.stage, call.plan.inspect reply with
      | .sent _, .ok (.done same) => same = reply
      | .sent attempt, .ok (.expired _) => attempt.value = x.value
      | _, _ => false
    | none => false
  | .wake party => c.broker.ready c.clock party
  | .land _ (.error _) => false
  | .land party (.ok credential) => c.broker.phase party = .fetching && credential = y

def admits (x y : Credential) (c : Crowd) : List Event → Bool
  | [] => c.broker.renewalDeadline?.all (c.clock < ·)
  | event :: rest =>
    c.broker.renewalDeadline?.all (c.clock < ·) && c.allows x y event &&
      (c.step event).admits x y rest

theorem allowed_of_allows {x y : Credential} {c : Crowd} {event : Event}
    (allows : c.allows x y event = true) : c.Allowed x y event := by
  cases event with
  | wait till =>
      simp only [Crowd.allows, Bool.and_eq_true, decide_eq_true_eq, List.all_eq_true,
        Bool.not_eq_true'] at allows
      exact .wait till allows.1 allows.2
  | call plan polls => exact .call plan polls
  | reply id result =>
      cases result with
      | error error => cases allows
      | ok reply =>
          simp only [Crowd.allows] at allows
          split at allows
          · next call found =>
              split at allows
              · next attempt same sent success =>
                  cases of_decide_eq_true allows
                  exact .accept id call attempt reply found sent success
              · next attempt status sent expired =>
                  exact .refuse id call attempt reply status found sent (of_decide_eq_true allows)
                    expired
              · cases allows
          · cases allows
  | wake party => exact .wake party allows
  | land party outcome =>
      cases outcome with
      | error error => cases allows
      | ok credential =>
          simp only [Crowd.allows, Bool.and_eq_true, decide_eq_true_eq] at allows
          cases allows.2
          exact .land party allows.1

theorem undue_of_deadline {c : Crowd}
    (early : c.broker.renewalDeadline?.all (c.clock < ·) = true) : c.Undue := by
  intro deadline seen armed
  simpa [Broker.renewalDeadline?, armed] using early

theorem admitted_of_admits {x y : Credential} {c : Crowd} {events : List Event}
    (admits : c.admits x y events = true) : c.Admitted x y events := by
  induction events generalizing c with
  | nil => exact undue_of_deadline admits
  | cons event rest ih =>
      simp only [Crowd.admits, Bool.and_eq_true] at admits
      obtain ⟨⟨early, allows⟩, later⟩ := admits
      exact ⟨undue_of_deadline early, allowed_of_allows allows, ih later⟩

/-- Something is still to come: a reply, the end of a fetch, a task that is ready, or one that
sleeps. -/
inductive Pending (c : Crowd) : Prop where
  | reply (call : Call) (member : call ∈ c.calls) (attempt : Attempt)
      (sent : call.stage = .sent attempt)
  | fetch (party : Broker.Party) (fetching : c.broker.phase party = .fetching)
  | ready (party : Broker.Party) (ready : c.broker.ready c.clock party = true)
  | sleep (id : Nat) (resting : c.broker.phase (.caller id) = .resting)

/-- How many calls were refused. -/
def refusals (c : Crowd) : Nat :=
  (c.calls.map fun call => call.refused.toNat).sum

end Crowd

end Bearer

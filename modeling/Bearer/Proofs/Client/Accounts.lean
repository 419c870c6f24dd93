import Bearer.Proofs.Broker.Accounting
import Bearer.Proofs.Client.Crowd

/-!
The books of a client. Its clones share one set of counters, and each call books at several places:
when it begins, when it hands a request to the transport, when its first reply is refused, and when
it ends. Whatever the token service and the transport answer, and in whatever order the calls go on
in between, the books agree with what the calls have done. The counters have no bound here.
-/
namespace Bearer

@[simp] def Event.isExpiryRetry : Event → Bool
  | .expiryRetry _ => true
  | _ => false

namespace Move

/-- What a move books as sent, as a retry, and as an end with this outcome. -/
@[simp] def sends : Move → Nat
  | .send _ _ => 1
  | _ => 0

@[simp] def retries : Move → Nat
  | .resolve _ _ => 1
  | _ => 0

@[simp] def ends (outcome : Outcome) : Move → Nat
  | .finish result => if .of result = outcome then 1 else 0
  | _ => 0

theorem total_observed (move : Move) (outcome : Outcome) :
    total .call outcome move.observed = move.ends outcome := by
  cases move <;> simp [observed]

theorem emitted_observed (move : Move) :
    emitted Event.isExpiryRetry move.observed = move.retries := by
  cases move <;> simp [observed]

end Move

theorem ClientCounters.after_eq (counters : ClientCounters) (move : Move) :
    counters.after move =
      ⟨counters.calls, counters.attempts + move.sends, counters.expiryRetries + move.retries⟩ := by
  cases move <;> rfl

section Clones

variable [Url.Idna]

/-- A call with the requests that it has handed to the transport and the replies to them. -/
structure Errand where
  plan : Plan
  sent : List Http.Request
  replies : List (Except Error Http.Reply)
  stage : Stage
  dropped : Bool

namespace Errand

def create (plan : Plan) : Errand :=
  ⟨plan, [], [], .begun, false⟩

def moved (errand : Errand) : Move → Errand
  | .send request attempt =>
    { errand with sent := errand.sent ++ [request], stage := .sent attempt }
  | .resolve _ _ => { errand with stage := .resolving }
  | .finish result => { errand with stage := .returned result }

def replied (errand : Errand) (reply : Except Error Http.Reply) : Errand :=
  { errand with replies := errand.replies ++ [reply] }

/-- What a call does that hears a reply; one that does not wait for it hears nothing. -/
def onReply? (errand : Errand) (reply : Except Error Http.Reply) : Option (Errand × Move) :=
  match errand.dropped, errand.stage with
  | false, .sent attempt => some (errand.replied reply, errand.plan.received attempt reply)
  | _, _ => none

def onResolved? (errand : Errand) (answer : Except Error Credential) : Option (Errand × Move) :=
  match errand.dropped, errand.stage with
  | false, .resolving => some (errand, errand.plan.resolved answer)
  | _, _ => none

/-- Whether a reply says that the credential is refused. -/
def refuses (plan : Plan) (reply : Except Error Http.Reply) : Bool :=
  match reply.bind plan.inspect with
  | .ok (.expired _) => true
  | _ => false

/-- Whether the first reply has refused the credential. -/
def refused (errand : Errand) : Bool :=
  errand.replies.head?.any (refuses errand.plan)

/-- The call goes on, sooner or later. -/
def inProgress (errand : Errand) : Bool :=
  match errand.stage with
  | .returned _ => false
  | _ => !errand.dropped

@[simp] def ended (outcome : Outcome) (errand : Errand) : Nat :=
  match errand.stage with
  | .returned result => if .of result = outcome then 1 else 0
  | _ => 0

/-- What a call has sent and heard where it is now. -/
def Sound (errand : Errand) : Prop :=
  match errand.stage with
  | .begun => errand.sent = [] ∧ errand.replies = []
  | .sent (.first _) => errand.sent.length = 1 ∧ errand.replies = []
  | .resolving => errand.sent.length = 1 ∧ errand.refused = true
  | .sent (.second _) => errand.sent.length = 2 ∧ errand.refused = true
  | .returned _ =>
    errand.refused.toNat ≤ errand.sent.length ∧ errand.sent.length ≤ 1 + errand.refused.toNat

theorem refuses_iff {plan : Plan} {reply : Except Error Http.Reply} :
    refuses plan reply = true ↔
      ∃ answer status, reply = .ok answer ∧ plan.codes.Refuses answer status := by
  cases reply with
  | error error => simp [refuses, Except.bind]
  | ok answer =>
      have reads := plan.reads answer
      simp only [refuses, Except.bind, Except.ok.injEq, exists_and_left, exists_eq_left']
      constructor
      · intro refused
        split at refused
        · next status expired =>
            rw [expired] at reads
            cases reads with
            | expired _ refuses => exact ⟨status, refuses⟩
        · cases refused
      · rintro ⟨status, refuses⟩
        rw [reads.of_refuses refuses]

theorem refused_iff {errand : Errand} :
    errand.refused = true ↔ ∃ reply status, errand.replies.head? = some (.ok reply) ∧
      errand.plan.codes.Refuses reply status := by
  simp only [refused]
  cases errand.replies.head? with
  | none => simp
  | some reply => simp [refuses_iff]

theorem refused_replied {errand : Errand} (refused : errand.refused = true)
    (reply : Except Error Http.Reply) : (errand.replied reply).refused = true := by
  obtain ⟨plan, sent, replies, stage, dropped⟩ := errand
  cases replies with
  | nil => cases refused
  | cons first rest => exact refused

theorem received_first (plan : Plan) (value : String) (reply : Except Error Http.Reply) :
    (refuses plan reply = true ∧ ∃ code, plan.received (.first value) reply = .resolve value code) ∨
      refuses plan reply = false ∧
        ∃ result, plan.received (.first value) reply = .finish result := by
  simp only [Plan.received, refuses]
  cases reply.bind plan.inspect with
  | error error => exact .inr ⟨rfl, _, rfl⟩
  | ok verdict =>
      cases verdict with
      | done reply => exact .inr ⟨rfl, _, rfl⟩
      | expired status => exact .inl ⟨rfl, _, rfl⟩

theorem received_second (plan : Plan) (value : String) (reply : Except Error Http.Reply) :
    ∃ result, plan.received (.second value) reply = .finish result := by
  simp only [Plan.received]
  cases reply.bind plan.inspect with
  | error error => exact ⟨_, rfl⟩
  | ok verdict => cases verdict <;> exact ⟨_, rfl⟩

@[simp] theorem ended_moved (errand : Errand) (move : Move) (outcome : Outcome) :
    (errand.moved move).ended outcome = move.ends outcome := by
  cases move <;> rfl

/-- One move of a call, which may have heard a reply: what changes of the call is what is booked
for the move. -/
structure Goes (before after : Errand) (move : Move) : Prop where
  sound : (after.moved move).Sound
  sent : after.sent = before.sent
  kept : after.dropped = before.dropped
  retried : after.refused.toNat = before.refused.toNat + move.retries
  still : ∀ outcome, before.ended outcome = 0

@[simp] theorem sent_moved (errand : Errand) (move : Move) :
    (errand.moved move).sent.length = errand.sent.length + move.sends := by
  cases move <;> simp [moved]

@[simp] theorem refused_moved (errand : Errand) (move : Move) :
    (errand.moved move).refused = errand.refused := by
  cases move <;> rfl

theorem sound_finish {errand : Errand} {result : Except Error Http.Reply} {refused : Bool}
    (heard : errand.refused = refused) (least : refused.toNat ≤ errand.sent.length)
    (most : errand.sent.length ≤ 1 + refused.toNat) : (errand.moved (.finish result)).Sound := by
  subst heard
  exact ⟨least, most⟩

section Goes

variable {errand : Errand} {value : String}

theorem goes_start (plan : Plan) (current : Except Error Credential) :
    (create plan).Goes (create plan) (plan.start current) := by
  have ends : ∀ error, (create plan).Goes (create plan) (.finish (.error error)) := fun error =>
    ⟨⟨Nat.le_refl 0, Nat.zero_le 1⟩, rfl, rfl, rfl, fun _ => rfl⟩
  cases current with
  | error error => exact ends error
  | ok credential =>
      simp only [Plan.start, Plan.attempt]
      split
      · exact ⟨⟨rfl, rfl⟩, rfl, rfl, rfl, fun _ => rfl⟩
      · next error _ => exact ends error

theorem goes_first (sound : errand.Sound) (stage : errand.stage = .sent (.first value))
    (reply : Except Error Http.Reply) :
    errand.Goes (errand.replied reply) (errand.plan.received (.first value) reply) := by
  obtain ⟨plan, sent, replies, stage, dropped⟩ := errand
  cases stage
  obtain ⟨one, rfl⟩ := sound
  have heard : (replied ⟨plan, sent, [], .sent (.first value), dropped⟩ reply).refused =
      refuses plan reply := rfl
  obtain ⟨refused, code, received⟩ | ⟨accepted, result, received⟩ :=
    received_first plan value reply
  · rw [received]
    refine ⟨⟨one, heard.trans refused⟩, rfl, rfl, ?_, fun _ => rfl⟩
    rw [heard, refused]
    rfl
  · rw [received]
    have kept := heard.trans accepted
    refine ⟨sound_finish kept (Nat.zero_le _) (Nat.le_of_eq one), rfl, rfl, ?_, fun _ => rfl⟩
    rw [kept]
    rfl

theorem goes_second (sound : errand.Sound) (stage : errand.stage = .sent (.second value))
    (reply : Except Error Http.Reply) :
    errand.Goes (errand.replied reply) (errand.plan.received (.second value) reply) := by
  have still : ∀ outcome, errand.ended outcome = 0 := fun outcome => by
    simp [ended, stage]
  simp only [Sound, stage] at sound
  have refused := refused_replied sound.2 reply
  obtain ⟨result, received⟩ := received_second errand.plan value reply
  have two : (errand.replied reply).sent.length = 2 := sound.1
  rw [received]
  refine ⟨sound_finish refused ?_ (Nat.le_of_eq two), rfl, rfl, ?_, still⟩
  · rw [two]
    decide
  · rw [refused, sound.2]
    rfl

theorem goes_resolved (sound : errand.Sound) (stage : errand.stage = .resolving)
    (answer : Except Error Credential) :
    errand.Goes errand (errand.plan.resolved answer) := by
  have still : ∀ outcome, errand.ended outcome = 0 := fun outcome => by
    simp [ended, stage]
  simp only [Sound, stage] at sound
  have ends : ∀ error, errand.Goes errand (.finish (.error error)) := by
    intro error
    refine ⟨sound_finish sound.2 ?_ ?_, rfl, rfl, rfl, still⟩
    · rw [sound.1]
      decide
    · rw [sound.1]
      decide
  cases answer with
  | error error => exact ends error
  | ok credential =>
      simp only [Plan.resolved, Plan.attempt]
      split
      · refine ⟨?_, rfl, rfl, rfl, still⟩
        simp only [Sound, moved, List.length_append, sound.1]
        exact ⟨rfl, sound.2⟩
      · next error _ => exact ends error

theorem goes_onReply {after : Errand} {move : Move} (sound : errand.Sound)
    {reply : Except Error Http.Reply} (next : errand.onReply? reply = some (after, move)) :
    errand.Goes after move := by
  simp only [onReply?] at next
  split at next
  · next attempt _ stage =>
      cases next
      cases attempt with
      | first value => exact goes_first sound stage reply
      | second value => exact goes_second sound stage reply
  · cases next

theorem goes_onResolved {after : Errand} {move : Move} (sound : errand.Sound)
    {answer : Except Error Credential} (next : errand.onResolved? answer = some (after, move)) :
    errand.Goes after move := by
  simp only [onResolved?] at next
  split at next
  · next _ stage =>
      cases next
      exact goes_resolved sound stage answer
  · cases next

end Goes

theorem Sound.sent_le {errand : Errand} (sound : errand.Sound) :
    errand.sent.length ≤ 1 + errand.refused.toNat := by
  simp only [Sound] at sound
  split at sound
  · simp [sound.1]
  · omega
  · omega
  · rw [sound.1, sound.2]
    decide
  · exact sound.2

theorem ended_once {errand : Errand} (idle : errand.inProgress = false)
    (kept : errand.dropped = false) : errand.ended .success + errand.ended .failure = 1 := by
  simp only [inProgress] at idle
  split at idle
  · next result stage => cases result <;> simp [ended, stage, Outcome.of]
  · simp [kept] at idle

@[simp] theorem dropped_moved (errand : Errand) (move : Move) :
    (errand.moved move).dropped = errand.dropped := by
  cases move <;> rfl

end Errand

/-- The calls that clones of one client have made, with the books that the clones share. -/
structure Traffic where
  counters : ClientCounters
  observed : List Observation
  calls : List Errand

namespace Traffic

def zero : Traffic :=
  ⟨.zero, [], []⟩

/-- A call begins, with the credential that the token service has; a reply comes, or another
credential; a call is dropped. -/
inductive Event where
  | call (plan : Plan) (current : Except Error Credential)
  | reply (id : Nat) (reply : Except Error Http.Reply)
  | resolved (id : Nat) (answer : Except Error Credential)
  | drop (id : Nat)

def opens (t : Traffic) (plan : Plan) : Traffic :=
  ⟨t.counters.call, t.observed ++ Plan.began, t.calls ++ [.create plan]⟩

def enter (t : Traffic) (id : Nat) (errand : Errand) (move : Move) : Traffic :=
  ⟨t.counters.after move, t.observed ++ move.observed, t.calls.set id (errand.moved move)⟩

/-- One call goes on, if it can. -/
def goOn (t : Traffic) (id : Nat) (next? : Errand → Option (Errand × Move)) : Traffic :=
  match t.calls[id]?.bind next? with
  | some (errand, move) => t.enter id errand move
  | none => t

def step (t : Traffic) : Event → Traffic
  | .call plan current =>
    (t.opens plan).enter t.calls.length (.create plan) (plan.start current)
  | .reply id reply => t.goOn id (·.onReply? reply)
  | .resolved id answer => t.goOn id (·.onResolved? answer)
  | .drop id =>
    match t.calls[id]? with
    | some errand => { t with calls := t.calls.set id { errand with dropped := true } }
    | none => t

def run (t : Traffic) (events : List Event) : Traffic :=
  events.foldl step t

/-- The books agree with the calls. -/
structure Balanced (t : Traffic) : Prop where
  sound : ∀ errand ∈ t.calls, errand.Sound
  calls : t.counters.calls = t.calls.length
  attempts : t.counters.attempts = (t.calls.map fun errand => errand.sent.length).sum
  retries : t.counters.expiryRetries = (t.calls.map fun errand => errand.refused.toNat).sum
  begun : total .call .attempt t.observed = t.calls.length
  ended : ∀ outcome, outcome ≠ .attempt →
    total .call outcome t.observed = (t.calls.map (Errand.ended outcome)).sum
  events : emitted Event.isExpiryRetry t.observed = t.counters.expiryRetries

section Steps

variable {t : Traffic} {id : Nat} {before after : Errand} {move : Move}

theorem balanced_opens (h : t.Balanced) (plan : Plan) : (t.opens plan).Balanced where
  sound errand member := by
    cases List.mem_append.mp member with
    | inl old => exact h.sound errand old
    | inr new =>
        cases List.mem_singleton.mp new
        exact ⟨rfl, rfl⟩
  calls := by simp [opens, ClientCounters.call, h.calls]
  attempts := by simp [opens, ClientCounters.call, h.attempts, Errand.create]
  retries := by simp [opens, ClientCounters.call, h.retries, Errand.create, Errand.refused]
  begun := by simp [opens, Plan.began, h.begun]
  ended outcome other := by
    simp [opens, Plan.began, h.ended outcome other, Errand.create, Ne.symm other]
  events := by simp [opens, Plan.began, ClientCounters.call, h.events]

theorem forall_enter {P : Errand → Prop} (all : ∀ errand ∈ t.calls, P errand)
    (new : P (after.moved move)) : ∀ errand ∈ (t.enter id after move).calls, P errand := by
  intro errand member
  cases List.mem_or_eq_of_mem_set member with
  | inl old => exact all errand old
  | inr same => exact same ▸ new

theorem balanced_enter (h : t.Balanced) (found : t.calls[id]? = some before)
    (goes : before.Goes after move) : (t.enter id after move).Balanced := by
  have sent := sum_set found (after.moved move) fun errand => errand.sent.length
  have retried := sum_set found (after.moved move) fun errand => errand.refused.toNat
  have booked := goes.retried
  simp only [Errand.sent_moved, Errand.refused_moved, goes.sent] at sent retried
  constructor
  case sound => exact forall_enter h.sound goes.sound
  case calls => simp [enter, ClientCounters.after_eq, h.calls]
  case attempts =>
    simp only [enter, ClientCounters.after_eq, h.attempts]
    omega
  case retries =>
    simp only [enter, ClientCounters.after_eq, h.retries]
    omega
  case begun =>
    have silent : move.ends .attempt = 0 := by
      cases move with
      | finish result => cases result <;> rfl
      | send _ _ | resolve _ _ => rfl
    simp only [enter, total_append, Move.total_observed, silent, h.begun, List.length_set,
      Nat.add_zero]
  case ended =>
    intro outcome other
    have ends := sum_set found (after.moved move) (Errand.ended outcome)
    rw [goes.still outcome, Errand.ended_moved] at ends
    simp only [enter, total_append, Move.total_observed, h.ended outcome other]
    omega
  case events =>
    simp only [enter, ClientCounters.after_eq, emitted_append, Move.emitted_observed, h.events]

theorem balanced_goOn (h : t.Balanced) {next? : Errand → Option (Errand × Move)}
    (goes : ∀ {before after move}, before.Sound → next? before = some (after, move) →
      before.Goes after move) : (t.goOn id next?).Balanced := by
  simp only [goOn]
  split
  · next after move next =>
      obtain ⟨before, found, next⟩ := Option.bind_eq_some_iff.mp next
      have sound := h.sound before (List.mem_of_getElem? found)
      exact balanced_enter h found (goes sound next)
  · exact h

theorem kept_goOn (h : t.Balanced) (kept : ∀ errand ∈ t.calls, errand.dropped = false)
    {next? : Errand → Option (Errand × Move)}
    (goes : ∀ {before after move}, before.Sound → next? before = some (after, move) →
      before.Goes after move) : ∀ errand ∈ (t.goOn id next?).calls, errand.dropped = false := by
  simp only [goOn]
  split
  · next after move next =>
      obtain ⟨before, found, next⟩ := Option.bind_eq_some_iff.mp next
      have inside := List.mem_of_getElem? found
      have goes := goes (h.sound before inside) next
      refine forall_enter kept ?_
      rw [Errand.dropped_moved, goes.kept, kept before inside]
  · exact kept

/-- The books do not tell a call that is dropped from one that stands still. -/
theorem balanced_drop (h : t.Balanced) (found : t.calls[id]? = some before) :
    { t with calls := t.calls.set id { before with dropped := true } }.Balanced := by
  have sums := fun f => sum_set found { before with dropped := true } f
  constructor
  case sound =>
    intro errand member
    cases List.mem_or_eq_of_mem_set member with
    | inl old => exact h.sound errand old
    | inr new => exact new ▸ h.sound before (List.mem_of_getElem? found)
  case calls => simp [h.calls]
  case attempts => exact h.attempts.trans (Nat.add_right_cancel (sums _)).symm
  case retries => exact h.retries.trans (Nat.add_right_cancel (sums _)).symm
  case begun => simp [h.begun]
  case ended =>
    intro outcome other
    exact (h.ended outcome other).trans (Nat.add_right_cancel (sums _)).symm
  case events => exact h.events

theorem balanced_step (h : t.Balanced) (event : Event) : (t.step event).Balanced := by
  cases event with
  | call plan current =>
      have found : (t.opens plan).calls[t.calls.length]? = some (.create plan) := by
        simp [opens]
      exact balanced_enter (balanced_opens h plan) found (Errand.goes_start plan current)
  | reply id reply => exact balanced_goOn h fun sound next => Errand.goes_onReply sound next
  | resolved id answer => exact balanced_goOn h fun sound next => Errand.goes_onResolved sound next
  | drop id =>
      simp only [step]
      split
      · next errand found => exact balanced_drop h found
      · exact h

theorem balanced_run (h : t.Balanced) (events : List Event) : (t.run events).Balanced := by
  induction events generalizing t with
  | nil => exact h
  | cons event rest ih => exact ih (balanced_step h event)

/-- A call is dropped only where that is asked for. -/
theorem kept_step (h : t.Balanced) (kept : ∀ errand ∈ t.calls, errand.dropped = false)
    {event : Event} (stays : ∀ id, event ≠ .drop id) :
    ∀ errand ∈ (t.step event).calls, errand.dropped = false := by
  cases event with
  | call plan current =>
      refine forall_enter (fun errand member => ?_) (Errand.dropped_moved _ _)
      cases List.mem_append.mp member with
      | inl old => exact kept errand old
      | inr new =>
          cases List.mem_singleton.mp new
          rfl
  | reply id reply => exact kept_goOn h kept fun sound next => Errand.goes_onReply sound next
  | resolved id answer => exact kept_goOn h kept fun sound next => Errand.goes_onResolved sound next
  | drop id => exact absurd rfl (stays id)

theorem kept_run (h : t.Balanced) (kept : ∀ errand ∈ t.calls, errand.dropped = false)
    {events : List Event} (stays : ∀ event ∈ events, ∀ id, event ≠ .drop id) :
    ∀ errand ∈ (t.run events).calls, errand.dropped = false := by
  induction events generalizing t with
  | nil => exact kept
  | cons event rest ih =>
      have next := kept_step h kept (stays event List.mem_cons_self)
      exact ih (balanced_step h event) next fun other member =>
        stays other (List.mem_cons_of_mem _ member)

end Steps

section Sums

variable {t : Traffic}

theorem sum_sent_le {calls : List Errand} (sound : ∀ errand ∈ calls, errand.Sound) :
    (calls.map fun errand => errand.sent.length).sum ≤
      calls.length + (calls.map fun errand => errand.refused.toNat).sum := by
  induction calls with
  | nil => exact Nat.le_refl 0
  | cons errand rest ih =>
      have first := (sound errand List.mem_cons_self).sent_le
      have others := ih fun other member => sound other (List.mem_cons_of_mem _ member)
      simp only [List.map_cons, List.sum_cons, List.length_cons]
      omega

theorem sent_le (h : t.Balanced) :
    t.counters.attempts ≤ t.counters.calls + t.counters.expiryRetries := by
  rw [h.attempts, h.calls, h.retries]
  exact sum_sent_le h.sound

theorem retries_eq (h : t.Balanced) :
    t.counters.expiryRetries = t.calls.countP Errand.refused := by
  rw [h.retries]
  induction t.calls with
  | nil => rfl
  | cons errand rest ih =>
      rw [List.map_cons, List.sum_cons, List.countP_cons, ih]
      cases errand.refused <;> simp [Nat.add_comm]

/-- Calls that have all come to their end have each ended once. -/
theorem ended_eq {calls : List Errand} (idle : ∀ errand ∈ calls, errand.inProgress = false)
    (kept : ∀ errand ∈ calls, errand.dropped = false) :
    (calls.map (Errand.ended .success)).sum + (calls.map (Errand.ended .failure)).sum =
      calls.length := by
  induction calls with
  | nil => rfl
  | cons errand rest ih =>
      have first := Errand.ended_once (idle errand List.mem_cons_self)
        (kept errand List.mem_cons_self)
      have others := ih (fun other member => idle other (List.mem_cons_of_mem _ member))
        fun other member => kept other (List.mem_cons_of_mem _ member)
      simp only [List.map_cons, List.sum_cons, List.length_cons]
      omega

theorem balanced_zero : zero.Balanced where
  sound := List.forall_mem_nil _
  calls := rfl
  attempts := rfl
  retries := rfl
  begun := total_nil .call .attempt
  ended outcome _ := total_nil .call outcome
  events := emitted_nil Bearer.Event.isExpiryRetry

end Sums

/-- However many calls are made, and however they go on in between: the attempts are the requests
that were handed to the transport, and the retries are the calls whose first reply refused the
credential. So there is at most one retry to a call, and there are at most two requests. Once no
call is in progress and none was dropped, the outcomes and the events that were told agree with the
counters. -/
theorem accounts_agree (events : List Event) :
    let t := zero.run events
    t.counters.attempts = (t.calls.map fun errand => errand.sent.length).sum ∧
      t.counters.expiryRetries = t.calls.countP Errand.refused ∧
      (∀ errand ∈ t.calls, errand.refused = true ↔
        ∃ reply status, errand.replies.head? = some (.ok reply) ∧
          errand.plan.codes.Refuses reply status) ∧
      t.counters.calls = t.calls.length ∧
      t.counters.expiryRetries ≤ t.counters.calls ∧
      t.counters.attempts ≤ t.counters.calls + t.counters.expiryRetries ∧
      t.counters.calls + t.counters.expiryRetries ≤ 2 * t.counters.calls ∧
      ((∀ event ∈ events, ∀ id, event ≠ .drop id) →
        (∀ errand ∈ t.calls, errand.inProgress = false) →
        total .call .attempt t.observed = t.counters.calls ∧
        t.counters.calls =
          total .call .success t.observed + total .call .failure t.observed ∧
        emitted Bearer.Event.isExpiryRetry t.observed = t.counters.expiryRetries) := by
  intro t
  have balanced : t.Balanced := balanced_run balanced_zero events
  have retries := retries_eq balanced
  have bound : t.calls.countP Errand.refused ≤ t.calls.length := List.countP_le_length
  have calls := balanced.calls
  refine ⟨balanced.attempts, retries, fun errand _ => Errand.refused_iff, calls, ?_,
    sent_le balanced, ?_, fun stays idle => ⟨?_, ?_, balanced.events⟩⟩
  · omega
  · omega
  · rw [balanced.begun, calls]
  · have kept : ∀ errand ∈ t.calls, errand.dropped = false :=
      kept_run balanced_zero (List.forall_mem_nil _) stays
    rw [balanced.ended .success nofun, balanced.ended .failure nofun, ended_eq idle kept, calls]

end Traffic

end Clones

namespace Traffic

open Url.PlainNames

/-- Two calls at a time: one is lost, the other is refused and sends its request again. -/
theorem accounts_of_two_calls :
    let plan := Plan.sample ⟨"https://a?b=", by decide +kernel, by decide +kernel⟩
    let events : List Event :=
      [.call plan (.ok (Broker.sample "x")), .call plan (.ok (Broker.sample "x")),
        .reply 1 (.ok (.sample "\x7b\"errcode\":40001\x7d")), .reply 0 (.error (.network "lost")),
        .resolved 1 (.ok (Broker.sample "y")), .reply 1 (.ok (.sample "\x7b\x7d"))]
    (∀ event ∈ events, ∀ id, event ≠ .drop id) ∧
      (∀ errand ∈ (zero.run events).calls, errand.inProgress = false) ∧
      (zero.run events).counters = ⟨2, 3, 1⟩ ∧
      (zero.run events).calls.map (fun errand => errand.sent.length) = [1, 2] ∧
      total .call .attempt (zero.run events).observed = (zero.run events).counters.calls ∧
      (zero.run events).counters.calls = total .call .success (zero.run events).observed +
        total .call .failure (zero.run events).observed ∧
      emitted Bearer.Event.isExpiryRetry (zero.run events).observed =
        (zero.run events).counters.expiryRetries := by
  intro plan events
  have stays : ∀ event ∈ events, ∀ id, event ≠ .drop id := by
    simp [events]
  have counters : (zero.run events).counters = ⟨2, 3, 1⟩ := by
    simp only [events, plan]
    cbv
  have sent : (zero.run events).calls.map (fun errand => errand.sent.length) = [1, 2] := by
    simp only [events, plan]
    cbv
  have idle : ∀ errand ∈ (zero.run events).calls, errand.inProgress = false := by
    have all : (zero.run events).calls.all (!·.inProgress) = true := by
      simp only [events, plan]
      cbv
    simpa using all
  obtain ⟨-, -, -, -, -, -, -, agree⟩ := accounts_agree events
  obtain ⟨begun, ended, told⟩ := agree stays idle
  exact ⟨stays, idle, counters, sent, begun, ended, told⟩

end Traffic

end Bearer

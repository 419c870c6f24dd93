import Mathlib
import Bearer.Proofs.Client.Accounts
import Bearer.Proofs.Client.Slot

/-!
The two requests of a call. The first carries what the store held when the call began, the second
what the call was answered when it asked for another credential. In between the store may come to
hold anything, and other calls go on. The requests do not differ but for their targets, and those
not but for the credentials.
-/
namespace Bearer

section Calls

variable [Url.Idna]

namespace Errand

/-- What a call has sent, by the credentials that it was given. -/
inductive Carries (plan : Plan) (began answered : Credential → Prop) : List Http.Request → Prop where
  | nothing : Carries plan began answered []
  | once {credential : Credential} {request : Http.Request} (held : began credential)
      (built : plan.request credential.value = .ok request) : Carries plan began answered [request]
  | twice {credential newer : Credential} {first second : Http.Request} (held : began credential)
      (told : answered newer) (built : plan.request credential.value = .ok first)
      (again : plan.request newer.value = .ok second) : Carries plan began answered [first, second]

variable {plan : Plan} {errand after : Errand} {move : Move}

theorem Carries.mono {began later answered answers : Credential → Prop} {sent : List Http.Request}
    (carries : Carries plan began answered sent) (kept : ∀ c, began c → later c)
    (keptToo : ∀ c, answered c → answers c) : Carries plan later answers sent := by
  cases carries with
  | nothing => exact .nothing
  | once held built => exact .once (kept _ held) built
  | twice held told built again => exact .twice (kept _ held) (keptToo _ told) built again

@[simp] theorem plan_moved (errand : Errand) (move : Move) :
    (errand.moved move).plan = errand.plan := by
  cases move <;> rfl

theorem sent_of_attempt (plan : Plan) (errand : Errand) (attempt : Attempt) :
    (errand.moved (plan.attempt attempt)).sent = errand.sent ∨
      ∃ request, plan.request attempt.value = .ok request ∧
        (errand.moved (plan.attempt attempt)).sent = errand.sent ++ [request] := by
  rw [Plan.attempt]
  split
  · next request built => exact .inr ⟨request, built, rfl⟩
  · exact .inl rfl

/-- A reply makes a call send nothing at once. -/
theorem sent_received (errand : Errand) (attempt : Attempt) (reply : Except Error Http.Reply) :
    (errand.moved (plan.received attempt reply)).sent = errand.sent := by
  cases attempt with
  | first value =>
      obtain ⟨-, code, received⟩ | ⟨-, result, received⟩ := received_first plan value reply
      · rw [received]
        rfl
      · rw [received]
        rfl
  | second value =>
      obtain ⟨result, received⟩ := received_second plan value reply
      rw [received]
      rfl

theorem onReply?_eq_some {reply : Except Error Http.Reply}
    (next : errand.onReply? reply = some (after, move)) :
    (after.moved move).plan = errand.plan ∧ (after.moved move).sent = errand.sent := by
  simp only [onReply?] at next
  split at next
  · cases next
    exact ⟨plan_moved _ _, sent_received _ _ _⟩
  · cases next

theorem onResolved?_eq_some {answer : Except Error Credential}
    (next : errand.onResolved? answer = some (after, move)) :
    after = errand ∧ move = errand.plan.resolved answer ∧ errand.dropped = false ∧
      errand.stage = .resolving := by
  simp only [onResolved?] at next
  split at next
  · next kept stage =>
      cases next
      exact ⟨rfl, rfl, kept, stage⟩
  · cases next

section Given

variable {began answered : Credential → Prop} {given : Except Error Credential}

theorem carries_start (held : ∀ c, given = .ok c → began c) :
    Carries plan began answered ((create plan).moved (plan.start given)).sent := by
  cases given with
  | error error => exact .nothing
  | ok credential =>
      obtain sent | ⟨request, built, sent⟩ :=
        sent_of_attempt plan (create plan) (.first credential.value)
      · rw [Plan.start, sent]
        exact .nothing
      · rw [Plan.start, sent]
        exact .once (held _ rfl) built

theorem carries_resolved (carries : Carries errand.plan began answered errand.sent)
    (one : errand.sent.length = 1) (told : ∀ c, given = .ok c → answered c) :
    Carries errand.plan began answered (errand.moved (errand.plan.resolved given)).sent := by
  cases given with
  | error error => exact carries
  | ok newer =>
      obtain sent | ⟨second, again, sent⟩ :=
        sent_of_attempt errand.plan errand (.second newer.value)
      · rw [Plan.resolved, sent]
        exact carries
      · rw [Plan.resolved, sent]
        generalize errand.sent = requests at carries one
        cases carries with
        | nothing => cases one
        | once held built => exact .twice held (told _ rfl) built again
        | twice => cases one

end Given

end Errand

/-- The calls of clones of one client, and the store that they take their credentials from. -/
structure Served where
  store : Store
  traffic : Traffic

namespace Served

/-- The store becomes another one, by whatever means; a call begins with what it holds then; a call
has a reply, is answered when it asked for another credential, or is dropped. -/
inductive Event where
  | becomes (store : Store)
  | call (plan : Plan)
  | reply (id : Nat) (reply : Except Error Http.Reply)
  | resolved (id : Nat) (answer : Except Error Credential)
  | drop (id : Nat)

def opened (store : Store) : Served :=
  ⟨store, .zero⟩

def step (s : Served) : Event → Served
  | .becomes store => { s with store }
  | .call plan => { s with traffic := s.traffic.step (.call plan s.store.answer) }
  | .reply id reply => { s with traffic := s.traffic.step (.reply id reply) }
  | .resolved id answer => { s with traffic := s.traffic.step (.resolved id answer) }
  | .drop id => { s with traffic := s.traffic.step (.drop id) }

def run (s : Served) (events : List Event) : Served :=
  events.foldl step s

theorem run_concat (s : Served) (events : List Event) (event : Event) :
    s.run (events ++ [event]) = (s.run events).step event :=
  List.foldl_concat ..

def call? (s : Served) (id : Nat) : Option Errand :=
  s.traffic.calls[id]?

/-- The call began while the store held this credential. -/
def Began (start : Served) (events : List Event) (id : Nat) (plan : Plan) (c : Credential) :
    Prop :=
  ∃ before after, events = before ++ .call plan :: after ∧
    (start.run before).traffic.calls.length = id ∧ (start.run before).store.answer = .ok c

/-- The call was answered with this credential while it waited for another one. -/
def Answered (start : Served) (events : List Event) (id : Nat) (c : Credential) : Prop :=
  ∃ before after, events = before ++ .resolved id (.ok c) :: after ∧
    ∃ errand, (start.run before).call? id = some errand ∧ errand.dropped = false ∧
      errand.stage = .resolving

/-- Whatever the calls have sent, they sent with credentials that they were given. -/
structure Faithful (start : Served) (events : List Event) : Prop where
  balanced : (start.run events).traffic.Balanced
  carries : ∀ id errand, (start.run events).call? id = some errand →
    Errand.Carries errand.plan (start.Began events id errand.plan) (start.Answered events id)
      errand.sent

section Steps

variable {start : Served} {events : List Event} {event : Event} {id : Nat} {plan : Plan}
  {c : Credential}

theorem Began.later (began : start.Began events id plan c) (event : Event) :
    start.Began (events ++ [event]) id plan c := by
  obtain ⟨before, after, rfl, count, held⟩ := began
  exact ⟨before, after ++ [event], by simp, count, held⟩

theorem Answered.later (answered : start.Answered events id c) (event : Event) :
    start.Answered (events ++ [event]) id c := by
  obtain ⟨before, after, rfl, waits⟩ := answered
  exact ⟨before, after ++ [event], by simp, waits⟩

theorem balanced_step {s : Served} (balanced : s.traffic.Balanced) (event : Event) :
    (s.step event).traffic.Balanced := by
  cases event with
  | becomes store => exact balanced
  | call plan | reply id reply | resolved id answer | drop id =>
      simp only [step]
      exact Traffic.balanced_step balanced _

/-- Of all calls an event changes at most one. -/
theorem found_of_set {calls : List Errand} {other : Nat} {new errand : Errand}
    (found : (calls.set id new)[other]? = some errand) :
    other = id ∧ errand = new ∨ other ≠ id ∧ calls[other]? = some errand := by
  rw [List.getElem?_set] at found
  split at found
  · next same =>
      split at found
      · cases found
        exact .inl ⟨same.symm, rfl⟩
      · cases found
  · next differs => exact .inr ⟨Ne.symm differs, found⟩

theorem found_of_goOn {t : Traffic} {next? : Errand → Option (Errand × Move)} {other : Nat}
    {errand : Errand} (found : (t.goOn id next?).calls[other]? = some errand) :
    t.calls[other]? = some errand ∨ ∃ before after move, t.calls[other]? = some before ∧
      other = id ∧ next? before = some (after, move) ∧ errand = after.moved move := by
  simp only [Traffic.goOn] at found
  split at found
  · next after move went =>
      obtain ⟨before, own, goes⟩ := Option.bind_eq_some_iff.mp went
      obtain ⟨rfl, rfl⟩ | ⟨-, old⟩ := found_of_set found
      · exact .inr ⟨before, after, move, own, rfl, goes, rfl⟩
      · exact .inl old
  · exact .inl found

theorem found_of_call {t : Traffic} {given : Except Error Credential} {other : Nat}
    {errand : Errand} (found : (t.step (.call plan given)).calls[other]? = some errand) :
    t.calls[other]? = some errand ∨ other = t.calls.length ∧
      errand = (Errand.create plan).moved (plan.start given) := by
  obtain new | ⟨differs, old⟩ := found_of_set found
  · exact .inr new
  · refine .inl ?_
    obtain ⟨inside, -⟩ := List.getElem?_eq_some_iff.mp old
    rw [Traffic.opens, List.length_append, List.length_singleton] at inside
    rwa [Traffic.opens, List.getElem?_append_left (by omega)] at old

theorem Faithful.step (faithful : Faithful start events) (event : Event) :
    Faithful start (events ++ [event]) := by
  refine ⟨?_, fun id errand found => ?_⟩
  · rw [run_concat]
    exact balanced_step faithful.balanced event
  rw [run_concat] at found
  have old {errand : Errand} (kept : (start.run events).call? id = some errand) :
      Errand.Carries errand.plan (start.Began (events ++ [event]) id errand.plan)
        (start.Answered (events ++ [event]) id) errand.sent :=
    (faithful.carries id errand kept).mono (fun _ began => began.later event)
      fun _ answered => answered.later event
  cases event with
  | becomes store => exact old found
  | call plan =>
      obtain kept | ⟨rfl, rfl⟩ := found_of_call found
      · exact old kept
      · rw [Errand.plan_moved]
        exact Errand.carries_start fun c held => ⟨events, [], rfl, rfl, held⟩
  | reply id reply =>
      obtain kept | ⟨before, after, move, own, rfl, went, rfl⟩ := found_of_goOn found
      · exact old kept
      · obtain ⟨plan, sent⟩ := Errand.onReply?_eq_some went
        rw [plan, sent]
        exact old own
  | resolved id answer =>
      obtain kept | ⟨before, after, move, own, rfl, went, rfl⟩ := found_of_goOn found
      · exact old kept
      · obtain ⟨rfl, rfl, kept, stage⟩ := Errand.onResolved?_eq_some went
        have sound := faithful.balanced.sound after (List.mem_of_getElem? own)
        simp only [Errand.Sound, stage] at sound
        rw [Errand.plan_moved]
        refine Errand.carries_resolved (old own) sound.1 fun c told => ?_
        exact ⟨events, [], by rw [told], after, own, kept, stage⟩
  | drop id =>
      simp only [Served.step, Traffic.step, call?] at found
      split at found
      · next before own =>
          obtain ⟨rfl, rfl⟩ | ⟨-, kept⟩ := found_of_set found
          · have same := old own
            exact same
          · exact old kept
      · exact old found

theorem faithful_run (store : Store) (events : List Event) : Faithful (opened store) events := by
  induction events using List.reverseRecOn with
  | nil => exact ⟨Traffic.balanced_zero, fun _ _ found => nomatch found⟩
  | append_singleton events event ih => exact ih.step event

end Steps

/-- A call that has sent two requests made the first with what the store held when it began, and the
second with what it was answered when it asked for another credential. The two have one method, one
body and one content type, which is told where there is a body. Where each was sent is the completed
template without its fragment, and with a slash for an empty path behind a host. -/
theorem second_request_like_first (store : Store) (events : List Event) (id : Nat) (errand : Errand)
    (found : ((opened store).run events).call? id = some errand) (first second : Http.Request)
    (sent : errand.sent = [first, second]) :
    ∃ current newer, (opened store).Began events id errand.plan current ∧
      (opened store).Answered events id newer ∧
      errand.plan.Makes current.value first ∧ errand.plan.Makes newer.value second ∧
      second = { first with target := second.target } ∧
      (∀ body, errand.plan.body = some body →
        (first.body = body ∧ second.body = body) ∧
        first.contentType = some Http.jsonContentType ∧
        second.contentType = some Http.jsonContentType) ∧
      (errand.plan.body = none → first.contentType = none ∧ second.contentType = none) := by
  have carries := (faithful_run store events).carries id errand found
  rw [sent] at carries
  cases carries with
  | twice held told built again =>
      have made := Plan.makes_of_request built
      have madeToo := Plan.makes_of_request again
      refine ⟨_, _, held, told, made, madeToo, ?_, fun body given => ?_, fun absent => ?_⟩
      · obtain ⟨method, target, contentType, body⟩ := second
        rw [Http.Request.mk.injEq]
        exact ⟨madeToo.method.trans made.method.symm, rfl,
          madeToo.contentType.trans made.contentType.symm, madeToo.body.trans made.body.symm⟩
      · simp [made.body, madeToo.body, made.contentType, madeToo.contentType, given]
      · simp [made.contentType, madeToo.contentType, absent]

end Served

end Calls

namespace Served

section Samples

open Url.PlainNames

/-- A call that is refused once and then answered with this value, beside a store that holds one
value after the other. -/
def sampleRun (plan : Plan) (newer : String) : List Event :=
  [.call plan, .becomes (.create (.ok (Broker.sample "other"))),
    .reply 0 (.ok (.sample "\x7b\"errcode\":40001\x7d")),
    .becomes (.create (.ok (Broker.sample "another"))),
    .resolved 0 (.ok (Broker.sample newer))]

def sampleStore : Store :=
  .create (.ok (Broker.sample "tok"))

/-- A body is sent again as it was. -/
theorem second_request_of_post :
    let plan : Plan :=
      ⟨"POST", ⟨"https://a?key=", by decide +kernel, by decide +kernel⟩, some [0x7B, 0x7D], .default⟩
    let type := some "application/json; charset=utf-8"
    let first : Http.Request := ⟨"POST", "https://a/?key=tok", type, [0x7B, 0x7D]⟩
    let second : Http.Request := ⟨"POST", "https://a/?key=new", type, [0x7B, 0x7D]⟩
    ∃ errand, ((opened sampleStore).run (sampleRun plan "new")).call? 0 = some errand ∧
      errand.sent = [first, second] ∧ ∃ current newer,
        (opened sampleStore).Began (sampleRun plan "new") 0 errand.plan current ∧
        (opened sampleStore).Answered (sampleRun plan "new") 0 newer ∧
        errand.plan.Makes current.value first ∧ errand.plan.Makes newer.value second := by
  intro plan type first second
  have both : (((opened sampleStore).run (sampleRun plan "new")).call? 0).map Errand.sent =
      some [first, second] := by
    decide +kernel
  obtain ⟨errand, found, sent⟩ := Option.map_eq_some_iff.mp both
  obtain ⟨current, newer, began, answered, made, madeToo, -⟩ :=
    second_request_like_first sampleStore _ 0 errand found first second sent
  exact ⟨errand, found, sent, current, newer, began, answered, made, madeToo⟩

/-- A completed template is not always what is sent: an empty path is sent as a slash. -/
theorem slash_sent_for_empty_path :
    let plan : Plan :=
      ⟨"GET", ⟨"foo://host?access_token=", by decide +kernel, by decide +kernel⟩, none, .default⟩
    let url : Url :=
      ⟨"foo", "", none, some (.domain "host"), none, .segments [], some "access_token=tok", none⟩
    (((opened sampleStore).run (sampleRun plan "new")).call? 0).map Errand.sent =
        some [⟨"GET", "foo://host/?access_token=tok", none, []⟩,
          ⟨"GET", "foo://host/?access_token=new", none, []⟩] ∧
      (opened sampleStore).Began (sampleRun plan "new") 0 plan (Broker.sample "tok") ∧
      plan.template.complete "tok" = .ok url ∧ url.fragment = none ∧
      url.text = "foo://host?access_token=tok" := by
  intro plan url
  have completes : plan.template.complete "tok" = .ok url :=
    Json.toOption_eq_some.mp (by decide +kernel)
  exact ⟨by decide +kernel, ⟨[], _, rfl, rfl, rfl⟩, completes, rfl, by decide +kernel⟩

end Samples

end Served

end Bearer

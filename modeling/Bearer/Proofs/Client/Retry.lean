import Bearer.Proofs.Broker.Run
import Bearer.Proofs.Client.Request
import Bearer.Scenario.Script

/-!
What one call does. It asks the token service for the current credential and sends a request with
it; when the issuer refuses that credential, it asks for another and sends the request once more.
Whatever the token service and the transport answer, there is no third request, and the result is
decided by the answer that came last.
-/
namespace Bearer

open Scenario (TokenCall)

/-- What a call does to others: it asks the token service, or it sends a request. -/
inductive Act where
  | ask (call : TokenCall)
  | send (request : Http.Request)
  deriving DecidableEq, Repr

namespace Act

def request? : Act → Option Http.Request
  | .ask _ => none
  | .send request => some request

def failed? : Act → Option String
  | .ask (.resolve failed) => some failed
  | _ => none

end Act

/-- A token service and a transport. What they answer may depend on all that was done before. -/
structure Partners where
  token : List Act → TokenCall → Except Error Credential
  reply : List Act → Http.Request → Except Error Http.Reply

/-- What a call has done when it is over, and how it ended. -/
structure Course where
  acts : List Act
  result : Except Error Http.Reply

def Course.sent (course : Course) : List Http.Request :=
  course.acts.filterMap Act.request?

/-- The values for which the call asked for another credential. -/
def Course.failed (course : Course) : List String :=
  course.acts.filterMap Act.failed?

/-- How many answers a call waits for at most. -/
def Move.left : Move → Nat
  | .send _ (.first _) => 3
  | .resolve _ _ => 2
  | .send _ (.second _) => 1
  | .finish _ => 0

namespace Plan

variable [Url.Idna]

theorem left_attempt_second (plan : Plan) (value : String) :
    (plan.attempt (.second value)).left ≤ 1 := by
  simp only [attempt]
  split <;> simp [Move.left]

theorem left_received (plan : Plan) (request : Http.Request) (attempt : Attempt)
    (reply : Except Error Http.Reply) :
    (plan.received attempt reply).left < (Move.send request attempt).left := by
  simp only [received]
  split
  · cases attempt <;> simp [Move.left]
  · cases attempt <;> simp [Move.left]
  · cases attempt <;> simp [Move.left]

theorem left_resolved (plan : Plan) (failed : String) (code : Int)
    (answer : Except Error Credential) :
    (plan.resolved answer).left < (Move.resolve failed code).left := by
  cases answer with
  | ok credential => exact Nat.lt_succ_of_le (plan.left_attempt_second credential.value)
  | error error => simp [resolved, Move.left]

/-- Makes the moves of a call, each decided by the answer to the one before. -/
def follow (plan : Plan) (partners : Partners) (acts : List Act) : Move → Course
  | .send request attempt =>
    plan.follow partners (acts ++ [.send request])
      (plan.received attempt (partners.reply acts request))
  | .resolve failed _ =>
    plan.follow partners (acts ++ [.ask (.resolve failed)])
      (plan.resolved (partners.token acts (.resolve failed)))
  | .finish result => ⟨acts, result⟩
termination_by move => move.left
decreasing_by
  · exact plan.left_received request attempt _
  · exact plan.left_resolved ..

def call (plan : Plan) (partners : Partners) : Course :=
  plan.follow partners [.ask .current] (plan.start (partners.token [] .current))

end Plan

section Observed

variable [Url.Idna]

/-- What is observed of a call from a move on. -/
def Plan.uttered (plan : Plan) (partners : Partners) (acts : List Act) : Move → List Observation
  | .send request attempt =>
    (Move.send request attempt).observed ++
      plan.uttered partners (acts ++ [.send request])
        (plan.received attempt (partners.reply acts request))
  | .resolve failed code =>
    (Move.resolve failed code).observed ++
      plan.uttered partners (acts ++ [.ask (.resolve failed)])
        (plan.resolved (partners.token acts (.resolve failed)))
  | .finish result => (Move.finish result).observed
termination_by move => move.left
decreasing_by
  · exact plan.left_received request attempt _
  · exact plan.left_resolved ..

/-- What is observed of a call behind its beginning. -/
def Plan.utters (plan : Plan) (partners : Partners) : List Observation :=
  plan.uttered partners [.ask .current] (plan.start (partners.token [] .current))

def Plan.heard (plan : Plan) (partners : Partners) : List Observation :=
  began ++ plan.utters partners

end Observed

namespace Issuer.Codes

/-- A reply by which the issuer refuses a credential. -/
structure Refuses (codes : Codes) (reply : Http.Reply) (status : Status) : Prop where
  success : 200 ≤ reply.status ∧ reply.status < 300
  decoded : Json.decode Status.reader reply.body = .ok status
  other : status.errcode ≠ codes.ok
  expiry : status.errcode ∈ codes.expired

/-- The result of a call for which no more is done than what this reply decides. -/
structure Decides (codes : Codes) (reply : Http.Reply) (result : Except Error Http.Reply) :
    Prop where
  done : result = .ok reply ↔ (200 ≤ reply.status ∧ reply.status < 300) ∧
    ∃ status, Json.decode Status.reader reply.body = .ok status ∧ status.errcode = codes.ok
  failed : result = .error (.httpStatus reply.status) ↔
    ¬(200 ≤ reply.status ∧ reply.status < 300)
  malformed : ∀ fault, result = .error (.decode fault reply.status) ↔
    (200 ≤ reply.status ∧ reply.status < 300) ∧
      Json.decode Status.reader reply.body = .error fault
  issuer : ∀ code message, result = .error (.issuer code message) ↔
    (200 ≤ reply.status ∧ reply.status < 300) ∧
      Json.decode Status.reader reply.body = .ok ⟨code, message⟩ ∧ code ≠ codes.ok

/-- A reply of success in every respect: its HTTP status and the code in its body. -/
structure Accepts (codes : Codes) (reply : Http.Reply) : Prop where
  success : 200 ≤ reply.status ∧ reply.status < 300
  told : ∃ status, Json.decode Status.reader reply.body = .ok status ∧ status.errcode = codes.ok

theorem Decides.eq_ok_iff {codes : Codes} {reply : Http.Reply} {result : Except Error Http.Reply}
    (decides : codes.Decides reply result) (own : Http.Reply) :
    result = .ok own ↔ own = reply ∧ codes.Accepts reply := by
  constructor
  · rintro rfl
    have success : 200 ≤ reply.status ∧ reply.status < 300 := by
      refine Decidable.byContradiction fun failure => ?_
      cases decides.failed.mpr failure
    have accepts : codes.Accepts reply := by
      refine ⟨success, ?_⟩
      cases decoded : Json.decode Status.reader reply.body with
      | error fault => cases (decides.malformed fault).mpr ⟨success, decoded⟩
      | ok status =>
          refine ⟨status, rfl, ?_⟩
          refine Decidable.byContradiction fun other => ?_
          cases (decides.issuer status.errcode status.errmsg).mpr ⟨success, decoded, other⟩
    exact ⟨Except.ok.inj (decides.done.mpr ⟨success, accepts.told⟩), accepts⟩
  · rintro ⟨rfl, success, told⟩
    exact decides.done.mpr ⟨success, told⟩

/-- The ways to read a reply, the status before the body and success before expiry. -/
inductive Reads (codes : Codes) (reply : Http.Reply) : Except Error Verdict → Prop where
  | failed (failure : ¬(200 ≤ reply.status ∧ reply.status < 300)) :
      Reads codes reply (.error (.httpStatus reply.status))
  | malformed (success : 200 ≤ reply.status ∧ reply.status < 300) (fault : Json.Fault)
      (decoded : Json.decode Status.reader reply.body = .error fault) :
      Reads codes reply (.error (.decode fault reply.status))
  | done (success : 200 ≤ reply.status ∧ reply.status < 300) (status : Status)
      (decoded : Json.decode Status.reader reply.body = .ok status)
      (accepted : status.errcode = codes.ok) : Reads codes reply (.ok (.done reply))
  | expired (status : Status) (refuses : codes.Refuses reply status) :
      Reads codes reply (.ok (.expired status))
  | terminal (success : 200 ≤ reply.status ∧ reply.status < 300) (status : Status)
      (decoded : Json.decode Status.reader reply.body = .ok status)
      (other : status.errcode ≠ codes.ok) (lasting : status.errcode ∉ codes.expired) :
      Reads codes reply (.error status.toError)

end Issuer.Codes

/-- How a call ends that does not go on after a reply. -/
def Verdict.result : Verdict → Except Error Http.Reply
  | .done reply => .ok reply
  | .expired status => .error status.toError

namespace Plan

theorem reads [Url.Idna] (plan : Plan) (reply : Http.Reply) :
    plan.codes.Reads reply (plan.inspect reply) := by
  by_cases success : 200 ≤ reply.status ∧ reply.status < 300
  · have ok : reply.requireSuccess = .ok () := by
      simp [Http.Reply.requireSuccess, Http.Reply.isSuccess, success]
    cases decoded : Json.decode Issuer.Status.reader reply.body with
    | error fault =>
        have read : plan.inspect reply = .error (.decode fault reply.status) := by
          simp only [inspect, ok, Http.Reply.decode, decoded]
          rfl
        exact read ▸ .malformed success fault decoded
    | ok status =>
        have envelope : reply.decode Issuer.Status.reader = .ok status := by
          rw [Http.Reply.decode, decoded]
          rfl
        by_cases accepted : status.errcode = plan.codes.ok
        · have read : plan.inspect reply = .ok (.done reply) := by
            have known : plan.codes.classify status.errcode = .ok := by
              simp [Issuer.Codes.classify, accepted]
            simp [inspect, ok, envelope, known, bind, Except.bind, pure, Except.pure]
          exact read ▸ .done success status decoded accepted
        · by_cases expiry : status.errcode ∈ plan.codes.expired
          · have read : plan.inspect reply = .ok (.expired status) := by
              have known : plan.codes.classify status.errcode = .expired := by
                simp [Issuer.Codes.classify, accepted, expiry]
              simp [inspect, ok, envelope, known, bind, Except.bind, pure, Except.pure]
            exact read ▸ .expired status ⟨success, decoded, accepted, expiry⟩
          · have read : plan.inspect reply = .error status.toError := by
              have known : plan.codes.classify status.errcode = .terminal := by
                simp [Issuer.Codes.classify, accepted, expiry]
              simp [inspect, ok, envelope, known, bind, Except.bind]
            exact read ▸ .terminal success status decoded accepted expiry
  · have failed : reply.requireSuccess = .error (.httpStatus reply.status) := by
      simpa [Http.Reply.requireSuccess, Http.Reply.isSuccess] using success
    have read : plan.inspect reply = .error (.httpStatus reply.status) := by
      simp [inspect, failed, bind, Except.bind]
    exact read ▸ .failed success

end Plan

theorem Issuer.Status.parts_iff {status : Issuer.Status} {ok : Int} (other : status.errcode ≠ ok)
    (code : Int) (message : String) :
    status.errcode = code ∧ status.errmsg = message ↔ status = ⟨code, message⟩ ∧ ¬code = ok := by
  constructor
  · rintro ⟨rfl, rfl⟩
    exact ⟨rfl, other⟩
  · rintro ⟨rfl, _⟩
    exact ⟨rfl, rfl⟩

theorem Issuer.Codes.Reads.decides {codes : Issuer.Codes} {reply : Http.Reply}
    {read : Except Error Verdict} (reads : codes.Reads reply read) :
    codes.Decides reply (read.bind Verdict.result) := by
  cases reads with
  | failed failure => constructor <;> simp [Except.bind, failure]
  | malformed success fault decoded => constructor <;> simp [Except.bind, success, decoded]
  | done success status decoded accepted =>
      have other : ∀ code message, status = ⟨code, message⟩ → code = codes.ok := by
        rintro code message rfl
        exact accepted
      constructor
      case issuer => simpa [Except.bind, Verdict.result, success, decoded] using other
      all_goals simp [Except.bind, Verdict.result, success, decoded, accepted]
  | expired status refuses =>
      obtain ⟨success, decoded, other, expiry⟩ := refuses
      constructor <;> simp [Except.bind, Verdict.result, Issuer.Status.toError, success, decoded,
        other, Issuer.Status.parts_iff other]
  | terminal success status decoded other lasting =>
      constructor <;> simp [Except.bind, Issuer.Status.toError, success, decoded, other,
        Issuer.Status.parts_iff other]

theorem Issuer.Codes.Reads.of_refuses {codes : Issuer.Codes} {reply : Http.Reply}
    {read : Except Error Verdict} {status : Issuer.Status} (reads : codes.Reads reply read)
    (refuses : codes.Refuses reply status) : read = .ok (.expired status) := by
  cases reads with
  | failed failure => exact absurd refuses.success failure
  | malformed success fault decoded => cases decoded.symm.trans refuses.decoded
  | done success other decoded accepted =>
      cases decoded.symm.trans refuses.decoded
      exact absurd accepted refuses.other
  | expired other refused =>
      cases refused.decoded.symm.trans refuses.decoded
      rfl
  | terminal success other decoded _ lasting =>
      cases decoded.symm.trans refuses.decoded
      exact absurd refuses.expiry lasting

namespace Plan

variable [Url.Idna]

/-- The call sends its first request, made with this credential. -/
structure Sends (plan : Plan) (partners : Partners) (c : Credential) (request : Http.Request) :
    Prop where
  current : partners.token [] .current = .ok c
  built : plan.request c.value = .ok request
  made : plan.Makes c.value request

/-- The issuer refuses the credential that the first request carries. -/
structure Refused (plan : Plan) (partners : Partners) (c : Credential) (request : Http.Request) :
    Prop where
  sends : plan.Sends partners c request
  refuses : ∃ reply status, partners.reply [.ask .current] request = .ok reply ∧
    plan.codes.Refuses reply status

/-- The call sends its second request, made with another credential. -/
structure Resends (plan : Plan) (partners : Partners) (c d : Credential)
    (first second : Http.Request) : Prop where
  refused : plan.Refused partners c first
  resolved : partners.token [.ask .current, .send first] (.resolve c.value) = .ok d
  built : plan.request d.value = .ok second
  made : plan.Makes d.value second

/-- The ways of a call. -/
inductive Ways (plan : Plan) (partners : Partners) : Course → Prop where
  | unavailable (error : Error) (current : partners.token [] .current = .error error) :
      Ways plan partners ⟨[.ask .current], .error error⟩
  | unbuilt (c : Credential) (error : Error) (current : partners.token [] .current = .ok c)
      (unbuilt : plan.request c.value = .error error) :
      Ways plan partners ⟨[.ask .current], .error error⟩
  | lost (c : Credential) (first : Http.Request) (error : Error)
      (sends : plan.Sends partners c first)
      (lost : partners.reply [.ask .current] first = .error error) :
      Ways plan partners ⟨[.ask .current, .send first], .error error⟩
  | decided (c : Credential) (first : Http.Request) (reply : Http.Reply)
      (result : Except Error Http.Reply) (sends : plan.Sends partners c first)
      (replied : partners.reply [.ask .current] first = .ok reply)
      (accepted : ∀ status, ¬plan.codes.Refuses reply status)
      (decides : plan.codes.Decides reply result) :
      Ways plan partners ⟨[.ask .current, .send first], result⟩
  | unresolved (c : Credential) (first : Http.Request) (error : Error)
      (refused : plan.Refused partners c first)
      (unresolved :
        partners.token [.ask .current, .send first] (.resolve c.value) = .error error) :
      Ways plan partners
        ⟨[.ask .current, .send first, .ask (.resolve c.value)], .error error⟩
  | unbuiltAgain (c d : Credential) (first : Http.Request) (error : Error)
      (refused : plan.Refused partners c first)
      (resolved : partners.token [.ask .current, .send first] (.resolve c.value) = .ok d)
      (unbuilt : plan.request d.value = .error error) :
      Ways plan partners
        ⟨[.ask .current, .send first, .ask (.resolve c.value)], .error error⟩
  | lostAgain (c d : Credential) (first second : Http.Request) (error : Error)
      (resends : plan.Resends partners c d first second)
      (lost : partners.reply [.ask .current, .send first, .ask (.resolve c.value)] second =
        .error error) :
      Ways plan partners
        ⟨[.ask .current, .send first, .ask (.resolve c.value), .send second], .error error⟩
  | decidedAgain (c d : Credential) (first second : Http.Request) (reply : Http.Reply)
      (result : Except Error Http.Reply) (resends : plan.Resends partners c d first second)
      (replied : partners.reply [.ask .current, .send first, .ask (.resolve c.value)] second =
        .ok reply)
      (decides : plan.codes.Decides reply result) :
      Ways plan partners
        ⟨[.ask .current, .send first, .ask (.resolve c.value), .send second], result⟩

/-- A reply to the first request either refuses its credential or decides the call. -/
theorem received_first (plan : Plan) (value : String) (reply : Http.Reply) :
    (∃ status, plan.codes.Refuses reply status ∧
        plan.received (.first value) (.ok reply) = .resolve value status.errcode) ∨
      (∀ status, ¬plan.codes.Refuses reply status) ∧
        ∃ result, plan.codes.Decides reply result ∧
          plan.received (.first value) (.ok reply) = .finish result := by
  have reads := plan.reads reply
  have decides := reads.decides
  cases read : plan.inspect reply with
  | error error =>
      rw [read] at reads decides
      refine .inr ⟨fun status refuses => ?_, _, decides, ?_⟩
      · cases reads.of_refuses refuses
      · simp [received, Except.bind, read]
  | ok verdict =>
      rw [read] at reads decides
      cases verdict with
      | done accepted =>
          refine .inr ⟨fun status refuses => ?_, _, decides, ?_⟩
          · cases reads.of_refuses refuses
          · simp [received, Except.bind, read, Verdict.result]
      | expired status =>
          cases reads with
          | expired _ refuses => exact .inl ⟨status, refuses, by simp [received, Except.bind, read]⟩

/-- A reply to the second request decides the call. -/
theorem received_second (plan : Plan) (value : String) (reply : Http.Reply) :
    ∃ result, plan.codes.Decides reply result ∧
      plan.received (.second value) (.ok reply) = .finish result := by
  refine ⟨_, (plan.reads reply).decides, ?_⟩
  cases read : plan.inspect reply with
  | error error => simp [received, Except.bind, read]
  | ok verdict => cases verdict <;> simp [received, Except.bind, read, Verdict.result]

theorem follow_attempt (plan : Plan) (partners : Partners) (acts : List Act) (attempt : Attempt) :
    plan.follow partners acts (plan.attempt attempt) =
      match plan.request attempt.value with
      | .error error => ⟨acts, .error error⟩
      | .ok request =>
        plan.follow partners (acts ++ [.send request])
          (plan.received attempt (partners.reply acts request)) := by
  rw [Plan.attempt]
  cases plan.request attempt.value <;> simp only [follow]

theorem received_error (plan : Plan) (attempt : Attempt) (error : Error) :
    plan.received attempt (.error error) = .finish (.error error) := rfl

theorem ways_refused {plan : Plan} {partners : Partners} {c : Credential} {first : Http.Request}
    (refused : plan.Refused partners c first) (code : Int) :
    plan.Ways partners
      (plan.follow partners [.ask .current, .send first] (.resolve c.value code)) := by
  rw [follow]
  cases resolved : partners.token [.ask .current, .send first] (.resolve c.value) with
  | error error =>
      simp only [Plan.resolved, follow]
      exact .unresolved c first error refused resolved
  | ok d =>
      simp only [Plan.resolved, follow_attempt, Attempt.value]
      cases built : plan.request d.value with
      | error error => exact .unbuiltAgain c d first error refused resolved built
      | ok second =>
          have resends : plan.Resends partners c d first second :=
            ⟨refused, resolved, built, makes_of_request built⟩
          simp only [List.cons_append, List.nil_append]
          cases replied :
            partners.reply [.ask .current, .send first, .ask (.resolve c.value)] second with
          | error error =>
              simp only [received_error, follow]
              exact .lostAgain c d first second error resends replied
          | ok reply =>
              obtain ⟨result, decides, received⟩ := plan.received_second d.value reply
              simp only [received, follow]
              exact .decidedAgain c d first second reply result resends replied decides

theorem ways_call (plan : Plan) (partners : Partners) :
    plan.Ways partners (plan.call partners) := by
  rw [call]
  cases current : partners.token [] .current with
  | error error =>
      simp only [start, follow]
      exact .unavailable error current
  | ok c =>
      simp only [start, follow_attempt, Attempt.value]
      cases built : plan.request c.value with
      | error error => exact .unbuilt c error current built
      | ok first =>
          have sends : plan.Sends partners c first := ⟨current, built, makes_of_request built⟩
          simp only [List.cons_append, List.nil_append]
          cases replied : partners.reply [.ask .current] first with
          | error error =>
              simp only [received_error, follow]
              exact .lost c first error sends replied
          | ok reply =>
              obtain ⟨status, refuses, received⟩ | ⟨accepted, result, decides, received⟩ :=
                plan.received_first c.value reply
              · rw [received]
                exact ways_refused ⟨sends, reply, status, replied, refuses⟩ status.errcode
              · simp only [received, follow]
                exact .decided c first reply result sends replied accepted decides

section Ways

variable {plan : Plan} {partners : Partners} {course : Course} {c d : Credential}
  {first second : Http.Request}

theorem Sends.unique (sends : plan.Sends partners c first) (also : plan.Sends partners d second) :
    d = c ∧ second = first := by
  cases sends.current.symm.trans also.current
  cases sends.built.symm.trans also.built
  exact ⟨rfl, rfl⟩

theorem Sends.iff_unique (sends : plan.Sends partners c first) (request : Http.Request) :
    (∃ c, plan.Sends partners c request) ↔ first = request := by
  constructor
  · rintro ⟨d, also⟩
    exact (sends.unique also).2.symm
  · rintro rfl
    exact ⟨c, sends⟩

/-- The first request is sent where there is a credential and the request can be built with it. -/
theorem Ways.first_iff (ways : plan.Ways partners course) (request : Http.Request) :
    course.sent[0]? = some request ↔ ∃ c, plan.Sends partners c request := by
  cases ways with
  | unavailable error current =>
      refine ⟨nofun, fun ⟨c, sends⟩ => ?_⟩
      cases current.symm.trans sends.current
  | unbuilt c error current unbuilt =>
      refine ⟨nofun, fun ⟨d, sends⟩ => ?_⟩
      cases current.symm.trans sends.current
      cases unbuilt.symm.trans sends.built
  | lost _ first _ sends | decided _ first _ _ sends =>
      rw [sends.iff_unique request]
      exact Option.some_inj
  | unresolved _ _ _ refused | unbuiltAgain _ _ _ _ refused =>
      rw [refused.sends.iff_unique request]
      exact Option.some_inj
  | lostAgain _ _ _ _ _ resends | decidedAgain _ _ _ _ _ _ resends =>
      rw [resends.refused.sends.iff_unique request]
      exact Option.some_inj

/-- The call asks for another credential where its first request was refused, and then once. -/
theorem Ways.failed_eq (ways : plan.Ways partners course) :
    (∃ c first, plan.Refused partners c first ∧ course.failed = [c.value]) ∨
      (∀ c first, ¬plan.Refused partners c first) ∧ course.failed = [] := by
  cases ways with
  | unavailable error current =>
      refine .inr ⟨fun c first refused => ?_, rfl⟩
      cases current.symm.trans refused.sends.current
  | unbuilt c error current unbuilt =>
      refine .inr ⟨fun d first refused => ?_, rfl⟩
      cases current.symm.trans refused.sends.current
      cases unbuilt.symm.trans refused.sends.built
  | lost c first error sends lost =>
      refine .inr ⟨fun d other refused => ?_, rfl⟩
      obtain ⟨rfl, rfl⟩ := sends.unique refused.sends
      obtain ⟨reply, status, replied, _⟩ := refused.refuses
      cases lost.symm.trans replied
  | decided c first reply result sends replied accepted decides =>
      refine .inr ⟨fun d other refused => ?_, rfl⟩
      obtain ⟨rfl, rfl⟩ := sends.unique refused.sends
      obtain ⟨other, status, also, refuses⟩ := refused.refuses
      cases replied.symm.trans also
      exact accepted status refuses
  | unresolved c first _ refused | unbuiltAgain c _ first _ refused =>
      exact .inl ⟨c, first, refused, rfl⟩
  | lostAgain c _ first _ _ resends | decidedAgain c _ first _ _ _ resends =>
      exact .inl ⟨c, first, resends.refused, rfl⟩

theorem Resends.iff_unique (resends : plan.Resends partners c d first second)
    (request : Http.Request) :
    (∃ c d first, plan.Resends partners c d first request) ↔ second = request := by
  constructor
  · rintro ⟨other, e, request, also⟩
    obtain ⟨rfl, rfl⟩ := resends.refused.sends.unique also.refused.sends
    cases resends.resolved.symm.trans also.resolved
    exact Except.ok.inj (resends.built.symm.trans also.built)
  · rintro rfl
    exact ⟨c, d, first, resends⟩

/-- The second request is sent where the first was refused, another credential was there, and the
request could be built with it. -/
theorem Ways.second_iff (ways : plan.Ways partners course) (request : Http.Request) :
    course.sent[1]? = some request ↔ ∃ c d first, plan.Resends partners c d first request := by
  have asked := ways.failed_eq
  cases ways with
  | unavailable | unbuilt | lost | decided =>
      obtain ⟨_, _, _, failed⟩ | ⟨never, _⟩ := asked
      · cases failed
      · exact ⟨nofun, fun ⟨c, _, first, resends⟩ => absurd resends.refused (never c first)⟩
  | unresolved c first error refused unresolved =>
      refine ⟨nofun, fun ⟨d, e, other, resends⟩ => ?_⟩
      obtain ⟨rfl, rfl⟩ := refused.sends.unique resends.refused.sends
      cases unresolved.symm.trans resends.resolved
  | unbuiltAgain c d first error refused resolved unbuilt =>
      refine ⟨nofun, fun ⟨other, e, request, resends⟩ => ?_⟩
      obtain ⟨rfl, rfl⟩ := refused.sends.unique resends.refused.sends
      cases resolved.symm.trans resends.resolved
      cases unbuilt.symm.trans resends.built
  | lostAgain _ _ _ _ _ resends | decidedAgain _ _ _ _ _ _ resends =>
      rw [resends.iff_unique request]
      exact Option.some_inj

/-- A call that has a credential and sends nothing can make no request with it. -/
theorem Ways.fails_of_unsent (ways : plan.Ways partners course)
    (current : partners.token [] .current = .ok c) (nothing : course.sent = []) :
    ∃ error, plan.Fails c.value error ∧ course.result = .error error := by
  cases ways with
  | unavailable error absent => cases current.symm.trans absent
  | unbuilt d error held unbuilt =>
      cases current.symm.trans held
      exact ⟨error, fails_of_request unbuilt, rfl⟩
  | lost | decided | unresolved | unbuiltAgain | lostAgain | decidedAgain => cases nothing

end Ways

/-- How the answer to what the call has done last decides its result. -/
def Concludes (plan : Plan) (partners : Partners) (earlier : List Act) (last : Act)
    (result : Except Error Http.Reply) : Prop :=
  match last with
  | .ask call =>
    match partners.token earlier call with
    | .error error => result = .error error
    | .ok c => ∃ error, plan.request c.value = .error error ∧ plan.Fails c.value error ∧
        result = .error error
  | .send request =>
    match partners.reply earlier request with
    | .error error => result = .error error
    | .ok reply => plan.codes.Decides reply result

theorem Ways.concludes {plan : Plan} {partners : Partners} {course : Course}
    (ways : plan.Ways partners course) :
    ∃ earlier last, course.acts = earlier ++ [last] ∧
      plan.Concludes partners earlier last course.result := by
  cases ways with
  | unavailable error current => exact ⟨[], .ask .current, rfl, by simp [Concludes, current]⟩
  | unbuilt c error current unbuilt =>
      exact ⟨[], .ask .current, rfl, by
        simp [Concludes, current, unbuilt, fails_of_request unbuilt]⟩
  | lost c first error sends lost =>
      exact ⟨[.ask .current], .send first, rfl, by simp [Concludes, lost]⟩
  | decided c first reply result sends replied accepted decides =>
      exact ⟨[.ask .current], .send first, rfl, by simpa [Concludes, replied] using decides⟩
  | unresolved c first error refused unresolved =>
      exact ⟨[.ask .current, .send first], .ask (.resolve c.value), rfl,
        by simp [Concludes, unresolved]⟩
  | unbuiltAgain c d first error refused resolved unbuilt =>
      exact ⟨[.ask .current, .send first], .ask (.resolve c.value), rfl,
        by simp [Concludes, resolved, unbuilt, fails_of_request unbuilt]⟩
  | lostAgain c d first second error resends lost =>
      exact ⟨[.ask .current, .send first, .ask (.resolve c.value)], .send second, rfl,
        by simp [Concludes, lost]⟩
  | decidedAgain c d first second reply result resends replied decides =>
      exact ⟨[.ask .current, .send first, .ask (.resolve c.value)], .send second, rfl,
        by simpa [Concludes, replied] using decides⟩

/-- The current credential is asked for first and once, a refresh never, and there are at most two
requests. -/
theorem Ways.bounded {plan : Plan} {partners : Partners} {course : Course}
    (ways : plan.Ways partners course) :
    course.acts.head? = some (.ask .current) ∧ course.acts.count (.ask .current) = 1 ∧
      .ask .refresh ∉ course.acts ∧ course.sent.length ≤ 2 := by
  cases ways <;> simp [Course.sent, List.filterMap_cons, Act.request?]

/-- A call gives back the reply to the last request that it has sent, if that reply is a success. -/
theorem call_eq_ok_iff (plan : Plan) (partners : Partners) (reply : Http.Reply) :
    (plan.call partners).result = .ok reply ↔ ∃ earlier request,
      (plan.call partners).acts = earlier ++ [.send request] ∧
        partners.reply earlier request = .ok reply ∧ plan.codes.Accepts reply := by
  obtain ⟨earlier, last, acts, concludes⟩ := (plan.ways_call partners).concludes
  rw [acts]
  constructor
  · intro done
    cases last with
    | ask call =>
        simp only [Concludes, done] at concludes
        split at concludes
        · cases concludes
        · obtain ⟨_, _, _, ⟨⟩⟩ := concludes
    | send request =>
        refine ⟨earlier, request, rfl, ?_⟩
        simp only [Concludes] at concludes
        split at concludes
        · cases done.symm.trans concludes
        · next own replied =>
            obtain ⟨rfl, accepts⟩ := (concludes.eq_ok_iff reply).mp done
            exact ⟨replied, accepts⟩
  · rintro ⟨own, request, same, replied, accepts⟩
    obtain ⟨rfl, ⟨⟩⟩ := List.append_inj' same rfl
    simp only [Concludes, replied] at concludes
    exact (concludes.eq_ok_iff reply).mpr ⟨rfl, accepts⟩

/-- Behind a refused first request only the reply to the second can be a success. -/
theorem resends_of_refused {plan : Plan} {partners : Partners} {c : Credential}
    {first : Http.Request} {reply : Http.Reply} (refused : plan.Refused partners c first)
    (done : (plan.call partners).result = .ok reply) :
    ∃ d second, plan.Resends partners c d first second ∧
      (plan.call partners).acts =
        [.ask .current, .send first, .ask (.resolve c.value), .send second] ∧
      partners.reply [.ask .current, .send first, .ask (.resolve c.value)] second = .ok reply := by
  have ways := plan.ways_call partners
  generalize plan.call partners = course at done ways ⊢
  cases ways with
  | unavailable | unbuilt | lost | unresolved | unbuiltAgain | lostAgain => cases done
  | decided d request own result sends replied accepted decides =>
      obtain ⟨rfl, rfl⟩ := sends.unique refused.sends
      obtain ⟨other, status, also, refuses⟩ := refused.refuses
      cases replied.symm.trans also
      exact absurd refuses (accepted status)
  | decidedAgain b d request second own result resends replied decides =>
      obtain ⟨rfl, rfl⟩ := resends.refused.sends.unique refused.sends
      obtain ⟨rfl, -⟩ := (decides.eq_ok_iff reply).mp done
      exact ⟨d, second, resends, rfl, replied⟩

/-- Whatever the token service and the transport answer, a call asks for the current credential
once and first, sends a first request where that can be built, and a second one exactly where the
issuer refuses the credential of the first, the token service has another for it, and the request
can be built with that. Either is the plan's own request with that credential in the slot of its
template. Nothing else is done, and the last answer decides the result. -/
theorem one_coordinated_retry (plan : Plan) (partners : Partners) :
    let course := plan.call partners
    (course.acts.head? = some (.ask .current) ∧ course.acts.count (.ask .current) = 1 ∧
        .ask .refresh ∉ course.acts ∧ course.sent.length ≤ 2) ∧
      (∀ error, partners.token [] .current = .error error →
        course = ⟨[.ask .current], .error error⟩) ∧
      (∀ first, course.sent[0]? = some first ↔ ∃ c, plan.Sends partners c first) ∧
      (∀ second, course.sent[1]? = some second ↔
        ∃ c d first, plan.Resends partners c d first second) ∧
      ((∃ c first, plan.Refused partners c first ∧ course.failed = [c.value]) ∨
        (∀ c first, ¬plan.Refused partners c first) ∧ course.failed = []) ∧
      ∃ earlier last, course.acts = earlier ++ [last] ∧
        plan.Concludes partners earlier last course.result := by
  intro course
  have ways : plan.Ways partners course := plan.ways_call partners
  refine ⟨ways.bounded, ?_, ways.first_iff, ways.second_iff, ways.failed_eq, ways.concludes⟩
  intro error unavailable
  simp [course, call, unavailable, start, follow]

end Plan

open Url.PlainNames in
/-- A call whose credential is refused and that is answered with another one. -/
theorem Plan.retry_of_refused_call :
    let plan : Plan := ⟨"GET", ⟨"https://a/menu?t=", by decide, by decide +kernel⟩, none, .default⟩
    let menu : Http.Reply := ⟨200, Text.utf8 "\x7b\x7d"⟩
    let partners : Partners :=
      ⟨fun acts _ => .ok (Broker.sample (if acts = [] then "old" else "new")),
        fun acts _ => .ok
          (if acts.length = 1 then ⟨200, Text.utf8 "\x7b\"errcode\":40001\x7d"⟩ else menu)⟩
    let first : Http.Request := ⟨"GET", "https://a/menu?t=old", none, []⟩
    let second : Http.Request := ⟨"GET", "https://a/menu?t=new", none, []⟩
    plan.call partners =
        ⟨[.ask .current, .send first, .ask (.resolve "old"), .send second], .ok menu⟩ ∧
      ∃ c d, plan.Resends partners c d first second ∧ plan.Makes "old" first ∧
        plan.Makes "new" second := by
  intro plan menu partners first second
  have called : plan.call partners =
      ⟨[.ask .current, .send first, .ask (.resolve "old"), .send second], .ok menu⟩ := by
    simp only [plan, menu, partners, first, second]
    cbv
  obtain ⟨-, -, sent, sentAgain, -⟩ := plan.one_coordinated_retry partners
  obtain ⟨c, sends⟩ := (sent first).mp (by rw [called]; rfl)
  obtain ⟨own, d, request, resends⟩ := (sentAgain second).mp (by rw [called]; rfl)
  obtain ⟨rfl, rfl⟩ := sends.unique resends.refused.sends
  have old := sends.made
  have new := resends.made
  cases sends.current
  cases resends.resolved
  exact ⟨called, _, _, resends, old, new⟩

end Bearer

import Mathlib
import Bearer.Proofs.Broker.Accounting
import Bearer.Proofs.Client.Crowd
import Bearer.Proofs.Url.Form
import Bearer.Source.Ticket

/-!
What errors and observations tell of a credential. Two calls that are answered alike, but for the
values that the token service hands out, make the same moves as long as requests can be built. A
template has its slot at the end of the text, wherever in the URL that is, so a value may complete
it to a text that is no URL. The error then shows that text, with the value in it.
-/
namespace Bearer

/-- What a caller tells errors apart by. -/
inductive Error.Kind where
  | clientBuild
  | requestTarget
  | requestBody
  | invalidUrl
  | invalidTemplate
  | network
  | timeout
  | io
  | issuer
  | httpStatus
  | decode
  | invalidExpiry
  | unavailable
  deriving DecidableEq

def Error.kind : Error → Kind
  | .clientBuild _ => .clientBuild
  | .requestTarget _ => .requestTarget
  | .requestBody => .requestBody
  | .invalidUrl _ _ => .invalidUrl
  | .invalidTemplate _ => .invalidTemplate
  | .network _ => .network
  | .timeout _ => .timeout
  | .io _ => .io
  | .issuer _ _ => .issuer
  | .httpStatus _ => .httpStatus
  | .decode _ _ => .decode
  | .invalidExpiry _ => .invalidExpiry
  | .unavailable _ => .unavailable

theorem Error.message_requestTarget_iff (fault other : Http.TargetFault) :
    (Error.requestTarget fault).message = (Error.requestTarget other).message ↔ fault = other := by
  have text : ∀ fault, (Error.requestTarget fault).message = fault.message := fun _ => rfl
  rw [text, text]
  cases fault <;> cases other <;> simp [Http.TargetFault.message]

/-- Two answers of a token service that differ in the credential at most. -/
inductive Handed : Except Error Credential → Except Error Credential → Prop where
  | refused (error : Error) : Handed (.error error) (.error error)
  | handed (c d : Credential) : Handed (.ok c) (.ok d)

/-- Partners that answer alike, position by position. The one token service may hand out other
credentials than the other. -/
structure Partners.Alike (p q : Partners) : Prop where
  current : Handed (p.token [] .current) (q.token [] .current)
  resolve : ∀ {acts others : List Act}, acts.length = others.length → ∀ v w,
    Handed (p.token acts (.resolve v)) (q.token others (.resolve w))
  reply : ∀ {acts others : List Act}, acts.length = others.length → ∀ request other,
    p.reply acts request = q.reply others other

/-- A token service with one credential, and an issuer with one answer. -/
def Partners.constant (value : String) (reply : Http.Reply) : Partners :=
  ⟨fun _ _ => .ok (Broker.sample value), fun _ _ => .ok reply⟩

theorem alike_constant (v w : String) (reply : Http.Reply) :
    (Partners.constant v reply).Alike (.constant w reply) :=
  ⟨.handed _ _, fun _ _ _ => .handed _ _, fun _ _ _ => rfl⟩

def Attempt.number : Attempt → Nat
  | .first _ => 1
  | .second _ => 2

section Calls

variable [Url.Idna]

namespace Plan

/-- A call ends because no request can be built with the value that it was handed. -/
inductive Unbuilt (plan : Plan) (partners : Partners) : Attempt → Error → Prop where
  | first (c : Credential) (error : Error) (current : partners.token [] .current = .ok c)
      (unbuilt : plan.request c.value = .error error) : Unbuilt plan partners (.first c.value) error
  | second (c d : Credential) (first : Http.Request) (error : Error)
      (refused : plan.Refused partners c first)
      (resolved : partners.token [.ask .current, .send first] (.resolve c.value) = .ok d)
      (unbuilt : plan.request d.value = .error error) :
      Unbuilt plan partners (.second d.value) error

/-- How a call ends and what is observed of it, from a move on. -/
def seen (plan : Plan) (partners : Partners) (acts : List Act) (move : Move) :
    Except Error Http.Reply × List Observation :=
  ((plan.follow partners acts move).result, plan.uttered partners acts move)

section Seen

variable {plan : Plan} {partners p q : Partners} {acts others : List Act} {v w : String}

theorem seen_finish (result : Except Error Http.Reply) :
    plan.seen partners acts (.finish result) = (result, [.counted .call (.of result)]) := by
  simp only [seen, follow, uttered, Move.observed]

theorem seen_unbuilt (attempt : Attempt) {error : Error}
    (unbuilt : plan.request attempt.value = .error error) :
    plan.seen partners acts (plan.attempt attempt) =
      (.error error, [.counted .call .failure]) := by
  rw [Plan.attempt, unbuilt]
  exact seen_finish _

theorem seen_built (attempt : Attempt) {request : Http.Request}
    (built : plan.request attempt.value = .ok request) :
    plan.seen partners acts (plan.attempt attempt) =
      plan.seen partners (acts ++ [.send request])
        (plan.received attempt (partners.reply acts request)) := by
  rw [Plan.attempt, built]
  simp only [seen, follow, uttered, Move.observed, List.nil_append]

theorem seen_resolve (code : Int) :
    plan.seen partners acts (.resolve v code) =
      let rest := plan.seen partners (acts ++ [.ask (.resolve v)])
        (plan.resolved (partners.token acts (.resolve v)))
      (rest.1, .emitted (.expiryRetry code) (some .call) :: rest.2) := by
  simp only [seen, follow, uttered, Move.observed, List.singleton_append]

/-- After the second request nothing depends on the credential any more. -/
theorem seen_second (alike : p.Alike q) (same : acts.length = others.length)
    {request other : Http.Request} (built : plan.request v = .ok request)
    (rebuilt : plan.request w = .ok other) :
    plan.seen p acts (plan.attempt (.second v)) =
      plan.seen q others (plan.attempt (.second w)) := by
  rw [seen_built (.second v) built, seen_built (.second w) rebuilt,
    alike.reply same request other]
  simp only [received]
  split <;> simp only [seen_finish]

theorem seen_resolved (alike : p.Alike q) (same : acts.length = others.length) (code : Int)
    (built : ∀ d, p.token acts (.resolve v) = .ok d → ∃ request, plan.request d.value = .ok request)
    (rebuilt : ∀ d, q.token others (.resolve w) = .ok d →
      ∃ request, plan.request d.value = .ok request) :
    plan.seen p acts (.resolve v code) = plan.seen q others (.resolve w code) := by
  have next : (acts ++ [Act.ask (.resolve v)]).length = (others ++ [Act.ask (.resolve w)]).length := by
    simp [same]
  rw [seen_resolve, seen_resolve]
  have handed := alike.resolve same v w
  generalize answer : p.token acts (.resolve v) = x at handed built ⊢
  generalize response : q.token others (.resolve w) = y at handed rebuilt ⊢
  cases handed with
  | refused error => simp only [resolved, seen_finish]
  | handed c d =>
      obtain ⟨request, fits⟩ := built c rfl
      obtain ⟨other, fitsToo⟩ := rebuilt d rfl
      simp only [resolved, seen_second alike next fits fitsToo]

/-- The first request of a call is refused where its reply is read so. -/
theorem refused_of_expired {c : Credential} {first : Http.Request} {status : Issuer.Status}
    (sends : plan.Sends partners c first)
    (expired : (partners.reply [.ask .current] first).bind plan.inspect = .ok (.expired status)) :
    plan.Refused partners c first := by
  cases replied : partners.reply [.ask .current] first with
  | error error =>
      rw [replied] at expired
      cases expired
  | ok reply =>
      rw [replied] at expired
      have reads := plan.reads reply
      rw [show plan.inspect reply = .ok (.expired status) from expired] at reads
      cases reads with
      | expired _ refuses => exact ⟨sends, reply, status, replied, refuses⟩

theorem built_second (built : ∀ attempt error, ¬plan.Unbuilt partners attempt error)
    {c d : Credential} {first : Http.Request} (refused : plan.Refused partners c first)
    (resolved : partners.token [.ask .current, .send first] (.resolve c.value) = .ok d) :
    ∃ request, plan.request d.value = .ok request := by
  cases answer : plan.request d.value with
  | ok request => exact ⟨request, rfl⟩
  | error error => exact absurd (.second c d first error refused resolved answer) (built _ _)

/-- From their first requests on, calls whose requests can be built look the same. -/
theorem seen_first (alike : p.Alike q) (built : ∀ attempt error, ¬plan.Unbuilt p attempt error)
    (rebuilt : ∀ attempt error, ¬plan.Unbuilt q attempt error) {c d : Credential}
    {first other : Http.Request} (sends : plan.Sends p c first) (sendsToo : plan.Sends q d other) :
    plan.seen p [.ask .current] (plan.attempt (.first c.value)) =
      plan.seen q [.ask .current] (plan.attempt (.first d.value)) := by
  have replies : p.reply [.ask .current] first = q.reply [.ask .current] other :=
    alike.reply rfl first other
  rw [seen_built (.first c.value) sends.built, seen_built (.first d.value) sendsToo.built, replies]
  simp only [received]
  split
  · simp only [seen_finish]
  · simp only [seen_finish]
  · next status expired =>
      refine seen_resolved alike (by simp) status.errcode ?_ ?_
      · have refused := refused_of_expired sends (replies ▸ expired)
        exact fun d resolved => built_second built refused resolved
      · have refused := refused_of_expired sendsToo expired
        exact fun d resolved => built_second rebuilt refused resolved

/-- Calls whose requests can be built look the same. -/
theorem seen_alike (alike : p.Alike q) (built : ∀ attempt error, ¬plan.Unbuilt p attempt error)
    (rebuilt : ∀ attempt error, ¬plan.Unbuilt q attempt error) :
    plan.seen p [.ask .current] (plan.start (p.token [] .current)) =
      plan.seen q [.ask .current] (plan.start (q.token [] .current)) := by
  have handed := alike.current
  generalize current : p.token [] .current = x at handed ⊢
  generalize present : q.token [] .current = y at handed ⊢
  cases handed with
  | refused error => simp only [start, seen_finish]
  | handed c d =>
      cases request : plan.request c.value with
      | error error => exact absurd (.first c error current request) (built _ _)
      | ok first =>
          cases again : plan.request d.value with
          | error error => exact absurd (.first d error present again) (rebuilt _ _)
          | ok other =>
              have sends : plan.Sends p c first := ⟨current, request, makes_of_request request⟩
              have sendsToo : plan.Sends q d other := ⟨present, again, makes_of_request again⟩
              simp only [start]
              exact seen_first alike built rebuilt sends sendsToo

/-- A call that ends for want of a request shows why, and whether it was refused before. -/
theorem seen_of_unbuilt {attempt : Attempt} {error : Error}
    (unbuilt : plan.Unbuilt partners attempt error) :
    plan.Fails attempt.value error ∧
      match attempt with
      | .first _ =>
        plan.seen partners [.ask .current] (plan.start (partners.token [] .current)) =
          (.error error, [.counted .call .failure])
      | .second _ =>
        ∃ first reply status, partners.reply [.ask .current] first = .ok reply ∧
          plan.codes.Refuses reply status ∧
          plan.seen partners [.ask .current] (plan.start (partners.token [] .current)) =
            (.error error,
              [.emitted (.expiryRetry status.errcode) (some .call), .counted .call .failure]) := by
  cases unbuilt with
  | first c error current unbuilt =>
      refine ⟨fails_of_request unbuilt, ?_⟩
      simp only [current, start]
      exact seen_unbuilt (.first c.value) unbuilt
  | second c d first error refused resolved unbuilt =>
      refine ⟨fails_of_request unbuilt, ?_⟩
      obtain ⟨⟨current, built⟩, reply, status, replied, refuses⟩ := refused
      refine ⟨first, reply, status, replied, refuses, ?_⟩
      have read := (plan.reads reply).of_refuses refuses
      have again : plan.received (.first c.value) (.ok reply) = .resolve c.value status.errcode := by
        simp [received, Except.bind, read]
      have rest : plan.seen partners [.ask .current, .send first, .ask (.resolve c.value)]
          (plan.attempt (.second d.value)) = (.error error, [.counted .call .failure]) :=
        seen_unbuilt (.second d.value) unbuilt
      simp only [current, start]
      rw [seen_built (.first c.value) built]
      simp only [List.cons_append, List.nil_append, replied, again, seen_resolve, resolved,
        Plan.resolved, rest]

/-- A call that ends for want of a request has the error of that request. -/
theorem Unbuilt.told {attempt : Attempt} {cause error : Error}
    (unbuilt : plan.Unbuilt partners attempt cause)
    (ended : (plan.call partners).result = .error error) :
    cause = error ∧ plan.Fails attempt.value error := by
  obtain ⟨tells, way⟩ := seen_of_unbuilt unbuilt
  have result : (plan.call partners).result = .error cause := by
    cases attempt with
    | first v => exact congrArg Prod.fst way
    | second v =>
        obtain ⟨_, _, _, _, _, way⟩ := way
        exact congrArg Prod.fst way
  cases ended.symm.trans result
  exact ⟨rfl, tells⟩

theorem message_url (template : Template) (fault : Url.Fault) :
    (Error.invalidUrl (template.completedText v) fault).message =
      "URL `" ++ (template.text ++ String.ofList (Url.formEncode v.toList)) ++ "` is invalid." :=
  rfl

/-- The text of a URL that could not be completed tells the whole value. -/
theorem message_url_iff (template : Template) (fault other : Url.Fault) :
    (Error.invalidUrl (template.completedText v) fault).message =
      (Error.invalidUrl (template.completedText w) other).message ↔ v = w := by
  rw [message_url, message_url]
  constructor
  · intro same
    have written : String.ofList (Url.formEncode v.toList) =
        String.ofList (Url.formEncode w.toList) := by
      simpa using same
    exact String.toList_inj.mp (Url.formEncode_injective (String.ofList_inj.mp written))
  · rintro rfl
    rfl

/-- Two calls that end for want of a request look the same where they end at the same request. -/
theorem heard_unbuilt_iff (alike : p.Alike q) {a b : Attempt} {e f : Error}
    (unbuilt : plan.Unbuilt p a e) (unbuiltToo : plan.Unbuilt q b f) :
    plan.heard p = plan.heard q ↔ a.number = b.number := by
  obtain ⟨-, left⟩ := seen_of_unbuilt unbuilt
  obtain ⟨-, right⟩ := seen_of_unbuilt unbuiltToo
  simp only [seen, Prod.mk.injEq] at left right
  rw [heard, heard, utters, utters, List.append_cancel_left_eq]
  cases a with
  | first v =>
      cases b with
      | first w => simp [left.2, right.2, Attempt.number]
      | second w =>
          obtain ⟨first, reply, status, replied, refuses, ended⟩ := right
          simp [left.2, ended.2, Attempt.number]
  | second v =>
      obtain ⟨first, reply, status, replied, refuses, ended⟩ := left
      cases b with
      | first w => simp [right.2, ended.2, Attempt.number]
      | second w =>
          obtain ⟨other, answer, verdict, answered, refusesToo, endedToo⟩ := right
          have same : p.reply [.ask .current] first = q.reply [.ask .current] other :=
            alike.reply rfl first other
          cases replied.symm.trans (same.trans answered)
          cases refuses.decoded.symm.trans refusesToo.decoded
          simp [ended.2, endedToo.2, Attempt.number]

end Seen

/-- Take two calls that are answered alike, but for the credentials, and that end with errors of one
kind. Where requests could be built, the errors are the same and so is all that is observed. Where
they could not, the error tells of the credential: with a URL, it tells the value itself. A broker
over tickets reports what the error says. -/
theorem credential_shown_by_unbuilt_only (plan : Plan) (p q : Partners) (alike : p.Alike q)
    (e f : Error) (ended : (plan.call p).result = .error e)
    (endedToo : (plan.call q).result = .error f) (same : e.kind = f.kind) :
    ((∀ attempt error, ¬plan.Unbuilt p attempt error) →
      (∀ attempt error, ¬plan.Unbuilt q attempt error) →
      e = f ∧ plan.heard p = plan.heard q) ∧
    (∀ attempt error, plan.Unbuilt p attempt error → error = e ∧ plan.Fails attempt.value e) ∧
    (∀ attempt error, plan.Unbuilt q attempt error → error = f ∧ plan.Fails attempt.value f) ∧
    (∀ a x b y, plan.Unbuilt p a x → plan.Unbuilt q b y →
      (plan.heard p = plan.heard q ↔ a.number = b.number) ∧
      (∀ url fault, e = .invalidUrl url fault → (e.message = f.message ↔ a.value = b.value)) ∧
      ∀ fault, e = .requestTarget fault → (e.message = f.message ↔ e = f)) ∧
    ∀ config now,
      (Broker.reported config (Source.Ticket.receive now (plan.call p).result) =
        Broker.reported config (Source.Ticket.receive now (plan.call q).result) ↔
      e.message = f.message) := by
  refine ⟨fun built rebuilt => ?_, fun _ _ unbuilt => unbuilt.told ended,
    fun _ _ unbuilt => unbuilt.told endedToo,
    fun a x b y unbuilt unbuiltToo => ⟨heard_unbuilt_iff alike unbuilt unbuiltToo, ?_, ?_⟩,
    fun config now => ?_⟩
  · have looks := seen_alike alike built rebuilt
    have results := congrArg Prod.fst looks
    have sayings := congrArg Prod.snd looks
    refine ⟨?_, congrArg (began ++ ·) sayings⟩
    cases ended.symm.trans (Eq.trans results endedToo)
    rfl
  · rintro url fault rfl
    obtain ⟨rfl, tells⟩ := unbuilt.told ended
    obtain ⟨rfl, tellsToo⟩ := unbuiltToo.told endedToo
    cases tells
    cases tellsToo with
    | url other => exact message_url_iff plan.template fault other
    | target => cases same
  · rintro fault rfl
    obtain ⟨rfl, tellsToo⟩ := unbuiltToo.told endedToo
    cases tellsToo with
    | url => cases same
    | target _ other =>
        rw [Error.message_requestTarget_iff, Error.requestTarget.injEq]
  · rw [ended, endedToo]
    simp [Source.Ticket.receive, Except.bind, Broker.reported, Config.nextInterval]

theorem built_constant {plan : Plan} {value : String} {reply : Http.Reply} {request : Http.Request}
    (built : plan.request value = .ok request) (attempt : Attempt) (error : Error) :
    ¬plan.Unbuilt (.constant value reply) attempt error := by
  intro unbuilt
  cases unbuilt with
  | first c error current unbuilt =>
      cases current
      cases built.symm.trans unbuilt
  | second c d first error refused resolved unbuilt =>
      cases resolved
      cases built.symm.trans unbuilt

theorem result_built {plan : Plan} {value : String} {reply : Http.Reply} {request : Http.Request}
    {error : Error} (built : plan.request value = .ok request)
    (read : plan.inspect reply = .error error) :
    (plan.call (.constant value reply)).result = .error error := by
  have received : plan.received (.first value) (.ok reply) = .finish (.error error) := by
    simp [Plan.received, Except.bind, read]
  have sends : plan.seen (.constant value reply) [.ask .current] (plan.attempt (.first value)) =
      plan.seen (.constant value reply) ([.ask .current] ++ [.send request])
        (plan.received (.first value) (.ok reply)) :=
    seen_built (.first value) built
  rw [received, seen_finish] at sends
  exact congrArg Prod.fst sends

theorem result_unbuilt {plan : Plan} {value : String} {reply : Http.Reply} {error : Error}
    (unbuilt : plan.request value = .error error) :
    (plan.call (.constant value reply)).result = .error error := by
  have ends : plan.seen (.constant value reply) [.ask .current] (plan.attempt (.first value)) =
      (.error error, [.counted .call .failure]) :=
    seen_unbuilt (.first value) unbuilt
  exact congrArg Prod.fst ends

end Plan

end Calls

namespace Plan

section Samples

open Url.PlainNames

/-- Two credentials with a slash, in the query of an issuer that is down. -/
theorem failed_calls_look_alike :
    let plan := Plan.sample
      ⟨"https://issuer/menu?token=", by decide +kernel, by decide +kernel⟩
    let reply : Http.Reply := ⟨503, []⟩
    let p := Partners.constant "a/b" reply
    let q := Partners.constant "c/d" reply
    p.Alike q ∧ (plan.call p).result = .error (.httpStatus 503) ∧
      (plan.call q).result = .error (.httpStatus 503) ∧ plan.heard p = plan.heard q ∧
      ∀ config now,
        Broker.reported config (Source.Ticket.receive now (plan.call p).result) =
          Broker.reported config (Source.Ticket.receive now (plan.call q).result) := by
  intro plan reply p q
  have alike : p.Alike q := alike_constant _ _ reply
  have built : plan.request "a/b" =
      .ok ⟨"GET", "https://issuer/menu?token=a%2Fb", none, []⟩ := by
    simp only [plan]
    cbv
  have rebuilt : plan.request "c/d" =
      .ok ⟨"GET", "https://issuer/menu?token=c%2Fd", none, []⟩ := by
    simp only [plan]
    cbv
  have ended : (plan.call p).result = .error (.httpStatus 503) := result_built built rfl
  have endedToo : (plan.call q).result = .error (.httpStatus 503) := result_built rebuilt rfl
  obtain ⟨same, -, -, -, reported⟩ :=
    plan.credential_shown_by_unbuilt_only p q alike _ _ ended endedToo rfl
  obtain ⟨-, heard⟩ := same (built_constant built) (built_constant rebuilt)
  exact ⟨alike, ended, endedToo, heard, fun config now => (reported config now).mpr rfl⟩

/-- A slot in the place of the host: two credentials end the call with errors of one kind and two
texts, and a broker over tickets reports them. -/
theorem host_slot_shows_credential :
    let template : Template := ⟨"https://a=", by decide +kernel, by decide +kernel⟩
    let plan := Plan.sample template
    let p := Partners.constant "a/b" (.sample "")
    let q := Partners.constant "c/d" (.sample "")
    let e : Error := .invalidUrl "https://a=a%2Fb" .invalidDomain
    let f : Error := .invalidUrl "https://a=c%2Fd" .invalidDomain
    (Template.ofText "https://a=").toOption = some template ∧ p.Alike q ∧
      (plan.call p).result = .error e ∧ (plan.call q).result = .error f ∧ e.kind = f.kind ∧
      e.message = "URL `https://a=a%2Fb` is invalid." ∧
      f.message = "URL `https://a=c%2Fd` is invalid." ∧
      Broker.reported .default (Source.Ticket.receive Scenario.epoch (plan.call p).result) ≠
        Broker.reported .default (Source.Ticket.receive Scenario.epoch (plan.call q).result) := by
  intro template plan p q e f
  have unbuilt : plan.request "a/b" = .error e := by
    simp only [plan, e, template]
    cbv
  have unbuiltToo : plan.request "c/d" = .error f := by
    simp only [plan, f, template]
    cbv
  have ended : (plan.call p).result = .error e := result_unbuilt unbuilt
  have endedToo : (plan.call q).result = .error f := result_unbuilt unbuiltToo
  have accepted : (Template.ofText "https://a=").toOption = some template := by
    rw [Template.ofText, dif_pos template.slot]
    split
    · rfl
    · next fault failed =>
        have parses := template.parses
        simp only [template, failed] at parses
        cases parses
  refine ⟨accepted, alike_constant _ _ _, ended, endedToo, rfl, by decide +kernel,
    by decide +kernel, ?_⟩
  rw [ended, endedToo]
  decide +kernel

end Samples

end Plan

end Bearer

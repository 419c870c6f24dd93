import Mathlib
import Bearer.Proofs.Broker.Snapshots
import Bearer.Proofs.Client.Retry
import Bearer.Proofs.Source.Fetch

/-!
One fetch of a ticket: a single call of the issuer, with all that a call does about a refused
credential, and behind it the grant in the reply that the call has accepted. A failure keeps the
issuer's code on its way through the token service, the fetch and the broker of the tickets.
-/
namespace Bearer

open Json

namespace Error

/-- The failure behind all that was said about it on the way. -/
def innermost : Error → Error
  | unavailable inner => inner.innermost
  | error => error

theorem issuerCode_innermost (error : Error) : error.innermost.issuerCode = error.issuerCode := by
  induction error with
  | unavailable inner ih => exact ih
  | _ => rfl

end Error

namespace Source.Ticket

variable {now : Time.Instant} {t : Credential}

theorem receive_eq_ok {outcome : Except Error Http.Reply} :
    receive now outcome = .ok t ↔ ∃ reply, outcome = .ok reply ∧ ofReply now reply = .ok t :=
  bind_eq_ok

/-- A reply that a call has accepted holds a ticket exactly if its body is an object that offers
one. -/
theorem ofReply_eq_ok_iff {codes : Issuer.Codes} {reply : Http.Reply}
    (accepts : codes.Accepts reply) :
    ofReply now reply = .ok t ↔ ∃ members, Tree.ofBytes reply.body = .object members none ∧
      Grant.Offers "ticket" now (Record.legible members) t := by
  obtain ⟨status, decoded, -⟩ := accepts.told
  simp only [ofReply, Http.Reply.decode, bind_eq_ok, mapError_eq_ok]
  constructor
  · rintro ⟨grant, granted, trusted⟩
    obtain ⟨members, object⟩ := object_of_both decoded granted
    rw [decode, object] at granted
    obtain ⟨fits, told⟩ :=
      (Grant.reader_object (by decide) (Tree.membersWhole_ofBytes object)).mp granted
    exact ⟨members, object, Grant.offers_of_told (by decide) fits told trusted⟩
  · rintro ⟨members, object, offers⟩
    have inside := Tree.membersWhole_ofBytes object
    rw [decode, object] at decoded
    -- The reader of the status has found all names legible, so the one of the grant does.
    have named := ((Issuer.Status.reader_object inside).mp decoded).1.named
    obtain ⟨fits, grant, told, trusted⟩ := offers.told (by decide) named
    refine ⟨grant, ?_, trusted⟩
    rw [decode, object]
    exact (Grant.reader_object (by decide) inside).mpr ⟨fits, told⟩

section Asked

variable [Url.Idna]

/-- A request for a ticket is for what the template makes of a credential, and has no body. -/
structure Asks (template : Template) (value : String) (request : Http.Request) : Prop where
  plain : request = ⟨"GET", request.target, none, []⟩
  target : ∃ url, template.complete value = .ok url ∧ Http.targetOf url.text = .ok request.target

theorem request_eq_ok_iff (descriptor : Issuer.Descriptor) {template : Template} {value : String}
    {request : Http.Request} :
    (plan descriptor template).request value = .ok request ↔ Asks template value request := by
  constructor
  · intro built
    obtain ⟨url, completed, sent, parts⟩ := Template.target_of_request built
    exact ⟨parts, url, completed, sent⟩
  · rintro ⟨plain, url, completed, sent⟩
    rw [plain, Plan.request, plan, completed]
    simp only [bind, Except.bind, Http.Request.build, sent]
    rfl

section Requests

variable {descriptor : Issuer.Descriptor} {template : Template} {partners : Partners}
  {c d : Credential} {first second : Http.Request}

theorem sends_iff : (plan descriptor template).Sends partners c first ↔
    partners.token [] .current = .ok c ∧ Asks template c.value first := by
  rw [← request_eq_ok_iff descriptor]
  exact ⟨fun sends => ⟨sends.current, sends.built⟩,
    fun ⟨current, built⟩ => ⟨current, built, Plan.makes_of_request built⟩⟩

theorem resends_iff : (plan descriptor template).Resends partners c d first second ↔
    (plan descriptor template).Refused partners c first ∧
      partners.token [.ask .current, .send first] (.resolve c.value) = .ok d ∧
      Asks template d.value second := by
  rw [← request_eq_ok_iff descriptor]
  exact ⟨fun resends => ⟨resends.refused, resends.resolved, resends.built⟩,
    fun ⟨refused, resolved, built⟩ => ⟨refused, resolved, built, Plan.makes_of_request built⟩⟩

end Requests

end Asked

end Source.Ticket

end Bearer

import Mathlib
import Bearer.Proofs.Issuer.Bystanders
import Bearer.Proofs.Json.Extent
import Bearer.Source.Ticket

/-!
Bodies that are cut short, and bodies with something behind them. What is read of a body reaches to
the last bracket of its first value and no further, so that a reply which was cut off is refused and
never taken for a success without a code.
-/
namespace Bearer

open Json

/-- A reply of success whose body is no status ends a call, whichever request it answers. -/
theorem Plan.received_undecoded [Url.Idna] (plan : Plan) (attempt : Attempt)
    {reply : Http.Reply} (success : 200 ≤ reply.status ∧ reply.status < 300) {fault : Fault}
    (undecoded : decode Issuer.Status.reader reply.body = .error fault) :
    plan.received attempt (.ok reply) = .finish (.error (.decode fault reply.status)) := by
  simp only [received, Except.bind, inspect, Http.Reply.requireSuccess_of_success success,
    Http.Reply.decode, undecoded]
  rfl

namespace Source

theorem IssuerToken.ofReply_undecoded (source : IssuerToken) (now : Time.Instant)
    {reply : Http.Reply} (success : 200 ≤ reply.status ∧ reply.status < 300) {fault : Fault}
    (undecoded : decode Issuer.Status.reader reply.body = .error fault) :
    source.ofReply now reply = .error (.decode fault reply.status) := by
  simp only [ofReply, Http.Reply.requireSuccess_of_success success, Http.Reply.decode, undecoded]
  rfl

theorem IssuerToken.ofReply_alike (source : IssuerToken) (now : Time.Instant)
    {first second : Http.Reply} (answered : first.status = second.status)
    (told : decode Issuer.Status.reader first.body = decode Issuer.Status.reader second.body)
    (granted : decode Grant.tokenReader first.body = decode Grant.tokenReader second.body) :
    source.ofReply now first = source.ofReply now second := by
  rw [source.ofReply_eq, source.ofReply_eq, source.passes_alike answered told,
    Http.Reply.decode_alike answered granted]

theorem Ticket.ofReply_alike (now : Time.Instant) {first second : Http.Reply}
    (answered : first.status = second.status)
    (granted : decode Grant.ticketReader first.body = decode Grant.ticketReader second.body) :
    Ticket.ofReply now first = Ticket.ofReply now second := by
  rw [ofReply, ofReply, Http.Reply.decode_alike answered granted]

end Source

/-- What is read well begins with a value in brackets, and reading keeps to that value: appended text
changes neither what is read nor what a call or a fetch makes of the reply, and a body that is cut
before the last bracket of the value is refused by everyone who reads it. -/
theorem body_read_to_last_bracket [Url.Idna] (body : List UInt8)
    (read : (∃ status, decode Issuer.Status.reader body = .ok status) ∨
      (∃ grant, decode Grant.tokenReader body = .ok grant) ∨
      ∃ grant, decode Grant.ticketReader body = .ok grant) :
    ∃ (before : Gap) (word behind : List UInt8),
      body = before.bytes ++ word ++ behind ∧ Bracketed word ∧
      (KeepsTo Issuer.Status.reader body (before.bytes ++ word) ∧
        KeepsTo Grant.tokenReader body (before.bytes ++ word) ∧
        KeepsTo Grant.ticketReader body (before.bytes ++ word)) ∧
      (∀ (appended : List UInt8) (httpStatus : Nat),
        (∀ (plan : Plan) (attempt : Attempt),
          plan.received attempt (.ok ⟨httpStatus, body ++ appended⟩) =
            (plan.received attempt (.ok ⟨httpStatus, body⟩)).returning
              ⟨httpStatus, body ++ appended⟩) ∧
        (∀ (source : Source.IssuerToken) (now : Time.Instant),
          source.ofReply now ⟨httpStatus, body ++ appended⟩ =
            source.ofReply now ⟨httpStatus, body⟩) ∧
        ∀ now : Time.Instant, Source.Ticket.ofReply now ⟨httpStatus, body ++ appended⟩ =
          Source.Ticket.ofReply now ⟨httpStatus, body⟩) ∧
      ∀ cut, cut <+: before.bytes ++ word → cut ≠ before.bytes ++ word →
        ∀ httpStatus, 200 ≤ httpStatus ∧ httpStatus < 300 → ∃ fault,
          (∀ (plan : Plan) (attempt : Attempt),
            plan.received attempt (.ok ⟨httpStatus, cut⟩) =
              .finish (.error (.decode fault httpStatus))) ∧
          ∀ (source : Source.IssuerToken) (now : Time.Instant),
            source.ofReply now ⟨httpStatus, cut⟩ = .error (.decode fault httpStatus) := by
  obtain ⟨before, word, behind, rfl, bracketed⟩ : ∃ (before : Gap) (word behind : List UInt8),
      body = before.bytes ++ word ++ behind ∧ Bracketed word := by
    rcases read with ⟨status, decoded⟩ | ⟨grant, decoded⟩ | ⟨grant, decoded⟩
    · exact Record.brackets_of_decode decoded
    · exact Record.brackets_of_decode decoded
    · exact Record.brackets_of_decode decoded
  have status : KeepsTo Issuer.Status.reader _ _ := bracketed.keepsTo before behind
  have token : KeepsTo Grant.tokenReader _ _ := bracketed.keepsTo before behind
  have ticket : KeepsTo Grant.ticketReader _ _ := bracketed.keepsTo before behind
  refine ⟨before, word, behind, rfl, bracketed, ⟨status, token, ticket⟩, ?_, ?_⟩
  · intro appended httpStatus
    refine ⟨fun plan attempt => ?_, fun source now => ?_, fun now => ?_⟩
    · exact plan.received_alike attempt rfl (status.longer _).symm
    · exact source.ofReply_alike now rfl (status.longer _) (token.longer _)
    · exact Source.Ticket.ofReply_alike now rfl (ticket.longer _)
  · intro cut front proper httpStatus success
    obtain ⟨fault, undecoded⟩ := status.shorter cut front proper
    exact ⟨fault, fun plan attempt => plan.received_undecoded attempt success undecoded,
      fun source now => source.ofReply_undecoded now success undecoded⟩

open Url.PlainNames in
/-- A list with half of a surrogate pair stands in a body of success, and another bracket behind it. -/
theorem success_read_to_last_bracket :
    let body := Text.utf8 "\x7b\"data\":[1,\"\\ud800\"],\"errcode\":0\x7d]"
    decode Issuer.Status.reader body = .ok ⟨0, ""⟩ ∧
      (∀ appended, decode Issuer.Status.reader (body ++ appended) = .ok ⟨0, ""⟩) ∧
      ∃ (before : Gap) (word behind : List UInt8), body = before.bytes ++ word ++ behind ∧
        Bracketed word ∧ ∀ cut, cut <+: before.bytes ++ word → cut ≠ before.bytes ++ word →
          ∃ fault, decode Issuer.Status.reader cut = .error fault := by
  intro body
  have read : decode Issuer.Status.reader body = .ok ⟨0, ""⟩ := rfl
  obtain ⟨before, word, behind, split, bracketed, ⟨status, -⟩, -⟩ :=
    body_read_to_last_bracket body (.inl ⟨_, read⟩)
  exact ⟨read, fun appended => (status.longer appended).trans read, before, word, behind, split,
    bracketed, status.shorter⟩

end Bearer

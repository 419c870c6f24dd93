import Mathlib
import Bearer.Proofs.Broker.Run
import Bearer.Proofs.Client.Retry
import Bearer.Proofs.Json.Record
import Bearer.Issuer.Draft
import Bearer.Source.IssuerToken

/-!
Bodies without a status. Such a body is read as the status with the code zero, whatever the issuer's
code for success is. So it is taken for a success where that code is zero, and for a failure or for
an expired credential where the issuer's table says so of zero.
-/
namespace Bearer

namespace Http

/-- A reply of success whose body is an object that tells neither a code nor a message. -/
structure Reply.Bare (reply : Reply) : Prop where
  success : 200 ≤ reply.status ∧ reply.status < 300
  object : ∃ members, Json.Tree.ofBytes reply.body = .object members none ∧
    ∀ member ∈ members, ∃ name, member.1.text = .ok name ∧ name ≠ "errcode" ∧ name ≠ "errmsg"

theorem Reply.Bare.decoded {reply : Reply} (bare : reply.Bare) :
    Json.decode Issuer.Status.reader reply.body = .ok ⟨0, ""⟩ := by
  obtain ⟨members, tree, names⟩ := bare.object
  have whole : (Json.Tree.ofBytes reply.body).Whole :=
    Json.Tree.whole_ofBytes (by rw [tree]; rfl)
  rw [tree] at whole
  cases whole with
  | object _ inside =>
      have unknown : ∀ member ∈ members, ∃ name, member.1.text = .ok name ∧
          Issuer.Status.record.fields.lookup name = none := by
        intro member known
        obtain ⟨name, read, code, message⟩ := names member known
        refine ⟨name, read, ?_⟩
        simp [Issuer.Status.record, List.lookup_cons, beq_eq_false_iff_ne.mpr code,
          beq_eq_false_iff_ne.mpr message]
      have nothing : Issuer.Status.record.read (.object members none) = .ok [] :=
        Issuer.Status.record.ofMembers_unknown rfl inside unknown []
      rw [Json.decode, tree]
      exact Json.Record.readAs_eq_ok.mpr ⟨[], nothing, rfl⟩

theorem Reply.Bare.status {reply : Reply} (bare : reply.Bare) :
    reply.decode Issuer.Status.reader = .ok ⟨0, ""⟩ := by
  rw [decode, bare.decoded]
  rfl

theorem Reply.Bare.requireSuccess {reply : Reply} (bare : reply.Bare) :
    reply.requireSuccess = .ok () := by
  simp [Reply.requireSuccess, isSuccess, bare.success]

end Http

namespace Plan

variable [Url.Idna]

theorem received_bare (plan : Plan) {reply : Http.Reply} (bare : reply.Bare) (value : String) :
    plan.received (.first value) (.ok reply) =
      if plan.codes.ok = 0 then .finish (.ok reply)
      else if 0 ∈ plan.codes.expired then .resolve value 0
      else .finish (.error (.issuer 0 "")) := by
  by_cases zero : plan.codes.ok = 0
  · simp [received, inspect, bare.requireSuccess, bare.status, Issuer.Codes.classify, zero, bind,
      Except.bind, pure, Except.pure]
  · by_cases expired : 0 ∈ plan.codes.expired
    · simp [received, inspect, bare.requireSuccess, bare.status, Issuer.Codes.classify, zero,
        Ne.symm zero, expired, bind, Except.bind, pure, Except.pure]
    · simp [received, inspect, bare.requireSuccess, bare.status, Issuer.Codes.classify, zero,
        Ne.symm zero, expired, bind, Except.bind, Issuer.Status.toError]

theorem Sends.call {plan : Plan} {partners : Partners} {c : Credential} {first : Http.Request}
    (sends : plan.Sends partners c first) :
    plan.call partners =
      plan.follow partners [.ask .current, .send first]
        (plan.received (.first c.value) (partners.reply [.ask .current] first)) := by
  rw [Plan.call, sends.current]
  simp only [start, follow_attempt, Attempt.value, sends.built]
  rfl

end Plan

namespace Source.IssuerToken

theorem ofReply_bare (source : IssuerToken) {reply : Http.Reply} (bare : reply.Bare)
    (now : Time.Instant) :
    source.ofReply now reply =
      if source.descriptor.codes.ok = 0 then
        (reply.decode Grant.tokenReader).bind (·.credential now)
      else .error (.issuer 0 "") := by
  by_cases zero : source.descriptor.codes.ok = 0
  · simp [ofReply, bare.requireSuccess, bare.status, Issuer.Descriptor.classify,
      Issuer.Codes.classify, zero, bind, Except.bind]
  · have other : source.descriptor.codes.classify 0 ≠ .ok := by
      simp only [Issuer.Codes.classify, Ne.symm zero, if_false]
      split <;> simp
    simp [ofReply, bare.requireSuccess, bare.status, Issuer.Descriptor.classify, other, zero, bind,
      Except.bind, Issuer.Status.toError]

end Source.IssuerToken

namespace Plan

section Bare

variable [Url.Idna] {plan : Plan} {partners : Partners} {c : Credential} {first : Http.Request}
  {reply : Http.Reply}

theorem call_bare (sends : plan.Sends partners c first)
    (replied : partners.reply [.ask .current] first = .ok reply) (bare : reply.Bare) :
    plan.call partners =
      plan.follow partners [.ask .current, .send first]
        (if plan.codes.ok = 0 then .finish (.ok reply)
        else if 0 ∈ plan.codes.expired then .resolve c.value 0
        else .finish (.error (.issuer 0 ""))) := by
  rw [sends.call, replied, plan.received_bare bare]

theorem rejected_bare (sends : plan.Sends partners c first)
    (replied : partners.reply [.ask .current] first = .ok reply) (bare : reply.Bare)
    (other : plan.codes.ok ≠ 0) (lasting : 0 ∉ plan.codes.expired) :
    plan.call partners = ⟨[.ask .current, .send first], .error (.issuer 0 "")⟩ := by
  rw [call_bare sends replied bare, if_neg other, if_neg lasting, follow]

theorem failed_bare (sends : plan.Sends partners c first)
    (replied : partners.reply [.ask .current] first = .ok reply) (bare : reply.Bare)
    (other : plan.codes.ok ≠ 0) (expired : 0 ∈ plan.codes.expired) :
    (plan.call partners).failed = [c.value] := by
  have refused : plan.Refused partners c first :=
    ⟨sends, reply, ⟨0, ""⟩, replied, bare.success, bare.decoded, Ne.symm other, expired⟩
  obtain ⟨d, request, again, failed⟩ | ⟨never, _⟩ := (plan.ways_call partners).failed_eq
  · rw [failed, (sends.unique again.sends).1]
  · exact absurd refused (never c first)

end Bare

end Plan

/-- A call whose first reply tells no status returns it exactly where the issuer's code for success
is zero. Where it is another, the call asks for another credential or fails, as the table has it for
zero; and a fetch of a credential goes on to read the grant only where that code is zero. -/
theorem bare_reply_accepted_iff [Url.Idna] (d : Issuer.Descriptor) (plan : Plan)
    (table : plan.codes = d.codes) (partners : Partners) (c : Credential) (first : Http.Request)
    (reply : Http.Reply) (sends : plan.Sends partners c first)
    (replied : partners.reply [.ask .current] first = .ok reply) (bare : reply.Bare)
    (source : Source.IssuerToken) (own : source.descriptor = d) (now : Time.Instant) :
    (plan.call partners = ⟨[.ask .current, .send first], .ok reply⟩ ↔ d.codes.ok = 0) ∧
    (d.codes.ok ≠ 0 → 0 ∉ d.codes.expired →
      plan.call partners = ⟨[.ask .current, .send first], .error (.issuer 0 "")⟩) ∧
    (d.codes.ok ≠ 0 → 0 ∈ d.codes.expired → (plan.call partners).failed = [c.value]) ∧
    source.ofReply now reply =
      if d.codes.ok = 0 then (reply.decode Grant.tokenReader).bind (·.credential now)
      else .error (.issuer 0 "") := by
  have call := plan.call_bare sends replied bare
  have refused := plan.failed_bare sends replied bare
  have failed := plan.rejected_bare sends replied bare
  rw [table] at call refused failed
  refine ⟨⟨fun accepted => ?_, fun zero => ?_⟩, failed, refused, ?_⟩
  · refine Decidable.byContradiction fun other => ?_
    by_cases expired : 0 ∈ d.codes.expired
    · have asked := refused other expired
      rw [accepted] at asked
      cases asked
    · cases (failed other expired).symm.trans accepted
  · rw [call, if_pos zero, Plan.follow]
  · rw [source.ofReply_bare bare, own]

section Samples

open Url.PlainNames

/-- A descriptor for which the code for success is chosen. -/
def chosen (ok : Int) : Issuer.Descriptor where
  id := ⟨"chosen", by decide +kernel⟩
  tokenEndpoint :=
    ⟨"https", "", none, some (.domain "issuer"), none, .segments ["token"], none, none⟩
  apiBase := ⟨"https", "", none, some (.domain "issuer"), none, .segments [""], none, none⟩
  params := ⟨"appid", "secret"⟩
  codes := ⟨ok, [40001, 42001]⟩

def chosenDraft (ok : Int) : Issuer.Draft :=
  ⟨(chosen ok).id, (chosen ok).tokenEndpoint, none, (chosen ok).params, (chosen ok).codes⟩

def chosenSource (ok : Int) : Source.IssuerToken :=
  ⟨chosen ok, ⟨"app", by decide +kernel⟩, ⟨"secret"⟩⟩

/-- Reads the menu of the issuer. -/
def listing (codes : Issuer.Codes) : Plan :=
  ⟨"GET", ⟨"https://issuer/menu?access_token=", by decide, by decide +kernel⟩, none, codes⟩

def listingFirst : Http.Request :=
  ⟨"GET", "https://issuer/menu?access_token=first", none, []⟩

/-- A grant without a status. -/
def granting : Http.Reply :=
  ⟨200, Text.utf8 "\x7b\"access_token\":\"next\",\"expires_in\":7\x7d"⟩

def steady : Partners :=
  ⟨fun _ _ => .ok (Broker.sample "first"), fun _ _ => .ok granting⟩

theorem listing_sends (codes : Issuer.Codes) :
    (listing codes).Sends steady (Broker.sample "first") listingFirst := by
  have built : (listing codes).request "first" = .ok listingFirst := by
    cbv
  exact ⟨rfl, built, Plan.makes_of_request built⟩

def plain (text : String) : Json.Quoted :=
  ⟨(Text.utf8 text).map .byte, none⟩

theorem granting_bare : granting.Bare where
  success := by decide
  object := by
    refine ⟨[(plain "access_token", .string (plain "next")),
      (plain "expires_in", .number ⟨false, [7], none, none⟩)], rfl, ?_⟩
    simp only [List.forall_mem_cons]
    exact ⟨⟨"access_token", rfl, by decide, by decide⟩, ⟨"expires_in", rfl, by decide, by decide⟩,
      nofun⟩

/-- With zero for success the call returns the grant, and a fetch reads the credential in it. -/
theorem bare_reply_accepted :
    (chosenDraft 0).build = .ok (chosen 0) ∧
      (listing (chosen 0).codes).Sends steady (Broker.sample "first") listingFirst ∧
      granting.Bare ∧
      (listing (chosen 0).codes).call steady =
        ⟨[.ask .current, .send listingFirst], .ok granting⟩ ∧
      (chosenSource 0).ofReply Scenario.epoch granting =
        Credential.create "next" Scenario.epoch (.ofSeconds 7) := by
  obtain ⟨accepted, -, -, fetched⟩ :=
    bare_reply_accepted_iff (chosen 0) (listing (chosen 0).codes) rfl steady
      (Broker.sample "first") listingFirst granting (listing_sends _) rfl granting_bare
      (chosenSource 0) rfl Scenario.epoch
  exact ⟨rfl, listing_sends _, granting_bare, accepted.mpr rfl, fetched⟩

/-- With one for success, which a finished descriptor may have, the call fails on the same reply
with the code zero that the reply never told, and so does a fetch. -/
theorem bare_reply_refused :
    (chosenDraft 1).build = .ok (chosen 1) ∧ granting.Bare ∧
      (listing (chosen 1).codes).call steady =
        ⟨[.ask .current, .send listingFirst], .error (.issuer 0 "")⟩ ∧
      (chosenSource 1).ofReply Scenario.epoch granting = .error (.issuer 0 "") := by
  have called : (listing (chosen 1).codes).call steady =
      ⟨[.ask .current, .send listingFirst], .error (.issuer 0 "")⟩ :=
    Plan.rejected_bare (listing_sends _) rfl granting_bare (by decide) (by decide)
  have fetched : (chosenSource 1).ofReply Scenario.epoch granting = .error (.issuer 0 "") :=
    (chosenSource 1).ofReply_bare granting_bare Scenario.epoch
  exact ⟨rfl, granting_bare, called, fetched⟩

end Samples

end Bearer

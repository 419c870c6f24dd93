import Mathlib
import Bearer.Proofs.Client.Bare
import Bearer.Proofs.Issuer.Bodies
import Bearer.Proofs.Json.Consumed

/-!
The members of a body that tell its status, and those that stand by. A body is taken as if only the
first were in it: what else it holds, how much of that and how deep, has no part in whether a call is
over, asks for another credential or fails, as long as every name in it is a text.
-/
namespace Bearer

open Json

namespace Json

/-- A text that begins with an object, whatever stands behind it. -/
structure Body where
  before : Gap
  gap : Gap
  members : List Member
  behind : List UInt8
  written : ∀ member ∈ members, Written member.value.word

namespace Body

def bytes (body : Body) : List UInt8 :=
  body.before.bytes ++ objectText body.gap body.members ++ body.behind

/-- Every name is a text. -/
def Legible (body : Body) : Prop :=
  ∀ member ∈ body.members, ∃ name, member.key.text = .ok name

end Body

theorem Body.tree (body : Body) :
    Tree.ofBytes body.bytes = .object (body.members.map Member.read) none :=
  ofBytes_object body.before body.gap body.written body.behind

namespace Record

variable {σ : Type} (record : Record σ)

/-- Members by whose names the record has fields, with the names as they are meant. -/
def known (members : List (Quoted × Tree)) : List (Quoted × Tree) :=
  ((legible members).filter fun entry => (record.fields.lookup entry.1).isSome).map
    fun entry => (quoted entry.1, entry.2)

variable {record} {members : List (Quoted × Tree)}

/-- A record is read from the members that it knows. By induction on the members. -/
theorem ofMembers_known (isOpen : record.closed = false) (inside : MembersWhole members)
    (named : ∀ member ∈ members, ∃ name, member.1.text = .ok name) (seen : List String) :
    record.ofMembers none seen members = record.ofMembers none seen (record.known members) := by
  induction members generalizing seen with
  | nil => rfl
  | cons member rest ih =>
      obtain ⟨key, tree⟩ := member
      obtain ⟨whole, below⟩ := List.forall_mem_cons.mp inside
      obtain ⟨⟨name, text⟩, others⟩ := List.forall_mem_cons.mp named
      cases field : record.fields.lookup name with
      | none =>
          have passed : Reader.skip tree = .ok () := by
            rw [Reader.skip, whole.skipFault]
          have shorter : record.known ((key, tree) :: rest) = record.known rest := by
            simp [known, legible_cons text, field]
          rw [shorter, ← ih below others seen]
          simp [ofMembers, text, field, isOpen, passed, Except.mapError, bind, Except.bind]
      | some read =>
          have kept : record.known ((key, tree) :: rest) =
              (quoted name, tree) :: record.known rest := by
            simp [known, legible_cons text, field]
          rw [kept]
          simp only [ofMembers, text, text_quoted, Except.mapError, bind, Except.bind, field,
            ih below others (name :: seen)]

end Record

end Json

namespace Issuer.Status

/-- What a member tells of the status: a name of it, and what is written for it. -/
def statement? (member : Member) : Option (String × List UInt8) :=
  (member.key.text.toOption.filter fun name => name ∈ ["errcode", "errmsg"]).map
    fun name => (name, member.value.word)

/-- All that a body tells of its status, in the order of the text. -/
def statements (body : Body) : List (String × List UInt8) :=
  body.members.filterMap statement?

/-- A statement as the only member of its name. -/
def stated (statement : String × List UInt8) : Quoted × Tree :=
  (quoted statement.1, treeOf statement.2)

theorem isSome_lookup (name : String) :
    (record.fields.lookup name).isSome = decide (name ∈ ["errcode", "errmsg"]) := by
  simp only [record, List.lookup_cons, List.mem_cons, List.not_mem_nil, or_false]
  by_cases code : name = "errcode"
  · simp [code]
  · by_cases message : name = "errmsg"
    · simp [message]
    · simp [code, message, beq_eq_false_iff_ne.mpr code, beq_eq_false_iff_ne.mpr message]

theorem known_read (members : List Member)
    (legible : ∀ member ∈ members, ∃ name, member.key.text = .ok name) :
    record.known (members.map Member.read) = (members.filterMap statement?).map stated := by
  induction members with
  | nil => rfl
  | cons member rest ih =>
      obtain ⟨⟨name, text⟩, others⟩ := List.forall_mem_cons.mp legible
      have later := ih others
      have spelled : member.read.1.text = .ok name := text
      have split : Record.legible ((member :: rest).map Member.read) =
          (name, treeOf member.value.word) :: Record.legible (rest.map Member.read) :=
        Record.legible_cons spelled _ _
      by_cases field : name ∈ ["errcode", "errmsg"]
      · have states : statement? member = some (name, member.value.word) := by
          simpa [statement?, text, Except.toOption] using field
        rw [Record.known, split, List.filter_cons_of_pos (by simpa [isSome_lookup] using field),
          List.map_cons, List.filterMap_cons_some states, List.map_cons, ← later]
        rfl
      · have silent : statement? member = none := by
          simpa [statement?, text, Except.toOption] using field
        rw [Record.known, split, List.filter_cons_of_neg (by simpa [isSome_lookup] using field),
          List.filterMap_cons_none silent, ← later]
        rfl

/-- A body is read as if it held nothing but the statements. -/
theorem decode_body {body : Body} (legible : body.Legible) :
    decode reader body.bytes = reader (.object ((statements body).map stated) none) := by
  have inside : MembersWhole (body.members.map Member.read) :=
    Tree.membersWhole_ofBytes body.tree
  have named : ∀ member ∈ body.members.map Member.read, ∃ name, member.1.text = .ok name := by
    intro member known
    obtain ⟨own, listed, rfl⟩ := List.mem_map.mp known
    exact legible own listed
  have same : record.read (.object (body.members.map Member.read) none) =
      record.read (.object ((statements body).map stated) none) := by
    rw [Record.read, Record.read, Record.ofMembers_known rfl inside named,
      known_read body.members legible, statements]
  rw [decode, body.tree]
  simp only [reader, Record.readAs, Reader.filterMap, same]

end Issuer.Status

namespace Http.Reply

theorem requireSuccess_of_success {reply : Reply}
    (success : 200 ≤ reply.status ∧ reply.status < 300) : reply.requireSuccess = .ok () := by
  simp [requireSuccess, isSuccess, success]

variable {first second : Reply} (answered : first.status = second.status)
include answered

theorem requireSuccess_alike : first.requireSuccess = second.requireSuccess := by
  rw [requireSuccess, requireSuccess, isSuccess, isSuccess, answered]

theorem decode_alike {α : Type} {read : Reader α}
    (told : Json.decode read first.body = Json.decode read second.body) :
    first.decode read = second.decode read := by
  rw [decode, decode, told, answered]

end Http.Reply

/-- The same move, up to the reply that it returns. -/
def Move.returning (reply : Http.Reply) : Move → Move
  | .finish (.ok _) => .finish (.ok reply)
  | move => move

/-- A reply is taken by its HTTP status and the status in its body. -/
theorem Plan.received_alike [Url.Idna] (plan : Plan) (attempt : Attempt)
    {first second : Http.Reply} (answered : first.status = second.status)
    (told : decode Issuer.Status.reader first.body = decode Issuer.Status.reader second.body) :
    plan.received attempt (.ok second) = (plan.received attempt (.ok first)).returning second := by
  simp only [received, Except.bind, inspect, Http.Reply.requireSuccess_alike answered,
    Http.Reply.decode_alike answered told]
  cases second.requireSuccess with
  | error error => rfl
  | ok _ =>
      cases second.decode Issuer.Status.reader with
      | error error => rfl
      | ok status =>
          simp only [bind, Except.bind]
          cases plan.codes.classify status.errcode with
          | ok => rfl
          | expired => cases attempt <;> rfl
          | terminal => rfl

namespace Source.IssuerToken

/-- What a fetch makes of a reply before it looks for the grant. -/
def passes (source : IssuerToken) (reply : Http.Reply) : Except Error Unit := do
  reply.requireSuccess
  let status ← reply.decode Issuer.Status.reader
  if source.descriptor.classify status.errcode ≠ .ok then
    .error status.toError

theorem ofReply_eq (source : IssuerToken) (now : Time.Instant) (reply : Http.Reply) :
    source.ofReply now reply =
      (source.passes reply).bind fun _ => (reply.decode Grant.tokenReader).bind (·.credential now) := by
  simp only [ofReply, passes, bind, Except.bind]
  cases reply.requireSuccess with
  | error error => rfl
  | ok _ =>
      cases reply.decode Issuer.Status.reader with
      | error error => rfl
      | ok status =>
          by_cases accepted : source.descriptor.classify status.errcode = .ok
          · simp only [accepted, ne_eq, not_true_eq_false, if_false]
            rfl
          · simp only [accepted, ne_eq, not_false_eq_true, if_true]

theorem passes_alike (source : IssuerToken) {first second : Http.Reply}
    (answered : first.status = second.status)
    (told : decode Issuer.Status.reader first.body = decode Issuer.Status.reader second.body) :
    source.passes first = source.passes second := by
  simp only [passes, Http.Reply.requireSuccess_alike answered,
    Http.Reply.decode_alike answered told]

end Source.IssuerToken

open Issuer.Status (statements)

/-- Bodies that say the same of their status, member by member and in the same order, are read alike
by whoever reads the status, to the same value or the same fault: a call takes a reply for what it
took the other for, and a fetch refuses both or looks for a grant in both. What else they hold, where
it stands and how deep it goes does not count. -/
theorem status_told_by_own_members [Url.Idna] (first second : Body) (legible : first.Legible)
    (legibleToo : second.Legible) (same : statements first = statements second) :
    decode Issuer.Status.reader first.bytes = decode Issuer.Status.reader second.bytes ∧
      ∀ httpStatus : Nat,
        (∀ (plan : Plan) (attempt : Attempt),
          plan.received attempt (.ok ⟨httpStatus, second.bytes⟩) =
            (plan.received attempt (.ok ⟨httpStatus, first.bytes⟩)).returning
              ⟨httpStatus, second.bytes⟩) ∧
        ∀ (source : Source.IssuerToken) (now : Time.Instant), ∀ body ∈ [first, second],
          source.ofReply now ⟨httpStatus, body.bytes⟩ =
            (source.passes ⟨httpStatus, first.bytes⟩).bind fun _ =>
              ((⟨httpStatus, body.bytes⟩ : Http.Reply).decode Grant.tokenReader).bind
                (·.credential now) := by
  have told : decode Issuer.Status.reader first.bytes =
      decode Issuer.Status.reader second.bytes := by
    rw [Issuer.Status.decode_body legible, Issuer.Status.decode_body legibleToo, same]
  refine ⟨told, fun httpStatus => ⟨?_, ?_⟩⟩
  · intro plan attempt
    exact plan.received_alike attempt rfl told
  · intro source now
    have alike : source.passes ⟨httpStatus, first.bytes⟩ =
        source.passes ⟨httpStatus, second.bytes⟩ := source.passes_alike rfl told
    simp only [List.forall_mem_cons, List.not_mem_nil, false_implies, implies_true, and_true]
    exact ⟨source.ofReply_eq now _, alike ▸ source.ofReply_eq now _⟩

section Samples

open Url.PlainNames

/-- The mark of a byte that needs no escape. -/
def Json.Mark.ofByte? (b : UInt8) : Option Mark :=
  if h : b ≠ 0x22 ∧ b ≠ 0x5C ∧ ¬b < 0x20 then some (.byte b h.1 h.2.1 h.2.2) else none

/-- A member without blanks, named by signs that need no escape. -/
def Json.Member.plain (name : String) (word : List UInt8) : Member :=
  ⟨.nothing, (Text.utf8 name).filterMap Mark.ofByte?, .nothing, ⟨.nothing, word, .nothing⟩⟩

/-- Nothing in this many brackets. -/
def bracketed : Nat → List UInt8
  | 0 => arrayText .nothing []
  | n + 1 => arrayText .nothing [⟨.nothing, bracketed n, .nothing⟩]

theorem written_bracketed (n : Nat) : Written (bracketed n) := by
  induction n with
  | zero => exact .array _ [] nofun
  | succ n ih => exact .array _ _ (List.forall_mem_singleton.mpr ih)

/-- A member whose value is `40001`. -/
def codeMember : Member :=
  .plain "errcode" [0x34, 0x30, 0x30, 0x30, 0x31]

/-- A member whose value is `"old"`. -/
def textMember : Member :=
  .plain "errmsg" [0x22, 0x6F, 0x6C, 0x64, 0x22]

theorem written_code : Written codeMember.value.word :=
  .number ⟨false, ⟨[0x34, 0x30, 0x30, 0x30, 0x31], by decide, by decide +kernel⟩, none, none,
    by decide⟩

theorem written_text : Written textMember.value.word :=
  .text ([0x6F, 0x6C, 0x64].filterMap Mark.ofByte?)

theorem written_digit {b : UInt8} (digit : isDigit b = true) : Written [b] := by
  refine .number ⟨false, .single b digit, none, none, ?_⟩
  by_cases zero : b = 0x30
  · exact .inl (congrArg (fun b => [b]) zero)
  · exact .inr fun same => zero (Option.some.inj same)

def refusal : Body where
  before := .nothing
  gap := .nothing
  members := [codeMember, textMember]
  behind := []
  written := by
    simp only [List.forall_mem_cons, List.not_mem_nil, false_implies, implies_true, and_true]
    exact ⟨written_code, written_text⟩

/-- The same refusal next to `1e999`, brackets two hundred deep and another `errcode` in an object. -/
def crowdedRefusal : Body where
  before := .nothing
  gap := .nothing
  members := [.plain "data" (bracketed 200), codeMember,
    .plain "inner" (objectText .nothing [.plain "errcode" [0x30]]), textMember,
    .plain "data" [0x31, 0x65, 0x39, 0x39, 0x39]]
  behind := [0x7D]
  written := by
    simp only [List.forall_mem_cons, List.not_mem_nil, false_implies, implies_true, and_true]
    refine ⟨written_bracketed 200, written_code, ?_, written_text, ?_⟩
    · exact .object _ _ (List.forall_mem_singleton.mpr (written_digit rfl))
    · exact .number ⟨false, .single 0x31 rfl, none,
        some ⟨0x65, [], ⟨[0x39, 0x39, 0x39], by decide, by decide +kernel⟩, by decide, by decide⟩,
        by decide⟩

theorem crowd_does_not_hide_refusal :
    refusal.Legible ∧ crowdedRefusal.Legible ∧
      statements refusal = statements crowdedRefusal ∧
      decode Issuer.Status.reader crowdedRefusal.bytes = .ok ⟨40001, "old"⟩ ∧
      ∀ (plan : Plan) (attempt : Attempt),
        plan.received attempt (.ok ⟨200, crowdedRefusal.bytes⟩) =
          (plan.received attempt (.ok ⟨200, refusal.bytes⟩)).returning
            ⟨200, crowdedRefusal.bytes⟩ := by
  have plainly : refusal.Legible := by
    simp only [Body.Legible, refusal, List.forall_mem_cons, List.not_mem_nil, false_implies,
      implies_true, and_true]
    exact ⟨⟨"errcode", rfl⟩, "errmsg", rfl⟩
  have crowded : crowdedRefusal.Legible := by
    simp only [Body.Legible, crowdedRefusal, List.forall_mem_cons, List.not_mem_nil, false_implies,
      implies_true, and_true]
    exact ⟨⟨"data", rfl⟩, ⟨"errcode", rfl⟩, ⟨"inner", rfl⟩, ⟨"errmsg", rfl⟩, "data", rfl⟩
  have same : statements refusal = statements crowdedRefusal := rfl
  obtain ⟨told, alike⟩ := status_told_by_own_members refusal crowdedRefusal plainly crowded same
  exact ⟨plainly, crowded, same, told ▸ rfl, (alike 200).1⟩

/-- A body of success, and the same body with one more member, named by half of a surrogate pair. -/
theorem illegible_name_hides_status :
    let code : Member := .plain "errcode" [0x30]
    let half : Member := ⟨.nothing, [.unit 0x64 0x38 0x30 0x30 0xD800 rfl], .nothing,
      ⟨.nothing, [0x31], .nothing⟩⟩
    ∃ first second : Body,
      first.bytes = Text.utf8 "\x7b\"errcode\":0\x7d" ∧ first.members = [code] ∧
      second.bytes = Text.utf8 "\x7b\"\\ud800\":1,\"errcode\":0\x7d" ∧
      second.members = [half, code] ∧ statements first = statements second ∧
      decode Issuer.Status.reader first.bytes = .ok ⟨0, ""⟩ ∧
      decode Issuer.Status.reader second.bytes = .error ⟨[.unnamed], .malformed⟩ := by
  intro code half
  have zero : Written code.value.word := written_digit rfl
  have one : Written half.value.word := written_digit rfl
  exact ⟨⟨.nothing, .nothing, [code], [], List.forall_mem_singleton.mpr zero⟩,
    ⟨.nothing, .nothing, [half, code], [], List.forall_mem_cons.mpr
      ⟨one, List.forall_mem_singleton.mpr zero⟩⟩, rfl, rfl, rfl, rfl, rfl, rfl, rfl⟩

end Samples

end Bearer

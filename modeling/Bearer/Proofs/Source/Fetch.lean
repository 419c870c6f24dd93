import Mathlib
import Bearer.Proofs.Client.Bare
import Bearer.Proofs.Issuer.Bodies
import Bearer.Proofs.Scenario.Tasks

/-!
One fetch of an access token, from the request to the credential. At most one request is sent, and
what comes back for it decides how the fetch ends: the first check that fails gives the error, and
where none fails the body grants the credential.
-/
namespace Bearer

open Json

namespace Grant

/-- How a grant becomes a credential: it is obtained now, and trusted for what the margin leaves. -/
theorem credential_eq_ok {grant : Grant} {now : Time.Instant} {c : Credential} :
    grant.credential now = .ok c ↔ ∃ margin, margin? grant.expiresIn = some margin ∧
      now.add? (.ofSeconds (grant.expiresIn - margin)) = some c.validUntil ∧
      c.value = grant.value ∧ c.obtainedAt = now := by
  simp only [credential, trusted, bind_eq_ok, mapError_eq_ok, Credential.create]
  cases margin? grant.expiresIn with
  | none => simp
  | some margin =>
      cases reached : now.add? (.ofSeconds (grant.expiresIn - margin)) with
      | none => simp [reached]
      | some validUntil =>
          simp only [Except.ok.injEq, exists_eq_left', reached, Option.some.injEq]
          constructor
          · rintro rfl
            exact ⟨rfl, rfl, rfl⟩
          · obtain ⟨⟨value⟩, obtainedAt, own⟩ := c
            rintro ⟨rfl, rfl, rfl⟩
            rfl

theorem credential_eq_error {grant : Grant} {now : Time.Instant} {error : Error}
    (refused : grant.credential now = .error error) : error = .invalidExpiry grant.expiresIn := by
  cases margin : margin? grant.expiresIn with
  | none =>
      simp only [credential, trusted, margin, bind, Except.bind, Except.error.injEq] at refused
      exact refused.symm
  | some seconds =>
      simp only [credential, trusted, margin, bind, Except.bind] at refused
      cases created : Credential.create grant.value now
          (.ofSeconds (grant.expiresIn - seconds)) with
      | ok c =>
          rw [created] at refused
          cases refused
      | error own =>
          rw [created] at refused
          exact (Except.error.inj refused).symm

/-- The lifetime of a credential is the time for which it was trusted. -/
theorem lifetime_of_add {c : Credential} {span : Time.Span}
    (reached : c.obtainedAt.add? span = some c.validUntil) : c.lifetime = span := by
  simp only [Time.Instant.add?, Time.Instant.ofLocal?] at reached
  split at reached
  · have ended := Option.some.inj reached
    rw [Credential.lifetime, ← ended]
    simp only [Time.Instant.since, Time.Instant.unixNanos]
    congr 1
    omega
  · cases reached

/-- An object has one value under the name of the grant and one for its validity, and they make this
credential. -/
structure Offers (name : String) (now : Time.Instant) (named : Named) (c : Credential) : Prop where
  valueOnce : named.Once name
  expiryOnce : named.Once "expires_in"
  value : ∃ tree, named.lookup name = some tree ∧ tree.IsText c.value
  expiry : ∃ tree seconds margin, named.lookup "expires_in" = some tree ∧
    tree.IsInt64 seconds ∧ margin? seconds = some margin ∧ c.obtainedAt = now ∧
    now.add? (.ofSeconds (seconds - margin)) = some c.validUntil ∧
    c.lifetime = .ofSeconds (seconds - margin)

section Offers

variable {name : String} {now : Time.Instant} {members : List (Quoted × Tree)} {c : Credential}

theorem offers_of_told (other : name ≠ "expires_in") {grant : Grant}
    (fits : (record name).Fits [] members) (told : Told name (Record.legible members) grant)
    (trusted : grant.credential now = .ok c) : Offers name now (Record.legible members) c := by
  obtain ⟨-, valueOnce, expiryOnce, -, -⟩ := (Record.fits_pair other).mp fits
  obtain ⟨tree, under, text⟩ := told.value
  obtain ⟨inner, underToo, seconds⟩ := told.expiry
  obtain ⟨margin, known, reached, value, rfl⟩ := credential_eq_ok.mp trusted
  exact ⟨valueOnce, expiryOnce, ⟨tree, under, value ▸ text⟩,
    ⟨inner, grant.expiresIn, margin, underToo, seconds, known, rfl, reached,
      lifetime_of_add reached⟩⟩

theorem Offers.told (other : name ≠ "expires_in")
    (offers : Offers name now (Record.legible members) c)
    (named : ∀ member ∈ members, ∃ name, member.1.text = .ok name) :
    (record name).Fits [] members ∧
      ∃ grant, Told name (Record.legible members) grant ∧ grant.credential now = .ok c := by
  obtain ⟨valueOnce, expiryOnce, ⟨tree, under, text⟩,
    ⟨inner, seconds, margin, underToo, isInt, known, obtained, reached, -⟩⟩ := offers
  constructor
  · refine (Record.fits_pair other).mpr ⟨named, valueOnce, expiryOnce, ?_, ?_⟩
    · intro own found
      cases under.symm.trans found
      exact ⟨_, map_eq_ok.mpr ⟨_, Reader.text_eq_ok.mpr text, rfl⟩⟩
    · intro own found
      cases underToo.symm.trans found
      exact ⟨_, map_eq_ok.mpr ⟨_, Reader.int64_eq_ok.mpr isInt, rfl⟩⟩
  · exact ⟨⟨c.value, seconds⟩, ⟨⟨tree, under, text⟩, ⟨inner, underToo, isInt⟩⟩,
      credential_eq_ok.mpr ⟨margin, known, reached, rfl, obtained⟩⟩

end Offers

end Grant

namespace Source.IssuerToken

variable (source : IssuerToken) (now : Time.Instant)

/-- What a fetch sends and how it ends, where the transport answers in this way. -/
def fetch (transport : Http.Request → Except Error Http.Reply) :
    List Http.Request × Except Error Credential :=
  match source.request with
  | .ok request => ([request], source.receive now (transport request))
  | .error error => ([], .error error)

/-- The ways in which a fetch ends that has sent its request, each with the checks that were passed
before. -/
inductive Ends : Except Error Http.Reply → Except Error Credential → Prop where
  | lost (error : Error) : Ends (.error error) (.error error)
  | failed (reply : Http.Reply) (failure : ¬(200 ≤ reply.status ∧ reply.status < 300)) :
      Ends (.ok reply) (.error (.httpStatus reply.status))
  | illegible (reply : Http.Reply) (success : 200 ≤ reply.status ∧ reply.status < 300)
      (fault : Fault) (undecoded : decode Issuer.Status.reader reply.body = .error fault) :
      Ends (.ok reply) (.error (.decode fault reply.status))
  | refused (reply : Http.Reply) (success : 200 ≤ reply.status ∧ reply.status < 300)
      (status : Issuer.Status) (decoded : decode Issuer.Status.reader reply.body = .ok status)
      (other : status.errcode ≠ source.descriptor.codes.ok) :
      Ends (.ok reply) (.error (.issuer status.errcode status.errmsg))
  | grantless (reply : Http.Reply) (success : 200 ≤ reply.status ∧ reply.status < 300)
      (status : Issuer.Status) (decoded : decode Issuer.Status.reader reply.body = .ok status)
      (accepted : status.errcode = source.descriptor.codes.ok) (fault : Fault)
      (undecoded : decode Grant.tokenReader reply.body = .error fault) :
      Ends (.ok reply) (.error (.decode fault reply.status))
  | untrusted (reply : Http.Reply) (success : 200 ≤ reply.status ∧ reply.status < 300)
      (status : Issuer.Status) (decoded : decode Issuer.Status.reader reply.body = .ok status)
      (accepted : status.errcode = source.descriptor.codes.ok) (grant : Grant)
      (granted : decode Grant.tokenReader reply.body = .ok grant)
      (untrusted : ∀ c, grant.credential now ≠ .ok c) :
      Ends (.ok reply) (.error (.invalidExpiry grant.expiresIn))
  | granted (reply : Http.Reply) (success : 200 ≤ reply.status ∧ reply.status < 300)
      (status : Issuer.Status) (decoded : decode Issuer.Status.reader reply.body = .ok status)
      (accepted : status.errcode = source.descriptor.codes.ok) (grant : Grant)
      (granted : decode Grant.tokenReader reply.body = .ok grant) (c : Credential)
      (trusted : grant.credential now = .ok c) : Ends (.ok reply) (.ok c)

theorem classify_eq_ok {code : Int} :
    source.descriptor.classify code = .ok ↔ code = source.descriptor.codes.ok := by
  simp only [Issuer.Descriptor.classify, Issuer.Codes.classify]
  split
  · simp [*]
  · split <;> simp [*]

theorem ends_receive (outcome : Except Error Http.Reply) :
    source.Ends now outcome (source.receive now outcome) := by
  cases outcome with
  | error error => exact .lost error
  | ok reply =>
      show source.Ends now (.ok reply) (source.ofReply now reply)
      by_cases success : 200 ≤ reply.status ∧ reply.status < 300
      · have passed : reply.requireSuccess = .ok () := by
          simp [Http.Reply.requireSuccess, Http.Reply.isSuccess, success]
        cases decoded : decode Issuer.Status.reader reply.body with
        | error fault =>
            have result : source.ofReply now reply = .error (.decode fault reply.status) := by
              simp [ofReply, passed, Http.Reply.decode, decoded, Except.mapError, bind, Except.bind]
            rw [result]
            exact .illegible reply success fault decoded
        | ok status =>
            have envelope : reply.decode Issuer.Status.reader = .ok status := by
              rw [Http.Reply.decode, decoded]
              rfl
            by_cases accepted : status.errcode = source.descriptor.codes.ok
            · have goes : source.ofReply now reply =
                  (reply.decode Grant.tokenReader).bind (·.credential now) := by
                simp [ofReply, passed, envelope, source.classify_eq_ok.mpr accepted, bind,
                  Except.bind]
              rw [goes]
              cases granted : decode Grant.tokenReader reply.body with
              | error fault =>
                  rw [Http.Reply.decode, granted]
                  exact .grantless reply success status decoded accepted fault granted
              | ok grant =>
                  rw [Http.Reply.decode, granted]
                  show source.Ends now (.ok reply) (grant.credential now)
                  cases trusted : grant.credential now with
                  | error error =>
                      rw [Grant.credential_eq_error trusted]
                      refine .untrusted reply success status decoded accepted grant granted ?_
                      intro c same
                      cases trusted.symm.trans same
                  | ok c =>
                      exact .granted reply success status decoded accepted grant granted c trusted
            · have result : source.ofReply now reply = .error status.toError := by
                simp [ofReply, passed, envelope, mt source.classify_eq_ok.mp accepted, bind,
                  Except.bind]
              rw [result]
              exact .refused reply success status decoded accepted
      · have stopped : reply.requireSuccess = .error (.httpStatus reply.status) := by
          simpa [Http.Reply.requireSuccess, Http.Reply.isSuccess] using success
        have result : source.ofReply now reply = .error (.httpStatus reply.status) := by
          simp [ofReply, stopped, bind, Except.bind]
        rw [result]
        exact .failed reply success

/-- What an object has to be that grants a credential: members with other names do not matter, as
long as all names are legible. -/
structure Grants (ok : Int) (members : List (Quoted × Tree)) (c : Credential) : Prop where
  named : ∀ member ∈ members, ∃ name, member.1.text = .ok name
  once : ∀ name ∈ ["errcode", "errmsg", "access_token", "expires_in"],
    Named.Once (Record.legible members) name
  code : ∀ tree, (Record.legible members).lookup "errcode" = some tree → tree.IsInt64 ok
  codeless : (Record.legible members).lookup "errcode" = none → ok = 0
  message : ∀ tree, (Record.legible members).lookup "errmsg" = some tree →
    ∃ text, tree.IsText text
  value : ∃ tree, (Record.legible members).lookup "access_token" = some tree ∧
    tree.IsText c.value
  expiry : ∃ tree seconds margin, (Record.legible members).lookup "expires_in" = some tree ∧
    tree.IsInt64 seconds ∧ Grant.margin? seconds = some margin ∧ c.obtainedAt = now ∧
    now.add? (.ofSeconds (seconds - margin)) = some c.validUntil ∧
    c.lifetime = .ofSeconds (seconds - margin)

variable {now} {ok : Int} {members : List (Quoted × Tree)} {c : Credential}

theorem grants_of_told {status : Issuer.Status} {grant : Grant}
    (fits : Issuer.Status.record.Fits [] members)
    (told : Issuer.Status.Told (Record.legible members) status) (accepted : status.errcode = ok)
    (fitsToo : (Grant.record "access_token").Fits [] members)
    (granted : Grant.Told "access_token" (Record.legible members) grant)
    (trusted : grant.credential now = .ok c) : Grants now ok members c := by
  obtain ⟨named, codeOnce, messageOnce, -, -⟩ := (Record.fits_pair (by decide)).mp fits
  have offers := Grant.offers_of_told (by decide) fitsToo granted trusted
  subst accepted
  refine ⟨named, ?_, told.code, told.codeless, fun tree found => ⟨_, told.message tree found⟩,
    offers.value, offers.expiry⟩
  simp only [List.forall_mem_cons, List.not_mem_nil, false_implies, implies_true, and_true]
  exact ⟨codeOnce, messageOnce, offers.valueOnce, offers.expiryOnce⟩

theorem Grants.told (grants : Grants now ok members c) :
    Issuer.Status.record.Fits [] members ∧
      ∃ message, Issuer.Status.Told (Record.legible members) ⟨ok, message⟩ := by
  have once := grants.once
  simp only [List.forall_mem_cons] at once
  obtain ⟨codeOnce, messageOnce, -⟩ := once
  constructor
  · refine (Record.fits_pair (by decide)).mpr ⟨grants.named, codeOnce, messageOnce, ?_, ?_⟩
    · intro tree under
      exact ⟨_, map_eq_ok.mpr ⟨ok, Reader.int64_eq_ok.mpr (grants.code tree under), rfl⟩⟩
    · intro tree under
      obtain ⟨text, isText⟩ := grants.message tree under
      exact ⟨_, map_eq_ok.mpr ⟨text, Reader.text_eq_ok.mpr isText, rfl⟩⟩
  · cases found : (Record.legible members).lookup "errmsg" with
    | none =>
        refine ⟨"", grants.code, grants.codeless, ?_, fun _ => rfl⟩
        intro tree under
        cases found.symm.trans under
    | some tree =>
        obtain ⟨text, isText⟩ := grants.message tree found
        refine ⟨text, grants.code, grants.codeless, ?_,
          fun none => absurd (found.symm.trans none) (Option.some_ne_none tree)⟩
        intro other under
        cases found.symm.trans under
        exact isText

theorem Grants.granted (grants : Grants now ok members c) :
    (Grant.record "access_token").Fits [] members ∧
      ∃ grant, Grant.Told "access_token" (Record.legible members) grant ∧
        grant.credential now = .ok c := by
  have once := grants.once
  simp only [List.forall_mem_cons] at once
  obtain ⟨-, -, valueOnce, expiryOnce, -⟩ := once
  exact Grant.Offers.told (by decide) ⟨valueOnce, expiryOnce, grants.value, grants.expiry⟩
    grants.named

/-- The two readers agree exactly on the objects that grant. -/
theorem grants_iff {body : List UInt8} :
    (∃ members, Tree.ofBytes body = .object members none ∧ Grants now ok members c) ↔
      ∃ status grant, decode Issuer.Status.reader body = .ok status ∧ status.errcode = ok ∧
        decode Grant.tokenReader body = .ok grant ∧ grant.credential now = .ok c := by
  constructor
  · rintro ⟨members, object, grants⟩
    obtain ⟨fits, message, told⟩ := grants.told
    obtain ⟨fitsToo, grant, granted, trusted⟩ := grants.granted
    refine ⟨⟨ok, message⟩, grant, ?_, rfl, ?_, trusted⟩
    · rw [decode, object]
      exact (Issuer.Status.reader_object (Tree.membersWhole_ofBytes object)).mpr ⟨fits, told⟩
    · rw [decode, object]
      exact (Grant.reader_object (by decide) (Tree.membersWhole_ofBytes object)).mpr ⟨fitsToo, granted⟩
  · rintro ⟨status, grant, decoded, accepted, granted, trusted⟩
    obtain ⟨members, object⟩ := object_of_both decoded granted
    rw [decode, object] at decoded granted
    obtain ⟨fits, told⟩ := (Issuer.Status.reader_object (Tree.membersWhole_ofBytes object)).mp decoded
    obtain ⟨fitsToo, gives⟩ := (Grant.reader_object (by decide) (Tree.membersWhole_ofBytes object)).mp granted
    exact ⟨members, object, grants_of_told fits told accepted fitsToo gives trusted⟩

variable (now)

theorem receive_eq_ok_iff (outcome : Except Error Http.Reply) :
    source.receive now outcome = .ok c ↔ ∃ reply members, outcome = .ok reply ∧
      (200 ≤ reply.status ∧ reply.status < 300) ∧
      Tree.ofBytes reply.body = .object members none ∧
      Grants now source.descriptor.codes.ok members c := by
  have ends := source.ends_receive now outcome
  constructor
  · intro done
    rw [done] at ends
    cases ends with
    | granted reply success status decoded accepted grant granted c trusted =>
        obtain ⟨members, object, grants⟩ :=
          grants_iff.mpr ⟨status, grant, decoded, accepted, granted, trusted⟩
        exact ⟨reply, members, rfl, success, object, grants⟩
  · rintro ⟨reply, members, rfl, success, object, grants⟩
    obtain ⟨status, grant, decoded, accepted, granted, trusted⟩ :=
      grants_iff.mp ⟨members, object, grants⟩
    generalize source.receive now (.ok reply) = result at ends
    cases ends with
    | failed _ failure => exact absurd success failure
    | illegible _ _ fault undecoded => cases decoded.symm.trans undecoded
    | refused _ _ status own other =>
        cases decoded.symm.trans own
        exact absurd accepted other
    | grantless _ _ status own _ fault undecoded => cases granted.symm.trans undecoded
    | untrusted _ _ status own _ grant given untrusted =>
        cases granted.symm.trans given
        exact absurd trusted (untrusted c)
    | granted _ _ status own _ grant given d trustedToo =>
        cases granted.symm.trans given
        exact trustedToo.symm.trans trusted

/-- A request for a token has neither a body nor a type for one. -/
theorem request_eq_ok {request : Http.Request} (built : source.request = .ok request) :
    request = ⟨"GET", request.target, none, []⟩ ∧
      Http.targetOf (source.descriptor.tokenRequestUrl source.appId source.appSecret).text =
        .ok request.target := by
  simp only [IssuerToken.request, Http.Request.build] at built
  split at built
  · cases built
  · next target sent =>
      cases built
      exact ⟨rfl, sent⟩

section Tasks

open Scenario (World Answer epoch)

variable [Url.Idna] {w : World} {id number : Nat} {frames : List Scenario.Frame} {sent : List Http.Request}
  {answer : Answer}

theorem runs_reply_iff (result : Except Error Http.Reply) :
    World.Runs id frames w (.issuerToken source :: frames) (.give (.reply result)) sent answer ↔
      sent = [] ∧ answer = .credential (source.receive epoch result) := by
  have moves : w.advance id (.issuerToken source :: frames) (.give (.reply result)) =
      w.fetched frames (source.receive epoch result) := rfl
  have above : ∀ given, (Scenario.Frame.issuerToken source :: frames,
      Scenario.Job.give (.reply result)) ≠ (frames, .give given) :=
    fun _ same => List.cons_ne_self _ _ (congrArg Prod.fst same)
  rw [World.runs_quiet_iff moves above nofun rfl, World.runs_give_iff]

/-- A task that fetches from this source does what a fetch does, with the wire for a transport,
whatever other tasks do in between. -/
theorem runs_fetch_iff (own : w.sources[number]? = some (.issuerToken source)) :
    World.Runs id frames w frames (.fetch number) sent answer ↔
      (sent, answer) =
        ((source.fetch epoch fun request => (w.wire.answer request).1.result).1,
          .credential (source.fetch epoch fun request => (w.wire.answer request).1.result).2) := by
  have moves : w.advance id frames (.fetch number) = w.startFetch frames number := rfl
  simp only [World.startFetch, own] at moves
  rw [fetch, Prod.mk.injEq]
  cases built : source.request with
  | error error =>
      rw [built] at moves
      rw [World.runs_quiet_iff moves (World.ne_below fun _ same => nomatch same) nofun rfl,
        runs_reply_iff]
      rfl
  | ok request =>
      rw [built] at moves
      rw [World.runs_quiet_iff moves (World.ne_below fun _ same => nomatch same) nofun rfl,
        World.runs_send_iff (p := fun rest => rest = [] ∧ answer = .credential
          (source.receive epoch (w.wire.answer request).1.result))]
      · constructor
        · rintro ⟨rest, rfl, rfl, rfl⟩
          exact ⟨rfl, rfl⟩
        · rintro ⟨rfl, rfl⟩
          exact ⟨[], rfl, rfl, rfl⟩
      · intro later rest
        exact source.runs_reply_iff _
      · intro frame same
        have longer := congrArg List.length same
        simp only [List.length_cons] at longer
        omega

end Tasks

/-- A fetch sends one request, or none where it cannot be built, and never a second one. It gives a
credential exactly for a reply of success whose body is an object that grants it; otherwise the
first check that is not passed gives the error, and a code of expiry is no exception. A task that
fetches does just that. -/
theorem fetch_decided_by_reply [Url.Idna] (source : IssuerToken) (now : Time.Instant)
    (transport : Http.Request → Except Error Http.Reply) :
    (∀ error, source.request = .error error → source.fetch now transport = ([], .error error)) ∧
    (∀ request, source.request = .ok request →
      request = ⟨"GET", request.target, none, []⟩ ∧
      Http.targetOf (source.descriptor.tokenRequestUrl source.appId source.appSecret).text =
        .ok request.target ∧
      (source.fetch now transport).1 = [request] ∧
      source.Ends now (transport request) (source.fetch now transport).2 ∧
      ∀ c, (source.fetch now transport).2 = .ok c ↔ ∃ reply members,
        transport request = .ok reply ∧ (200 ≤ reply.status ∧ reply.status < 300) ∧
          Tree.ofBytes reply.body = .object members none ∧
          Grants now source.descriptor.codes.ok members c) ∧
    ∀ (w : Scenario.World) (id number : Nat) (frames : List Scenario.Frame) sent answer,
      w.sources[number]? = some (.issuerToken source) →
        (Scenario.World.Runs id frames w frames (.fetch number) sent answer ↔
          (sent, answer) =
            ((source.fetch Scenario.epoch fun request => (w.wire.answer request).1.result).1,
              .credential
                (source.fetch Scenario.epoch fun request =>
                  (w.wire.answer request).1.result).2)) := by
  refine ⟨?_, ?_, fun w id number frames sent answer own => source.runs_fetch_iff own⟩
  · intro error unbuilt
    rw [fetch, unbuilt]
  · intro request built
    obtain ⟨plain, sent⟩ := source.request_eq_ok built
    have fetched : source.fetch now transport =
        ([request], source.receive now (transport request)) := by
      rw [fetch, built]
    rw [fetched]
    exact ⟨plain, sent, rfl, source.ends_receive now _,
      fun c => source.receive_eq_ok_iff now (transport request)⟩

open Url.PlainNames in
/-- A fetch whose reply grants a token. -/
theorem fetch_of_granting_reply :
    let source := chosenSource 0
    let transport : Http.Request → Except Error Http.Reply := fun _ => .ok granting
    let request : Http.Request :=
      ⟨"GET", "https://issuer/token?appid=app&secret=secret", none, []⟩
    source.request = .ok request ∧
      (source.fetch Scenario.epoch transport).1 = [request] ∧
      ∃ c, (source.fetch Scenario.epoch transport).2 = .ok c ∧ c.value = "next" ∧
        ∃ members, Tree.ofBytes granting.body = .object members none ∧
          Grants Scenario.epoch 0 members c := by
  intro source transport request
  have built : source.request = .ok request := by
    simp only [source, request]
    cbv
  obtain ⟨-, fetched, -⟩ := source.fetch_decided_by_reply Scenario.epoch transport
  obtain ⟨-, -, sent, -, granted⟩ := fetched request built
  have ended : ((source.fetch Scenario.epoch transport).2.toOption.map Credential.value) =
      some "next" := by
    simp only [source, transport]
    cbv
  obtain ⟨c, given, value⟩ := Option.map_eq_some_iff.mp ended
  have done := toOption_eq_some.mp given
  obtain ⟨reply, members, replied, -, object, grants⟩ := (granted c).mp done
  cases replied
  exact ⟨built, sent, c, done, value, members, object, grants⟩

/-- An object that grants a token and has one more member, named by half of a surrogate pair. -/
theorem illegible_name_stops_fetch :
    let reply : Http.Reply := ⟨200, Text.utf8
      "\x7b\"\\ud800\":1,\"access_token\":\"tok\",\"expires_in\":7200\x7d"⟩
    (∃ members, Tree.ofBytes reply.body = .object members none ∧
        (Record.legible members).map Prod.fst = ["access_token", "expires_in"] ∧
        (∃ tree, (Record.legible members).lookup "access_token" = some tree ∧ tree.IsText "tok") ∧
        ∃ tree, (Record.legible members).lookup "expires_in" = some tree ∧ tree.IsInt64 7200) ∧
      (chosenSource 0).descriptor.codes.ok = 0 ∧
      (Grant.credential ⟨"tok", 7200⟩ Scenario.epoch).toOption.isSome ∧
      (chosenSource 0).request = .ok
        ⟨"GET", "https://issuer/token?appid=app&secret=secret", none, []⟩ ∧
      (chosenSource 0).fetch Scenario.epoch (fun _ => .ok reply) =
        ([⟨"GET", "https://issuer/token?appid=app&secret=secret", none, []⟩],
          .error (.decode ⟨[.unnamed], .malformed⟩ 200)) := by
  intro reply
  have built : (chosenSource 0).request = .ok
      ⟨"GET", "https://issuer/token?appid=app&secret=secret", none, []⟩ := by
    cbv
  refine ⟨⟨[(⟨[.unit 0xD800], none⟩, .number ⟨false, [1], none, none⟩),
      (plain "access_token", .string (plain "tok")),
      (plain "expires_in", .number ⟨false, [7, 2, 0, 0], none, none⟩)], rfl, rfl,
    ⟨_, rfl, _, rfl, rfl⟩, ⟨_, rfl, _, rfl, rfl, by decide, by decide⟩⟩, rfl, by decide +kernel,
    built, ?_⟩
  rw [fetch, built]
  rfl

end Source.IssuerToken

end Bearer

import Mathlib
import Bearer.Issuer.Draft
import Bearer.Proofs.Json.Record

/-!
Which descriptors send the secret safely. A draft is finished only as a sound descriptor. One that
is loaded is not checked: its parts are read one by one, as its document tells them, and it is sound
where a draft could have been finished as it. Where the secret is sent, the token endpoint alone
decides.
-/
namespace Bearer

/-- What is sent there goes over HTTPS or stays on the machine. -/
def Url.Guarded (url : Url) : Prop :=
  url.scheme = "https" ∨ ∃ host, url.host = some host ∧ host.isLoopback = true

namespace Issuer

theorem isSecure_iff (url : Url) : isSecure url = true ↔ url.Guarded := by
  simp [isSecure, Url.Guarded, Url.isLoopback, Option.any_eq_true]

namespace Descriptor

/-- What a draft has to fulfil to be finished. -/
structure Sound (d : Descriptor) : Prop where
  token : d.tokenEndpoint.Guarded
  base : d.apiBase.Guarded
  appId : d.params.appId ≠ ""
  appSecret : d.params.appSecret ≠ ""
  codes : d.codes.ok ∉ d.codes.expired

theorem fault?_eq_none_iff (d : Descriptor) : d.fault? = none ↔ d.Sound := by
  constructor
  · intro passed
    unfold fault? at passed
    split_ifs at passed with token base appId appSecret codes
    simp only [Bool.not_eq_true', Bool.not_eq_false] at token base
    exact ⟨(isSecure_iff _).mp token, (isSecure_iff _).mp base, appId, appSecret, codes⟩
  · intro sound
    simp [fault?, (isSecure_iff _).mpr sound.token, (isSecure_iff _).mpr sound.base, sound.appId,
      sound.appSecret, sound.codes]

/-- The draft of the same parts. -/
def draft (d : Descriptor) : Draft :=
  ⟨d.id, some d.tokenEndpoint, some d.apiBase, d.params, d.codes⟩

theorem sound_of_build {draft : Draft} {d : Descriptor} (built : draft.build = .ok d) :
    d.Sound := by
  unfold Draft.build at built
  split at built
  · cases built
  · simp only at built
    split at built
    · next passed =>
        cases built
        exact (fault?_eq_none_iff _).mp passed
    · cases built

theorem build_draft {d : Descriptor} (sound : d.Sound) : d.draft.build = .ok d := by
  have passed : d.fault? = none := d.fault?_eq_none_iff.mpr sound
  simp only [Draft.build, draft, Option.getD_some, passed]

theorem sound_iff_built (d : Descriptor) : d.Sound ↔ ∃ draft : Draft, draft.build = .ok d :=
  ⟨fun sound => ⟨d.draft, build_draft sound⟩, fun ⟨_, built⟩ => sound_of_build built⟩

theorem guarded_tokenRequestUrl (d : Descriptor) (app : AppId) (secret : AppSecret) :
    (d.tokenRequestUrl app secret).Guarded ↔ d.tokenEndpoint.Guarded :=
  Iff.rfl

theorem holds_params {tree : Json.Tree} {params : Params} (read : paramsReader tree = .ok params) :
    paramsRecord.Holds tree "app_id" Json.Reader.text params.appId ∧
      paramsRecord.Holds tree "app_secret" Json.Reader.text params.appSecret := by
  obtain ⟨entries, done, built⟩ := Json.Record.readAs_eq_ok.mp read
  simp only [Option.bind_eq_bind, Option.bind_eq_some_iff] at built
  obtain ⟨app, atApp, secret, atSecret, built⟩ := built
  cases built
  exact ⟨Json.Record.holds_of_read done atApp rfl, Json.Record.holds_of_read done atSecret rfl⟩

section Loading

variable [Url.Idna]

/-- Each part is what the document tells under its name. -/
structure WrittenIn (d : Descriptor) (tree : Json.Tree) : Prop where
  id : record.Holds tree "id" (Identifier.reader .issuer) d.id
  token : ∃ text, record.Holds tree "token_endpoint" Json.Reader.text text ∧
    Url.parse text = .ok d.tokenEndpoint
  base : ∃ text, record.Holds tree "api_base" Json.Reader.text text ∧
    Url.parse text = .ok d.apiBase
  params : ∃ inner, (record.named tree).lookup "credential_params" = some inner ∧
    paramsRecord.Holds inner "app_id" Json.Reader.text d.params.appId ∧
    paramsRecord.Holds inner "app_secret" Json.Reader.text d.params.appSecret
  codes : record.Holds tree "codes" Codes.reader d.codes

theorem holds_url {tree : Json.Tree} {name : String} {url : Url}
    (held : record.Holds tree name urlReader url) :
    ∃ text, record.Holds tree name Json.Reader.text text ∧ Url.parse text = .ok url := by
  obtain ⟨inner, under, read⟩ := held
  obtain ⟨text, told, parsed⟩ := Json.Reader.filterMap_eq_ok.mp read
  exact ⟨text, ⟨inner, under, told⟩, Json.toOption_eq_some.mp parsed⟩

theorem writtenIn_of_read {tree : Json.Tree} {d : Descriptor} (read : reader tree = .ok d) :
    d.WrittenIn tree := by
  obtain ⟨entries, done, built⟩ := Json.Record.readAs_eq_ok.mp read
  simp only [Option.bind_eq_bind, Option.bind_eq_some_iff] at built
  obtain ⟨_, atId, id, isId, _, atToken, token, isToken, _, atBase, base, isBase, _, atParams,
    params, isParams, _, atCodes, codes, isCodes, built⟩ := built
  cases built
  have heldToken : record.Holds tree "token_endpoint" urlReader token :=
    Json.Record.holds_of_wrapped (fun _ => rfl) done atToken rfl isToken
  have heldBase : record.Holds tree "api_base" urlReader base :=
    Json.Record.holds_of_wrapped (fun _ => rfl) done atBase rfl isBase
  have heldParams : record.Holds tree "credential_params" paramsReader params :=
    Json.Record.holds_of_wrapped (fun _ => rfl) done atParams rfl isParams
  exact {
    id := Json.Record.holds_of_wrapped (fun _ => rfl) done atId rfl isId
    token := holds_url heldToken
    base := holds_url heldBase
    params := heldParams.imp fun inner => And.imp_right holds_params
    codes := Json.Record.holds_of_wrapped (fun _ => rfl) done atCodes rfl isCodes }

section Object

variable {d : Descriptor} {idKey tokenKey baseKey paramsKey codesKey : Json.Quoted}
  {id token base params codes : Json.Tree}

/-- Parts that can be read one by one are read together, whatever is in them. -/
theorem reader_object
    (named : idKey.text = .ok "id" ∧ tokenKey.text = .ok "token_endpoint" ∧
      baseKey.text = .ok "api_base" ∧ paramsKey.text = .ok "credential_params" ∧
      codesKey.text = .ok "codes")
    (readId : Identifier.reader .issuer id = .ok d.id)
    (readToken : urlReader token = .ok d.tokenEndpoint)
    (readBase : urlReader base = .ok d.apiBase) (readParams : paramsReader params = .ok d.params)
    (readCodes : Codes.reader codes = .ok d.codes) :
    reader (.object [(idKey, id), (tokenKey, token), (baseKey, base), (paramsKey, params),
      (codesKey, codes)] none) = .ok d := by
  obtain ⟨atId, atToken, atBase, atParams, atCodes⟩ := named
  have entries : record.read (.object [(idKey, id), (tokenKey, token), (baseKey, base),
      (paramsKey, params), (codesKey, codes)] none) =
      .ok [("id", .id d.id), ("token_endpoint", .url d.tokenEndpoint), ("api_base", .url d.apiBase),
        ("credential_params", .params d.params), ("codes", .codes d.codes)] := by
    simp [Json.Record.read, Json.Record.ofMembers, record, List.lookup, atId, atToken, atBase,
      atParams, atCodes, readId, readToken, readBase, readParams, readCodes, Except.mapError,
      Functor.map, Except.map, bind, Except.bind, pure, Except.pure]
  exact Json.Record.readAs_eq_ok.mpr ⟨_, entries, rfl⟩

end Object

/-- A loaded descriptor has the parts that its document tells, each read by itself. It is sound
exactly where some draft is finished as it, which the draft of its own parts then is; and it sends
the secret over HTTPS or to the machine itself exactly where its token endpoint is such a place.
What a draft is finished as is sound, and always does. -/
theorem loaded_sound_iff (text : String) (d : Descriptor)
    (loaded : Json.decodeAll reader text = .ok d) :
    d.WrittenIn (Json.Tree.scan (Text.utf8 text)).1 ∧
      (d.Sound ↔ ∃ draft : Draft, draft.build = .ok d) ∧
      (d.Sound ↔ d.draft.build = .ok d) ∧
      (∀ app secret, (d.tokenRequestUrl app secret).Guarded ↔ d.tokenEndpoint.Guarded) ∧
      ∀ (draft : Draft) (built : Descriptor), draft.build = .ok built →
        built.Sound ∧ ∀ app secret, (built.tokenRequestUrl app secret).Guarded := by
  refine ⟨writtenIn_of_read (Json.decodeAll_eq_ok.mp loaded).1, d.sound_iff_built,
    ⟨build_draft, sound_of_build⟩, d.guarded_tokenRequestUrl, ?_⟩
  intro draft built finished
  have sound : built.Sound := sound_of_build finished
  exact ⟨sound, fun app secret => (built.guarded_tokenRequestUrl app secret).mpr sound.token⟩

end Loading

section Samples

open Url.PlainNames

/-- A document whose token endpoint has this scheme. -/
def document (scheme : String) : String :=
  "\x7b\"id\":\"x\",\"token_endpoint\":\"" ++ scheme ++ "://issuer.example.com/token\"," ++
    "\"api_base\":\"https://issuer.example.com/\"," ++
    "\"credential_params\":\x7b\"app_id\":\"appid\",\"app_secret\":\"secret\"\x7d," ++
    "\"codes\":\x7b\"ok\":0,\"expired\":[40001]\x7d\x7d"

/-- What is in that document. -/
def documented (scheme : String) : Descriptor where
  id := ⟨"x", by decide +kernel⟩
  tokenEndpoint :=
    ⟨scheme, "", none, some (.domain "issuer.example.com"), none, .segments ["token"], none, none⟩
  apiBase :=
    ⟨"https", "", none, some (.domain "issuer.example.com"), none, .segments [""], none, none⟩
  params := ⟨"appid", "secret"⟩
  codes := ⟨0, [40001]⟩

theorem document_loads :
    Json.decodeAll reader (document "https") = .ok (documented "https") ∧
      (documented "https").Sound ∧ ∃ draft : Draft, draft.build = .ok (documented "https") := by
  have loaded : Json.decodeAll reader (document "https") = .ok (documented "https") :=
    Json.toOption_eq_some.mp (by decide +kernel)
  obtain ⟨-, built, own, -⟩ := loaded_sound_iff (document "https") (documented "https") loaded
  have sound : (documented "https").Sound := own.mpr rfl
  exact ⟨loaded, sound, built.mp sound⟩

/-- The same document with plain HTTP is loaded, no draft is finished as what is in it, and every
request for a credential sends the secret without protection. -/
theorem insecure_document_loads :
    Json.decodeAll reader (document "http") = .ok (documented "http") ∧
      ¬(documented "http").Sound ∧
      (documented "http").draft.build =
        .error (.insecureEndpoint .token "http://issuer.example.com/token") ∧
      (∀ draft : Draft, draft.build ≠ .ok (documented "http")) ∧
      ∀ app secret, ¬((documented "http").tokenRequestUrl app secret).Guarded := by
  have loaded : Json.decodeAll reader (document "http") = .ok (documented "http") :=
    Json.toOption_eq_some.mp (by decide +kernel)
  have refused : (documented "http").draft.build =
      .error (.insecureEndpoint .token "http://issuer.example.com/token") := rfl
  have open_ : ¬(documented "http").tokenEndpoint.Guarded := by
    rw [← isSecure_iff]
    decide
  have unsound : ¬(documented "http").Sound := fun sound => open_ sound.token
  exact ⟨loaded, unsound, refused, fun _ built => unsound (sound_of_build built),
    fun app secret => mt (guarded_tokenRequestUrl _ app secret).mp open_⟩

end Samples

end Descriptor

end Issuer

end Bearer

import Mathlib
import Bearer.Proofs.Http.Target
import Bearer.Proofs.Source.Fetch

/-!
The URL that asks for a token. Two pairs are added to the query of the token endpoint, and nothing
else is changed; whatever the names and the secrets consist of, what is added is read as these two
pairs and begins neither a third nor a fragment.
-/
namespace Bearer

namespace Url

/-- What is written for a pair behind a query: an ampersand first, unless the query holds
nothing. -/
def joint (query pair : String) : String :=
  if query = "" then pair else "&" ++ pair

theorem appendPair_eq (url : Url) (name value : String) :
    url.appendPair name value =
      { url with
        query := some (url.query.getD "" ++ joint (url.query.getD "") (pairText name value)) } := by
  rw [appendPair, joint]
  cases url.query with
  | none => simp [pairText]
  | some query =>
      by_cases empty : query = ""
      · simp [empty, pairText]
      · simp [empty, pairText, String.append_assoc]

theorem joint_of_ne {query : String} (written : query ≠ "") (pair : String) :
    joint query pair = "&" ++ pair :=
  if_neg written

theorem joint_eq_empty {query pair : String} (empty : joint query pair = "") : pair = "" := by
  rw [joint] at empty
  split at empty
  · exact empty
  · exact (String.append_eq_empty_iff.mp empty).2

theorem pairText_ne_empty {name value : String} : pairText name value ≠ "" := by
  intro empty
  have equals : '=' ∈ (pairText name value).toList := by
    rw [pairText, String.toList_ofList]
    exact List.mem_append_right _ List.mem_cons_self
  rw [empty] at equals
  cases equals

theorem formPairs_joint (query : String) (name value : String) :
    formPairs (query ++ joint query (pairText name value)) =
      formPairs query ++ [(name, value)] := by
  rw [joint]
  split
  · next empty =>
      have none : formPairs "" = [] := by decide +kernel
      rw [empty, String.empty_append, formPairs_pairText, none, List.nil_append]
  · rw [← String.append_assoc, formPairs_parted, formPairs_pairText]

theorem mem_pairText {name value : String} {c : Char} (member : c ∈ (pairText name value).toList) :
    FormChar c := by
  rw [pairText, String.toList_ofList, List.mem_append, List.mem_cons] at member
  rcases member with written | rfl | written
  · exact formChar_of_mem written
  · decide
  · exact formChar_of_mem written

end Url

namespace Issuer.Descriptor

/-- What is added to the query of the token endpoint. -/
def credentials (d : Descriptor) (app : AppId) (secret : AppSecret) : String :=
  Url.joint (d.tokenEndpoint.query.getD "") (Url.pairText d.params.appId app.text) ++ "&" ++
    Url.pairText d.params.appSecret secret.exposed

variable (d : Descriptor) (app : AppId) (secret : AppSecret)

theorem tokenRequestUrl_eq :
    d.tokenRequestUrl app secret =
      { d.tokenEndpoint with
        query := some (d.tokenEndpoint.query.getD "" ++ d.credentials app secret) } := by
  have written : d.tokenEndpoint.query.getD "" ++ Url.joint (d.tokenEndpoint.query.getD "")
      (Url.pairText d.params.appId app.text) ≠ "" := fun empty =>
    Url.pairText_ne_empty (Url.joint_eq_empty (String.append_eq_empty_iff.mp empty).2)
  rw [tokenRequestUrl, Url.appendPair_eq, Url.appendPair_eq, Option.getD_some,
    Url.joint_of_ne written, credentials]
  simp only [String.append_assoc]

theorem formPairs_credentials :
    Url.formPairs (d.tokenEndpoint.query.getD "" ++ d.credentials app secret) =
      d.tokenEndpoint.query.elim [] Url.formPairs ++
        [(d.params.appId, app.text), (d.params.appSecret, secret.exposed)] := by
  have before : Url.formPairs (d.tokenEndpoint.query.getD "") =
      d.tokenEndpoint.query.elim [] Url.formPairs := by
    cases d.tokenEndpoint.query with
    | none => decide +kernel
    | some query => rfl
  rw [credentials, ← String.append_assoc, ← String.append_assoc, Url.formPairs_parted,
    Url.formPairs_joint, Url.formPairs_pairText, before, List.append_assoc]
  rfl

theorem mem_credentials {c : Char} (member : c ∈ (d.credentials app secret).toList) :
    c ≠ '#' ∧ c ≠ '?' := by
  have inert : ∀ {name value}, c ∈ (Url.pairText name value).toList → c ≠ '#' ∧ c ≠ '?' := by
    intro name value member
    have separates := (Url.mem_pairText member).separates
    simp only [List.mem_cons, List.not_mem_nil, or_false, not_or] at separates
    exact ⟨separates.1, separates.2.1⟩
  have ampersand : c ∈ "&".toList → c ≠ '#' ∧ c ≠ '?' := by
    intro member
    rw [List.mem_singleton.mp member]
    decide
  rw [credentials, Url.joint] at member
  split at member
  all_goals
    simp only [String.toList_append, List.mem_append] at member
  · exact member.elim (·.elim inert ampersand) inert
  · exact member.elim (·.elim (·.elim ampersand inert) ampersand) inert

theorem plain_tokenRequestUrl [Url.Idna] {text : String}
    (read : Url.parse text = .ok d.tokenEndpoint) :
    (d.tokenRequestUrl app secret).Plain := by
  have plain := Url.plain_of_parse read
  refine ⟨plain.base, ?_⟩
  have unsigned : '#' ∉ (d.tokenEndpoint.query.getD "").toList := by
    have whole := plain.query
    rw [Url.queryText] at whole
    cases asked : d.tokenEndpoint.query with
    | none => exact List.not_mem_nil
    | some query =>
        rw [asked, String.toList_append] at whole
        exact fun member => whole (List.mem_append_right _ member)
  have added : '#' ∉ (d.credentials app secret).toList := fun member =>
    (d.mem_credentials app secret member).1 rfl
  have mark : '#' ∉ "?".toList := by decide
  rw [tokenRequestUrl_eq, Url.queryText]
  simp only [String.toList_append, List.mem_append, not_or]
  exact ⟨mark, unsigned, added⟩

/-- Whatever the token endpoint is and whatever the names and the secrets consist of: the query is
continued, all else of the endpoint stays, and the pairs that are read from the new query are the old
ones and these two. Where the endpoint was read from a text, the query and the fragment of the URL
that is written begin where those of the endpoint do, and the whole query is sent. -/
theorem token_request_adds_two_pairs [Url.Idna] :
    ∃ query added,
      d.tokenRequestUrl app secret = { d.tokenEndpoint with query := some query } ∧
      query = d.tokenEndpoint.query.getD "" ++ added ∧
      Url.formPairs query = d.tokenEndpoint.query.elim [] Url.formPairs ++
        [(d.params.appId, app.text), (d.params.appSecret, secret.exposed)] ∧
      (∀ c ∈ added.toList, c ≠ '#' ∧ c ≠ '?') ∧
      ∀ text, Url.parse text = .ok d.tokenEndpoint →
        Url.cutAt '#' (d.tokenRequestUrl app secret).text.toList =
            (d.tokenEndpoint.baseText.toList ++ '?' :: query.toList,
              d.tokenEndpoint.fragment.map String.toList) ∧
          Url.cutAt '?' (d.tokenEndpoint.baseText.toList ++ '?' :: query.toList) =
            (d.tokenEndpoint.baseText.toList, some query.toList) ∧
          ∀ request, (⟨d, app, secret⟩ : Source.IssuerToken).request = .ok request →
            (Url.cutAt '?' request.target.toList).2 = some query.toList := by
  have whole := d.tokenRequestUrl_eq app secret
  refine ⟨_, _, whole, rfl, d.formPairs_credentials app secret,
    fun c member => d.mem_credentials app secret member, ?_⟩
  intro text read
  have plain := d.plain_tokenRequestUrl app secret read
  have queryText : (d.tokenRequestUrl app secret).queryText.toList =
      '?' :: (d.tokenEndpoint.query.getD "" ++ d.credentials app secret).toList := by
    rw [whole, Url.queryText, String.toList_append]
    rfl
  obtain ⟨signed, marked⟩ := Http.cutAt_text plain
  rw [queryText] at signed marked
  rw [whole] at signed marked ⊢
  refine ⟨signed, marked, ?_⟩
  intro request built
  obtain ⟨-, sent⟩ := (⟨d, app, secret⟩ : Source.IssuerToken).request_eq_ok built
  rw [whole] at plain
  refine Http.cutAt_of_plain plain rfl ?_
  rw [← whole]
  exact sent

open Url.PlainNames in
/-- A query that ends with an ampersand and a fragment stay where they are, and what the secret
consists of is escaped. -/
theorem token_request_to_marked_endpoint :
    let endpoint : Url :=
      ⟨"https", "", none, some (.domain "issuer.example.com"), none, .segments ["token"],
        some "a=1&", some "part"⟩
    let d : Descriptor :=
      ⟨⟨"issuer", by decide +kernel⟩, endpoint, endpoint.origin, ⟨"app id", "key"⟩, .default⟩
    let app : AppId := ⟨"wx#1", by decide +kernel⟩
    let secret : AppSecret := ⟨"s&key=?"⟩
    let target := "https://issuer.example.com/token?a=1&&app+id=wx%231&key=s%26key%3D%3F"
    Url.parse "https://issuer.example.com/token?a=1&#part" = .ok endpoint ∧
      (⟨d, app, secret⟩ : Source.IssuerToken).request = .ok ⟨"GET", target, none, []⟩ ∧
      ∃ query, d.tokenRequestUrl app secret = { endpoint with query := some query } ∧
        Url.formPairs query = [("a", "1"), ("app id", "wx#1"), ("key", "s&key=?")] ∧
        (Url.cutAt '#' (d.tokenRequestUrl app secret).text.toList).2 = some "part".toList ∧
        (Url.cutAt '?' target.toList).2 = some query.toList := by
  intro endpoint d app secret target
  have read : Url.parse "https://issuer.example.com/token?a=1&#part" = .ok endpoint := by
    simp only [endpoint]
    cbv
  have written : (d.tokenRequestUrl app secret).text = target ++ "#part" := by decide +kernel
  have built : (⟨d, app, secret⟩ : Source.IssuerToken).request = .ok ⟨"GET", target, none, []⟩ := by
    have sent : Http.targetOf (d.tokenRequestUrl app secret).text = .ok target := by
      rw [written]
      simp only [target]
      cbv
    simp only [Source.IssuerToken.request, Http.Request.build, sent]
    rfl
  have old : Url.formPairs "a=1&" = [("a", "1")] := by decide +kernel
  obtain ⟨query, added, whole, -, pairs, -, placed⟩ := token_request_adds_two_pairs d app secret
  obtain ⟨signed, -, sent⟩ := placed _ read
  refine ⟨read, built, query, whole, ?_, ?_, sent _ built⟩
  · rw [pairs]
    exact congrArg (· ++ _) old
  · rw [signed]
    rfl

end Issuer.Descriptor

end Bearer

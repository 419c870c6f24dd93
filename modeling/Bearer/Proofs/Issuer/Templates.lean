import Mathlib
import Bearer.Proofs.Client.Slot
import Bearer.Proofs.Issuer.Settings
import Bearer.Proofs.Url.Relative

/-!
Where the templates of an issuer lead. A path that names no place of its own leads to the site of
the issuer's interface with every credential, and so over HTTPS or to the machine itself. A path
that names one leads there, and the issuer has no part in it.
-/
namespace Bearer

namespace Url

/-- Both URLs are guarded, or neither. -/
theorem SameSite.guarded {url other : Url} (same : SameSite url other) (guarded : other.Guarded) :
    url.Guarded := by
  rw [Guarded, same.scheme, same.host]
  exact guarded

theorem SameSite.siteText {url other : Url} {host : Host} (same : SameSite url other)
    (hosted : other.host = some host) : url.siteText = other.siteText := by
  simp [Url.siteText, authorityText, userinfoText, portText, same.scheme, same.username,
    same.password, same.host, same.port, hosted]

theorem SameSite.symm {url other : Url} (same : SameSite url other) : SameSite other url :=
  ⟨same.scheme.symm, same.username.symm, same.password.symm, same.host.symm, same.port.symm⟩

theorem sameSite_origin (url : Url) : SameSite url.origin url :=
  ⟨rfl, rfl, rfl, rfl, rfl⟩

/-- The text of a host that is the machine itself ends with no equals sign. -/
theorem Host.machine_text {host : Host} (machine : host.isLoopback = true) :
    host.text.toList ≠ [] ∧ '=' ∉ host.text.toList := by
  have unwritten : '=' ∉ addressChars := by decide
  cases host with
  | domain name =>
      rw [isLoopback, decide_eq_true_eq] at machine
      constructor
      · intro empty
        rw [show name.toList = [] from empty] at machine
        cases machine
      · intro member
        have lower : '='.toLower ∈ name.toList.map Char.toLower := List.mem_map_of_mem member
        rw [machine] at lower
        revert lower
        decide
  | ipv4 address =>
      rw [isLoopback, decide_eq_true_eq, Nat.shiftRight_eq_div_pow] at machine
      refine ⟨ipv4_ne_nil (by omega), fun member => unwritten (mem_address ?_ member)⟩
      intro name same
      cases same
  | ipv6 groups =>
      rw [toList_ipv6]
      refine ⟨List.cons_ne_nil _ _, fun member => unwritten ?_⟩
      rw [← toList_ipv6] at member
      refine mem_address ?_ member
      intro name same
      cases same

/-- The machine itself is not a host without a name. -/
theorem Guarded.named {url : Url} {host : Host} (guarded : url.Guarded)
    (hosted : url.host = some host) (file : url.scheme = "file") : host ≠ .domain "" := by
  rintro rfl
  rcases guarded with https | ⟨other, same, machine⟩
  · exact absurd (file.symm.trans https) (by decide)
  · cases hosted.symm.trans same
    cases machine

theorem isSpecial_of_https {url : Url} (https : url.scheme = "https") : url.isSpecial = true := by
  rw [isSpecial, https]
  decide

/-- A guarded URL that was read has a site. -/
theorem Guarded.sited [Idna] {url : Url} {text : String} (guarded : url.Guarded)
    (read : parse text = .ok url) : ∃ host, url.Sited host := by
  rcases sited_of_parse read with hostless | sited
  · rcases guarded with https | ⟨host, hosted, -⟩
    · have special := isSpecial_of_https https
      exact absurd hostless.hostless ((founded_of_parse read).special special)
    · cases hostless.hostless.symm.trans hosted
  · exact sited

section Slots

variable {base url : Url} {host : Host}

theorem SameSite.toList_text (same : SameSite url base) (hosted : base.host = some host) :
    url.text.toList = base.siteText.toList ++
      (url.path.text ++ url.queryText ++ url.fragmentText).toList := by
  rw [← same.siteText hosted, Url.text, baseText, ← Url.siteText]
  simp

theorem equals_not_mem_portText (url : Url) : '=' ∉ url.portText.toList := by
  rw [toList_portText]
  cases url.port with
  | none => exact List.not_mem_nil
  | some n =>
      refine List.not_mem_cons_of_ne_of_not_mem (by decide) fun digit => ?_
      exact absurd (mem_addressChars_of_digits (by decide) (by decide) digit) (by decide)

/-- The site of a URL at the machine itself ends with no equals sign. -/
theorem Sited.no_slot [Idna] (sited : base.Sited host) (machine : host.isLoopback = true) :
    base.siteText.toList.getLast? ≠ some '=' := by
  intro slot
  obtain ⟨written, absent⟩ := Host.machine_text machine
  have behind : host.text.toList ++ base.portText.toList ≠ [] :=
    List.append_ne_nil_of_left_ne_nil written _
  have parts : base.siteText.toList =
      (base.scheme.toList ++ ':' :: '/' :: '/' :: base.userinfoText.toList) ++
        (host.text.toList ++ base.portText.toList) := by
    rw [sited.toList_siteText, placeText]
    simp
  rw [parts, List.getLast?_append_of_ne_nil _ behind] at slot
  exact List.not_mem_append absent base.equals_not_mem_portText (List.mem_of_getLast? slot)

/-- Something stands behind the site of a guarded URL whose text ends with an equals sign. -/
theorem Guarded.slot_behind [Idna] (guarded : base.Guarded) (sited : base.Sited host)
    (rooted : url.path.Rooted base.isSpecial) (same : SameSite url base)
    (slot : url.text.toList.getLast? = some '=') :
    (url.path.text ++ url.queryText ++ url.fragmentText).toList ≠ [] := by
  intro empty
  have path : url.path.text = "" := by
    rw [String.toList_append, String.toList_append] at empty
    exact String.toList_eq_nil_iff.mp
      (List.append_eq_nil_iff.mp (List.append_eq_nil_iff.mp empty).1).1
  -- With an empty path the scheme is not special, so it is the host that the URL is guarded by.
  have machine : host.isLoopback = true := by
    rcases guarded with https | ⟨other, hosted, machine⟩
    · exact absurd path (rooted.text_ne_empty (isSpecial_of_https https))
    · cases sited.hosted.symm.trans hosted
      exact machine
  rw [same.toList_text sited.hosted, empty, List.append_nil] at slot
  exact sited.no_slot machine slot

end Slots

end Url

namespace Template

variable [Url.Idna]

theorem ofText_eq_ok_iff {text : String} {template : Template} :
    ofText text = .ok template ↔ template.text = text := by
  constructor
  · intro made
    rw [ofText] at made
    split at made
    · split at made
      · cases made
        rfl
      · cases made
    · cases made
  · rintro rfl
    exact template.ofText_text

theorem toList_completedText (template : Template) (credential : String) :
    (template.completedText credential).toList =
      template.text.toList ++ Url.formEncode credential.toList := by
  rw [completedText, String.toList_append, String.toList_ofList]

end Template

namespace Issuer

theorem mem_of_lastSet {α : Type} {pick : Setting → Option α} {settings : List Setting} {value : α}
    (last : lastSet pick settings = some value) : ∃ setting ∈ settings, pick setting = some value :=
  List.mem_filterMap.mp (List.mem_of_getLast? last)

section Built

variable [Url.Idna] {id : IssuerId} {settings : List Setting} {d : Descriptor}
  (read : ∀ url, .tokenEndpoint url ∈ settings ∨ .apiBase url ∈ settings →
    ∃ text, Url.parse text = .ok url)
  (built : ((Draft.create id).setAll settings).build = .ok d)
include read built

/-- The interface of a descriptor is at a site of its settings, which was read from a text. -/
theorem exists_site_read :
    ∃ text url, Url.parse text = .ok url ∧ Url.SameSite d.apiBase url ∧ d.apiBase.Founded := by
  have comes := Draft.comesTo_setAll id settings
  obtain ⟨finished, -⟩ := (Draft.build_eq_ok_iff _ d).mp built
  obtain ⟨token, given, rfl⟩ := Option.map_eq_some_iff.mp finished
  rw [Draft.finished, comes.apiBase]
  cases set : lastSet Setting.apiBase? settings with
  | some base =>
      obtain ⟨setting, member, same⟩ := mem_of_lastSet set
      have member : .apiBase base ∈ settings := by
        cases setting <;> cases same
        exact member
      obtain ⟨text, parsed⟩ := read base (.inr member)
      exact ⟨text, base, parsed, ⟨rfl, rfl, rfl, rfl, rfl⟩, Url.founded_of_parse parsed⟩
  | none =>
      rw [comes.tokenEndpoint] at given
      obtain ⟨setting, member, same⟩ := mem_of_lastSet given
      have member : .tokenEndpoint token ∈ settings := by
        cases setting <;> cases same
        exact member
      obtain ⟨text, parsed⟩ := read token (.inl member)
      exact ⟨text, token, parsed, token.sameSite_origin,
        Url.founded_origin (Url.founded_of_parse parsed)⟩

/-- A finished descriptor has an interface at a site with a name. -/
theorem exists_sited : ∃ host, d.apiBase.Sited host ∧ d.apiBase.Founded ∧
    (d.apiBase.scheme = "file" → host ≠ .domain "") := by
  have guarded := (Descriptor.sound_of_build built).base
  obtain ⟨text, url, parsed, same, founded⟩ := exists_site_read read built
  obtain ⟨host, sited⟩ := (same.symm.guarded guarded).sited parsed
  have own := sited.of_sameSite same
  exact ⟨host, own, founded, guarded.named own.hosted⟩

end Built

theorem Descriptor.apiTemplate_eq_ok_iff [Url.Idna] {d : Descriptor} {path : String} {template : Template} :
    d.apiTemplate path = .ok template ↔
      ∃ url, d.apiBase.resolve path = .ok url ∧ template.text = url.text := by
  refine Json.bind_eq_ok.trans (exists_congr fun url => ?_)
  rw [Json.mapError_eq_ok, Template.ofText_eq_ok_iff]

/-- What stands behind the site of a URL can be written there. -/
theorem behindSite_written {url : Url} {special : Bool} (rooted : url.path.Rooted special)
    (more : List Char)
    (written : (url.path.text ++ url.queryText ++ url.fragmentText).toList ≠ []) :
    Url.BehindSite ((url.path.text ++ url.queryText ++ url.fragmentText).toList ++ more) := by
  have path := rooted.head
  intro c first
  rw [List.head?_append_of_ne_nil _ written, String.toList_append, String.toList_append] at first
  cases start : url.path.text.toList with
  | cons d rest =>
      rw [start] at first path
      cases first
      exact .inl (path c rfl)
  | nil =>
      rw [start, Url.queryText, Url.fragmentText] at first
      cases asked : url.query with
      | some query =>
          rw [asked, String.toList_append] at first
          cases first
          exact .inr (.inl rfl)
      | none =>
          rw [asked] at first
          cases marked : url.fragment with
          | some fragment =>
              rw [marked, String.toList_append] at first
              cases first
              exact .inr (.inr rfl)
          | none =>
              rw [marked] at first
              cases first

/-- Where a path leads that names no place, and where one leads that does. The first leads to the
site of the issuer's interface, with every credential: over HTTPS or to the machine itself, and what
is sent is sent there. The second leads where it does whatever the interface is, but for its scheme.
Below a file a path that begins with a drive leads nowhere else. -/
theorem template_stays_with_issuer [Url.Idna] (id : IssuerId) (settings : List Setting)
    (d : Descriptor) (read : ∀ url, .tokenEndpoint url ∈ settings ∨ .apiBase url ∈ settings →
      ∃ text, Url.parse text = .ok url)
    (built : ((Draft.create id).setAll settings).build = .ok d) (path : String) :
    (d.apiBase.Stays path → ∀ template, d.apiTemplate path = .ok template →
      ∀ credential, ∃ completed, template.complete credential = .ok completed ∧
        ((d.apiBase.scheme = "file" → ¬completed.path.BeginsWithDrive) →
          completed.SameSite d.apiBase ∧ completed.Guarded ∧
            ∀ plan : Plan, plan.template = template → ∀ request,
              plan.request credential = .ok request →
                ∃ behind, request.target = d.apiBase.siteText ++ "/" ++ behind)) ∧
      (¬d.apiBase.Stays path → ∀ other : Url, other.scheme = d.apiBase.scheme →
        other.path.isOpaque = false → other.resolve path = d.apiBase.resolve path) := by
  obtain ⟨host, sited, founded, named⟩ := exists_sited read built
  have guarded := (Descriptor.sound_of_build built).base
  have below : d.apiBase.path.Rooted d.apiBase.isSpecial :=
    founded.rooted (by rw [sited.hosted]; nofun)
  constructor
  · intro stays template made credential
    obtain ⟨url, resolved, text⟩ := Descriptor.apiTemplate_eq_ok_iff.mp made
    obtain ⟨same, rooted⟩ := Url.resolve_stays sited founded named stays resolved
    have slot : url.text.toList.getLast? = some '=' := text ▸ of_decide_eq_true template.slot
    have whole := same.toList_text sited.hosted
    have written := guarded.slot_behind sited rooted same slot
    obtain ⟨completed, parsed, site⟩ := sited.exists_parse named
      (behindSite_written rooted (Url.formEncode credential.toList) written)
    have completedText : template.completedText credential = String.ofList
        (d.apiBase.siteText.toList ++
          ((url.path.text ++ url.queryText ++ url.fragmentText).toList ++
            Url.formEncode credential.toList)) := by
      rw [← String.toList_inj, template.toList_completedText, text, whole, String.toList_ofList,
        List.append_assoc]
    rw [← completedText] at parsed
    have completes : template.complete credential = .ok completed :=
      Json.mapError_eq_ok.mpr parsed
    refine ⟨completed, completes, fun drive => ?_⟩
    have home := site drive
    refine ⟨home, home.guarded guarded, ?_⟩
    rintro plan rfl request sent
    obtain ⟨own, done, target, -⟩ := Template.target_of_request sent
    cases completes.symm.trans done
    rw [← home.siteText sited.hosted]
    exact Http.target_site (sited.of_sameSite home) parsed target
  · intro leaves other scheme segments
    obtain ⟨names, whole, -⟩ := below
    exact Url.resolve_leaves leaves scheme (by rw [whole]; rfl) segments

section Samples

open Url.PlainNames

/-- An issuer that is asked over HTTPS. -/
def sampleIssuer : Descriptor :=
  ⟨sampleDescriptor.id, sampleEndpoint, sampleEndpoint.origin, ⟨"appid", "secret"⟩, .default⟩

theorem parse_sampleEndpoint :
    Url.parse "https://issuer.example.com/token" = .ok sampleEndpoint := by
  simp only [sampleEndpoint]
  cbv

theorem build_sampleIssuer :
    ((Draft.create sampleDescriptor.id).setAll [.tokenEndpoint sampleEndpoint]).build =
      .ok sampleIssuer :=
  rfl

theorem read_sampleEndpoint (url : Url)
    (set : .tokenEndpoint url ∈ [Setting.tokenEndpoint sampleEndpoint] ∨
      .apiBase url ∈ [Setting.tokenEndpoint sampleEndpoint]) :
    ∃ text, Url.parse text = .ok url := by
  rcases set with token | base
  · cases List.mem_singleton.mp token
    exact ⟨_, parse_sampleEndpoint⟩
  · cases List.mem_singleton.mp base

/-- A path that steps out of its place stays with the issuer, and what is sent is sent there. -/
theorem template_below_issuer :
    let template : Template :=
      ⟨"https://issuer.example.com/menu?a=1&access_token=", by decide +kernel, by decide +kernel⟩
    let plan : Plan := ⟨"GET", template, none, .default⟩
    let path := "../menu?a=1&access_token="
    let target := "https://issuer.example.com/menu?a=1&access_token=tok"
    sampleIssuer.apiBase.Stays path ∧ sampleIssuer.apiTemplate path = .ok template ∧
      plan.request "tok" = .ok ⟨"GET", target, none, []⟩ ∧
      ∃ completed, template.complete "tok" = .ok completed ∧
        completed.SameSite sampleIssuer.apiBase ∧ completed.Guarded ∧
        ∃ behind, target = sampleIssuer.apiBase.siteText ++ "/" ++ behind := by
  intro template plan path target
  have stays : sampleIssuer.apiBase.Stays path :=
    ⟨"../menu".toList, by decide +kernel, by decide +kernel, fun file => absurd file (by decide)⟩
  have made : sampleIssuer.apiTemplate path = .ok template :=
    Descriptor.apiTemplate_eq_ok_iff.mpr
      ⟨⟨"https", "", none, some (.domain "issuer.example.com"), none, .segments ["menu"],
        some "a=1&access_token=", none⟩, Json.toOption_eq_some.mp (by decide +kernel),
        by decide +kernel⟩
  have sent : plan.request "tok" = .ok ⟨"GET", target, none, []⟩ := by
    simp only [plan, template, target]
    cbv
  obtain ⟨completed, done, site⟩ := (template_stays_with_issuer _ _ sampleIssuer
    read_sampleEndpoint build_sampleIssuer path).1 stays template made "tok"
  obtain ⟨same, guarded, place⟩ := site fun file => absurd file (by decide)
  exact ⟨stays, made, sent, completed, done, same, guarded, place plan rfl _ sent⟩

/-- Paths that name a place leave the issuer, be it for another host or for plain HTTP. -/
theorem named_path_leaves_issuer :
    let template : Template :=
      ⟨"http://other.example.com/x?access_token=", by decide +kernel, by decide +kernel⟩
    let url : Url := ⟨"http", "", none, some (.domain "other.example.com"), none, .segments ["x"],
      some "access_token=", none⟩
    ((Draft.create sampleDescriptor.id).setAll [.tokenEndpoint sampleEndpoint]).build =
        .ok sampleIssuer ∧
      sampleIssuer.apiTemplate "http://other.example.com/x?access_token=" = .ok template ∧
      Url.parse template.text = .ok url ∧ url.scheme ≠ sampleIssuer.apiBase.scheme ∧
      url.host ≠ sampleIssuer.apiBase.host ∧ ¬url.Guarded ∧
      (⟨"GET", template, none, .default⟩ : Plan).request "tok" =
        .ok ⟨"GET", "http://other.example.com/x?access_token=tok", none, []⟩ := by
  intro template url
  have made : sampleIssuer.apiTemplate "http://other.example.com/x?access_token=" = .ok template :=
    Descriptor.apiTemplate_eq_ok_iff.mpr
      ⟨url, Json.toOption_eq_some.mp (by decide +kernel), by decide +kernel⟩
  have parsed : Url.parse template.text = .ok url := Json.toOption_eq_some.mp (by decide +kernel)
  have unguarded : ¬url.Guarded := by
    rw [← isSecure_iff]
    decide +kernel
  have sent : (⟨"GET", template, none, .default⟩ : Plan).request "tok" =
      .ok ⟨"GET", "http://other.example.com/x?access_token=tok", none, []⟩ := by
    simp only [template]
    cbv
  exact ⟨build_sampleIssuer, made, parsed, by decide, by decide, unguarded, sent⟩

end Samples

end Issuer

end Bearer

import Mathlib
import Bearer.Http.Target
import Bearer.Proofs.Url.Reread

/-!
What is sent for a URL: its text up to the fragment, with a slash behind a host that no path
follows.
-/
namespace Bearer.Http

open Json (bind_eq_ok guarded_eq_ok pure_eq_ok)
open Url (Mark cutAt cutAt_append_absent drop_takeWhile drop_takeWhile_append toList_segments)

section Tails

/-- A text that begins with a mark, if it holds anything. -/
def Marked (tail : List Char) : Prop :=
  ∀ d ∈ tail.head?, Mark d

variable {base tail : List Char} (marked : Marked tail)

include marked

theorem Marked.takeWhile_append {p : Char → Bool} (stops : ∀ d, Mark d → p d = false) :
    (base ++ tail).takeWhile p = base.takeWhile p := by
  cases tail with
  | nil => rw [List.append_nil]
  | cons d rest =>
      have first := stops d (marked d rfl)
      induction base with
      | nil =>
          rw [List.nil_append, List.takeWhile_cons_of_neg (by simp [first]), List.takeWhile_nil]
      | cons c more ih => simp only [List.cons_append, List.takeWhile_cons, ih]

theorem Marked.dropWhile_append {p : Char → Bool} (stops : ∀ d, Mark d → p d = false) :
    (base ++ tail).dropWhile p = base.dropWhile p ++ tail := by
  rw [← drop_takeWhile, marked.takeWhile_append stops, drop_takeWhile_append]

/-- Behind a mark stands a query up to the first number sign, or a fragment. -/
theorem Marked.cutAt_eq : ∃ query,
    cutAt '?' (cutAt '#' tail).1 = ([], query) ∧
      (cutAt '#' tail).1 = query.elim [] ('?' :: ·) := by
  cases tail with
  | nil => exact ⟨none, rfl, rfl⟩
  | cons d rest =>
      cases marked d rfl with
      | query => exact ⟨some (cutAt '#' rest).1, rfl, rfl⟩
      | fragment => exact ⟨none, rfl, rfl⟩

end Tails

section Schemes

/-- A scheme stands in front of a colon and two slashes. -/
theorem schemeOf_eq (text : List Char) :
    schemeOf text =
      match text.dropWhile Url.isSchemeChar with
      | ':' :: '/' :: '/' :: rest =>
        if (text.takeWhile Url.isSchemeChar).length > maxSchemeLength then .error .schemeTooLong
        else .ok (some (text.takeWhile Url.isSchemeChar, rest))
      | _ => .ok none := by
  rw [← drop_takeWhile]
  rfl

theorem schemeOf_eq_some {text scheme rest : List Char}
    (read : schemeOf text = .ok (some (scheme, rest))) :
    text = scheme ++ "://".toList ++ rest := by
  rw [schemeOf_eq] at read
  split at read
  · next behind cut =>
      split at read
      · cases read
      · cases read
        conv_lhs => rw [← List.takeWhile_append_dropWhile (p := Url.isSchemeChar) (l := text), cut]
        rw [List.append_assoc]
        rfl
  · cases read

/-- A colon and two slashes are not taken from behind a mark. -/
theorem Marked.slashes {behind tail rest : List Char} (marked : Marked tail)
    (cut : behind ++ tail = ':' :: '/' :: '/' :: rest) :
    ∃ more, behind = ':' :: '/' :: '/' :: more ∧ rest = more ++ tail := by
  have headless : ∀ {more}, tail ≠ ':' :: more ∧ tail ≠ '/' :: more := by
    intro more
    constructor
    all_goals
      rintro rfl
      cases marked _ rfl
  match behind with
  | [] => exact absurd cut headless.1
  | [c] => exact absurd (List.cons.inj cut).2 headless.2
  | [c, d] => exact absurd (List.cons.inj (List.cons.inj cut).2).2 headless.2
  | c :: d :: e :: more =>
      cases cut
      exact ⟨more, rfl, rfl⟩

/-- The scheme of a text is read in front of the first mark. -/
theorem schemeOf_append (base : List Char) {tail : List Char} (marked : Marked tail) :
    schemeOf (base ++ tail) =
      (schemeOf base).map (Option.map fun found => (found.1, found.2 ++ tail)) := by
  have stops : ∀ d, Mark d → Url.isSchemeChar d = false := by
    intro d mark
    cases mark <;> decide
  rw [schemeOf_eq, schemeOf_eq, marked.takeWhile_append stops, marked.dropWhile_append stops]
  generalize base.dropWhile Url.isSchemeChar = behind
  split
  · next rest cut =>
      obtain ⟨more, rfl, rfl⟩ := marked.slashes cut
      split <;> rfl
  · next other =>
      split
      · next more => exact absurd rfl (other (more ++ tail))
      · rfl

end Schemes

/-- What is sent of the text in front of the first mark. -/
def rooted (base : List Char) : List Char :=
  match schemeOf base with
  | .ok (some (_, rest)) =>
    if (rest.dropWhile (!endsAuthority ·)).isEmpty then base ++ ['/'] else base
  | _ => base

theorem toList_target {base tail : List Char} {target : String} (marked : Marked tail)
    (plain : ∀ d, Mark d → d ∉ base) (sent : targetOf (String.ofList (base ++ tail)) = .ok target) :
    target.toList = rooted base ++ (cutAt '#' tail).1 := by
  have stops : ∀ d, Mark d → (!endsAuthority d) = false := by
    intro d mark
    cases mark <;> rfl
  simp only [targetOf, String.toList_ofList, guarded_eq_ok, bind_eq_ok, schemeOf_append base marked]
    at sent
  obtain ⟨-, found, read, sent⟩ := sent
  cases front : schemeOf base with
  | error fault =>
      rw [front] at read
      cases read
  | ok found =>
      rw [front] at read
      cases read
      rw [rooted, front]
      cases found with
      | none =>
          obtain ⟨-, -, sent⟩ := bind_eq_ok.mp sent
          rw [marked.takeWhile_append stops] at sent
          split at sent
          · next whole =>
              cases sent
              have short := (List.takeWhile_sublist (!endsAuthority ·) (l := base)).length_le
              have empty : tail = [] := by
                rw [List.length_append] at whole
                exact List.eq_nil_of_length_eq_zero (by omega)
              simp [empty, cutAt]
          · cases sent
      | some parts =>
          obtain ⟨scheme, rest⟩ := parts
          simp only [Option.map, bind_eq_ok, guarded_eq_ok, pure_eq_ok] at sent
          obtain ⟨_, -, -, -, rfl⟩ := sent
          obtain rfl := schemeOf_eq_some front
          have absent : ∀ d, Mark d → d ∉ rest.dropWhile (!endsAuthority ·) := by
            intro d mark member
            apply plain d mark
            exact List.mem_append_right _ ((List.dropWhile_sublist _).mem member)
          obtain ⟨query, cut, asked⟩ := marked.cutAt_eq
          have path : cutAt '#' (rest.dropWhile (!endsAuthority ·) ++ tail) =
              (rest.dropWhile (!endsAuthority ·) ++ (cutAt '#' tail).1, (cutAt '#' tail).2) :=
            cutAt_append_absent (absent '#' .fragment)
          have parts : cutAt '?' (rest.dropWhile (!endsAuthority ·) ++ (cutAt '#' tail).1) =
              (rest.dropWhile (!endsAuthority ·), query) := by
            rw [cutAt_append_absent (absent '?' .query), cut, List.append_nil]
          have authority := List.takeWhile_append_dropWhile (p := (!endsAuthority ·)) (l := rest)
          simp only [marked.takeWhile_append stops, drop_takeWhile_append, path, parts,
            String.toList_ofList]
          rw [asked]
          congr 1
          · split
            · next empty =>
                rw [List.isEmpty_iff.mp empty, List.append_nil] at authority
                rw [authority]
            · rw [List.append_assoc, authority]
          · cases query <;> rfl

section Urls

variable {url : Url}

section Plain

variable (plain : url.Plain)
include plain

/-- A URL is sent as it is written up to its fragment, rooted. -/
theorem toList_of_plain {target : String} (sent : targetOf url.text = .ok target) :
    target.toList = rooted url.baseText.toList ++ url.queryText.toList := by
  have parts : url.text =
      String.ofList (url.baseText.toList ++ (url.queryText ++ url.fragmentText).toList) := by
    rw [← String.toList_append, String.ofList_toList, Url.text, String.append_assoc]
  have marked : Marked (url.queryText ++ url.fragmentText).toList := by
    rw [String.toList_append, Url.queryText, Url.fragmentText]
    rintro d first
    cases query : url.query <;> cases fragment : url.fragment <;> rw [query, fragment] at first
    · cases first
    · rw [show d = '#' by simpa using first.symm]
      exact .fragment
    · rw [show d = '?' by simpa using first.symm]
      exact .query
    · rw [show d = '?' by simpa using first.symm]
      exact .query
  have fragmentless : (cutAt '#' url.fragmentText.toList).1 = [] := by
    rw [Url.fragmentText]
    split
    · rw [String.toList_append]
      rfl
    · rfl
  rw [parts] at sent
  rw [toList_target marked plain.base sent, String.toList_append, cutAt_append_absent plain.query,
    fragmentless, List.append_nil]

/-- The query of a URL is the query of what is sent. -/
theorem cutAt_of_plain {query target : String} (asked : url.query = some query)
    (sent : targetOf url.text = .ok target) :
    (cutAt '?' target.toList).2 = some query.toList := by
  have base := plain.base '?' .query
  have front : '?' ∉ rooted url.baseText.toList := by
    rw [rooted]
    split
    · split
      · exact List.not_mem_append base (by decide)
      · exact base
    · exact base
  rw [toList_of_plain plain sent, cutAt_append_absent front, Url.queryText, asked,
    String.toList_append]
  rfl

/-- The first number sign of its text begins its fragment, and the first question mark before that
its query. -/
theorem cutAt_text :
    cutAt '#' url.text.toList =
        (url.baseText.toList ++ url.queryText.toList, url.fragment.map String.toList) ∧
      cutAt '?' (url.baseText.toList ++ url.queryText.toList) =
        (url.baseText.toList, url.query.map String.toList) := by
  have unsigned := plain.base '#' .fragment
  have unmarked := plain.base '?' .query
  constructor
  · have behind : cutAt '#' url.fragmentText.toList = ([], url.fragment.map String.toList) := by
      rw [Url.fragmentText]
      cases url.fragment with
      | none => rfl
      | some fragment =>
          rw [String.toList_append]
          rfl
    rw [Url.text, String.toList_append, String.toList_append, List.append_assoc,
      cutAt_append_absent unsigned, cutAt_append_absent plain.query, behind, List.append_nil]
  · have behind : cutAt '?' url.queryText.toList = ([], url.query.map String.toList) := by
      rw [Url.queryText]
      cases url.query with
      | none => rfl
      | some query =>
          rw [String.toList_append]
          rfl
    rw [cutAt_append_absent unmarked, behind, List.append_nil]

end Plain

variable [Url.Idna] {text : String} (read : Url.parse text = .ok url)
include read

theorem toList_targetOf {target : String} (sent : targetOf url.text = .ok target) :
    target.toList = rooted url.baseText.toList ++ url.queryText.toList :=
  toList_of_plain (Url.plain_of_parse read) sent

theorem cutAt_targetOf {query target : String} (asked : url.query = some query)
    (sent : targetOf url.text = .ok target) :
    (cutAt '?' target.toList).2 = some query.toList :=
  cutAt_of_plain (Url.plain_of_parse read) asked sent

end Urls

section Sent

/-- The URL as it is sent: without its fragment, and with a slash for an empty path behind a
host. -/
def sentForm (url : Url) : Url :=
  { url with
    path := if url.host.isSome && url.path.text.isEmpty then .segments [""] else url.path
    fragment := none }

variable {url : Url}

section Schemes

variable {scheme : String} (plain : Url.SchemeText scheme)
include plain

theorem cut_scheme (more : List Char) :
    (scheme.toList ++ ':' :: more).takeWhile Url.isSchemeChar = scheme.toList ∧
      (scheme.toList ++ ':' :: more).dropWhile Url.isSchemeChar = ':' :: more := by
  have colon : ¬Url.isSchemeChar ':' = true := by decide
  constructor
  · rw [List.takeWhile_append_of_pos plain.chars, List.takeWhile_cons_of_neg colon,
      List.append_nil]
  · rw [List.dropWhile_append_of_pos plain.chars, List.dropWhile_cons_of_neg colon]

theorem schemeOf_slashes (rest : List Char) :
    schemeOf (scheme.toList ++ ':' :: '/' :: '/' :: rest) =
      if scheme.toList.length > maxSchemeLength then .error .schemeTooLong
      else .ok (some (scheme.toList, rest)) := by
  obtain ⟨front, behind⟩ := cut_scheme plain ('/' :: '/' :: rest)
  simp only [schemeOf_eq, front, behind]

theorem schemeOf_single {more : List Char} (single : ∀ rest, more ≠ '/' :: '/' :: rest) :
    schemeOf (scheme.toList ++ ':' :: more) = .ok none := by
  obtain ⟨front, behind⟩ := cut_scheme plain more
  rw [schemeOf_eq, front, behind]
  split
  · next rest whole => exact absurd (List.cons.inj whole).2 (single rest)
  · rfl

end Schemes

/-- Without a host no two slashes follow the scheme. -/
theorem single_hostless (hostless : url.Hostless) (rest : List Char) :
    (url.authorityText ++ url.path.text).toList ≠ '/' :: '/' :: rest := by
  have single := hostless.path
  rw [Url.authorityText, hostless.hostless, String.toList_append]
  cases path : url.path with
  | opaqueText text =>
      rw [path] at single
      intro whole
      apply single
      rw [show text.toList = '/' :: '/' :: rest from whole]
      rfl
  | segments names =>
      rw [path] at single
      dsimp only
      split
      · intro whole
        cases whole
      · next unlike =>
          intro whole
          cases names with
          | nil => cases whole
          | cons name others =>
              rw [show "".toList = [] from rfl, List.nil_append, toList_segments] at whole
              have front := (List.cons.inj whole).2
              cases empty : name.toList with
              | nil =>
                  obtain rfl := String.toList_eq_nil_iff.mp empty
                  cases others with
                  | nil => cases front
                  | cons next more => exact unlike next more rfl
              | cons c later =>
                  rw [empty] at front
                  have slash : c = '/' := (List.cons.inj front).1
                  exact single name List.mem_cons_self (by simp [empty, slash])

theorem rooted_hostless (hostless : url.Hostless) :
    rooted url.baseText.toList = (sentForm url).baseText.toList := by
  have same : (sentForm url).baseText = url.baseText := by
    simp [sentForm, Url.baseText, Url.authorityText, hostless.hostless]
  have whole : url.baseText.toList =
      url.scheme.toList ++ ':' :: (url.authorityText ++ url.path.text).toList := by
    simp [Url.baseText]
  rw [same, rooted, whole, schemeOf_single hostless.scheme (single_hostless hostless)]

variable [Url.Idna]

theorem sentForm_base {host : Url.Host} (sited : url.Sited host) :
    (sentForm url).baseText = url.siteText ++ (sentForm url).path.text := by
  rw [Url.baseText, ← Url.siteText]
  simp [sentForm, Url.siteText, Url.authorityText, sited.hosted, Url.userinfoText, Url.portText]

theorem rooted_sited {host : Url.Host} (sited : url.Sited host) (founded : url.Founded)
    (short : url.scheme.toList.length ≤ maxSchemeLength) :
    rooted url.baseText.toList = (sentForm url).baseText.toList := by
  have path := (founded.rooted (by rw [sited.hosted]; nofun)).head
  have whole : url.baseText.toList = url.scheme.toList ++
      ':' :: '/' :: '/' :: (url.placeText host ++ url.path.text.toList) := by
    rw [Url.baseText, String.toList_append, ← Url.siteText, sited.toList_siteText]
    simp
  have inside : ∀ c ∈ url.placeText host, (!endsAuthority c) = true := by
    intro c member
    have separates := (sited.place_plain member).2
    simp only [List.mem_cons, List.not_mem_nil, or_false, not_or] at separates
    simp [endsAuthority, separates]
  have outside : url.path.text.toList.dropWhile (!endsAuthority ·) = url.path.text.toList := by
    cases text : url.path.text.toList with
    | nil => rfl
    | cons c rest =>
        rw [text] at path
        obtain rfl := path c rfl
        rfl
  have behind : (url.placeText host ++ url.path.text.toList).dropWhile (!endsAuthority ·) =
      url.path.text.toList := by
    rw [List.dropWhile_append_of_pos inside, outside]
  have written := sentForm_base sited
  have own : url.baseText = url.siteText ++ url.path.text := by
    rw [Url.baseText, ← Url.siteText]
  rw [rooted, whole, schemeOf_slashes sited.scheme, if_neg (by omega)]
  simp only [behind]
  rw [← whole, written, own]
  have hosted : url.host.isSome = true := by rw [sited.hosted, Option.isSome_some]
  by_cases empty : url.path.text = ""
  · have root : (Url.Path.segments [""]).text.toList = ['/'] := rfl
    simp [sentForm, hosted, empty, root]
  · simp [sentForm, hosted, empty]

theorem scheme_short {host : Url.Host} (sited : url.Sited host) {target : String}
    (sent : targetOf url.text = .ok target) : url.scheme.toList.length ≤ maxSchemeLength := by
  have whole : url.text.toList = url.scheme.toList ++ ':' :: '/' :: '/' :: (url.placeText host ++
      (url.path.text ++ url.queryText ++ url.fragmentText).toList) := by
    rw [Url.text, Url.baseText, ← Url.siteText, String.toList_append, String.toList_append,
      String.toList_append, sited.toList_siteText]
    simp
  simp only [targetOf, guarded_eq_ok, bind_eq_ok, whole, schemeOf_slashes sited.scheme] at sent
  obtain ⟨-, found, read, -⟩ := sent
  by_contra long
  rw [if_pos (by omega)] at read
  cases read

/-- What is sent is the text of that URL. -/
theorem target_eq {text target : String} (read : Url.parse text = .ok url)
    (sent : targetOf url.text = .ok target) : target = (sentForm url).text := by
  have base : rooted url.baseText.toList = (sentForm url).baseText.toList := by
    rcases Url.sited_of_parse read with hostless | ⟨host, sited⟩
    · exact rooted_hostless hostless
    · exact rooted_sited sited (Url.founded_of_parse read) (scheme_short sited sent)
  apply String.toList_inj.mp
  rw [toList_of_plain (Url.plain_of_parse read) sent, base]
  simp [Url.text, Url.queryText, Url.fragmentText, sentForm]

/-- A special URL has a path, so that only its fragment is left out. -/
theorem sentForm_special {text : String} (read : Url.parse text = .ok url)
    (special : url.isSpecial = true) : sentForm url = { url with fragment := none } := by
  have founded := Url.founded_of_parse read
  have written := (founded.rooted (founded.special special)).text_ne_empty special
  simp [sentForm, written]

/-- Behind the site of a URL a path is sent, be it only the slash. -/
theorem target_site {host : Url.Host} (sited : url.Sited host) {text target : String}
    (read : Url.parse text = .ok url) (sent : targetOf url.text = .ok target) :
    ∃ behind, target = url.siteText ++ "/" ++ behind := by
  have hosted : url.host.isSome = true := by rw [sited.hosted, Option.isSome_some]
  have own := ((Url.founded_of_parse read).rooted (by rw [sited.hosted]; nofun)).head
  have path : ∃ rest, (sentForm url).path.text.toList = '/' :: rest := by
    by_cases empty : url.path.text = ""
    · exact ⟨[], by simp [sentForm, hosted, empty]; rfl⟩
    · have kept : (sentForm url).path = url.path := by simp [sentForm, hosted, empty]
      obtain ⟨c, rest, whole⟩ :=
        List.exists_cons_of_ne_nil (mt String.toList_eq_nil_iff.mp empty)
      rw [whole] at own
      exact ⟨rest, by rw [kept, whole, own c rfl]⟩
  obtain ⟨rest, path⟩ := path
  refine ⟨String.ofList rest ++ (sentForm url).queryText, ?_⟩
  have fragmentless : (sentForm url).fragmentText = "" := rfl
  rw [target_eq read sent, ← String.toList_inj, Url.text, sentForm_base sited, fragmentless]
  simp [path]

end Sent

end Bearer.Http

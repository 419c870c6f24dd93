import Bearer.Proofs.Client.Request

/-!
Where in a URL the slot of a template is, and what becomes of a credential there. The slot is in the
fragment behind a number sign, otherwise in the query behind a question mark, otherwise in front of
both. In the query a credential makes the last value longer and changes nothing else; a fragment is
never sent.
-/
namespace Bearer

namespace Template

section Slots

variable [Url.Idna] (template : Template)

theorem ofText_text : ofText template.text = .ok template := by
  rw [ofText, dif_pos template.slot]
  split
  · rfl
  · next fault failed =>
      have parses := template.parses
      rw [failed] at parses
      cases parses

theorem parse_text : ∃ url, Url.parse template.text = .ok url := by
  have parses := template.parses
  cases read : Url.parse template.text with
  | error fault =>
      rw [read] at parses
      cases parses
  | ok url => exact ⟨url, rfl⟩

theorem text_eq : ∃ front, template.text = String.ofList (front ++ ['=']) := by
  obtain ⟨front, split⟩ := List.getLast?_eq_some_iff.mp (of_decide_eq_true template.slot)
  exact ⟨front, by rw [← split, String.ofList_toList]⟩

variable {template}

section Completion

variable {front : List Char} (split : template.text = String.ofList (front ++ ['=']))
include split

theorem completedText_eq (credential : String) :
    template.completedText credential =
      String.ofList (front ++ '=' :: Url.formEncode credential.toList) := by
  rw [completedText, split, ← String.ofList_append, List.append_assoc, List.singleton_append]

theorem mem_text {mark : Char} (other : mark ≠ '=') :
    mark ∈ template.text.toList ↔ mark ∈ front := by
  rw [split, String.toList_ofList, List.mem_append, List.mem_singleton, or_iff_left other]

/-- A completed text is read as the template is, but for the query and the fragment. -/
theorem complete_eq {url : Url} (read : Url.parse template.text = .ok url) (credential : String)
    {q : Url.Parts}
    (parts : Url.Parts.ofText
      (String.ofList (front ++ '=' :: Url.formEncode credential.toList)) = q)
    (body : q.body = (Url.Parts.ofText template.text).body)
    (more : q.hasMore = (Url.Parts.ofText template.text).hasMore) :
    template.complete credential = .ok (q.complete url) := by
  rw [Url.parse_eq_ofParts] at read
  rw [complete, completedText_eq split, Url.parse_eq_ofParts, parts,
    Url.ofParts_complete body more, read]
  rfl

end Completion

section Places

variable {url : Url} (read : Url.parse template.text = .ok url)
include read

/-- In the query a credential is appended. -/
theorem complete_query (mark : '?' ∈ template.text.toList) (unsigned : '#' ∉ template.text.toList) :
    ∃ query, url.query = some query ∧ query.toList.getLast? = some '=' ∧ url.fragment = none ∧
      ∀ credential : String, template.complete credential = .ok
        { url with
          query := some (query ++ String.ofList (Url.formEncode credential.toList))
          fragment := none } := by
  obtain ⟨front, split⟩ := template.text_eq
  rw [mem_text split (by decide)] at mark unsigned
  obtain ⟨body, raw, parts⟩ := Url.ofText_query unsigned mark
  have own : Url.Parts.ofText template.text = ⟨body, some (raw ++ ['=']), none⟩ := by
    rw [split]
    exact parts [] nofun
  have whole := Url.eq_complete_of_parse read
  rw [own] at whole
  have asked : url.query = some (Url.queryOf url.isSpecial (raw ++ ['='])) :=
    congrArg Url.query whole
  have equals : ∀ c ∈ ['='], Url.FormChar c :=
    List.forall_mem_singleton.mpr ⟨by decide, by decide, by decide, by decide⟩
  refine ⟨_, asked, ?_, congrArg Url.fragment whole, fun credential => ?_⟩
  · rw [Url.queryOf_append equals, String.toList_append, String.toList_ofList,
      List.getLast?_append_cons]
    rfl
  · have formed : ∀ c ∈ Url.formEncode credential.toList, Url.FormChar c :=
      fun c written => Url.formChar_of_mem written
    have longer := parts _ (Url.inert_formEncode credential.toList)
    rw [complete_eq split read credential longer (by rw [own]) (by rw [own]; rfl),
      Url.Parts.complete, ← List.singleton_append, ← List.append_assoc]
    simp only [Option.map, Url.queryOf_append formed]

/-- In the fragment it is appended too, but the query stays as it is. -/
theorem complete_fragment (sign : '#' ∈ template.text.toList) :
    url.fragment.isSome ∧ ∀ credential : String, ∃ fragment, template.complete credential = .ok
      { url with fragment := some fragment } := by
  obtain ⟨front, split⟩ := template.text_eq
  rw [mem_text split (by decide)] at sign
  obtain ⟨body, query, raw, parts⟩ := Url.ofText_fragment sign
  have own : Url.Parts.ofText template.text = ⟨body, query, some (raw ++ ['='])⟩ := by
    rw [split]
    exact parts [] nofun
  have whole := Url.eq_complete_of_parse read
  rw [own] at whole
  have asked : query.map (Url.queryOf url.isSpecial) = url.query :=
    (congrArg Url.query whole).symm
  have signed : url.fragment = some (Url.fragmentOf (raw ++ ['='])) := congrArg Url.fragment whole
  refine ⟨by rw [signed]; rfl, fun credential => ?_⟩
  have longer := parts _ (Url.inert_formEncode credential.toList)
  refine ⟨Url.fragmentOf (raw ++ '=' :: Url.formEncode credential.toList), ?_⟩
  rw [complete_eq split read credential longer (by rw [own]) (by rw [own]; rfl),
    Url.Parts.complete, asked]
  rfl

/-- In front of both it does not come into a query. -/
theorem complete_front (unmarked : '?' ∉ template.text.toList)
    (unsigned : '#' ∉ template.text.toList) :
    url.query = none ∧ url.fragment = none ∧ ∀ (credential : String) completed,
      template.complete credential = .ok completed →
        completed.query = none ∧ completed.fragment = none := by
  obtain ⟨front, split⟩ := template.text_eq
  rw [mem_text split (by decide)] at unmarked unsigned
  have bare : ∀ {behind : List Char} {completed}, Url.Inert behind →
      Url.parse (String.ofList (front ++ '=' :: behind)) = .ok completed →
        completed.query = none ∧ completed.fragment = none := by
    intro behind completed inert read
    have whole := Url.eq_complete_of_parse read
    rw [Url.ofText_body unsigned unmarked inert] at whole
    exact ⟨congrArg Url.query whole, congrArg Url.fragment whole⟩
  have empty : Url.Inert [] := nofun
  obtain ⟨query, fragment⟩ := bare empty (split ▸ read)
  refine ⟨query, fragment, ?_⟩
  intro credential completed done
  rw [complete, Json.mapError_eq_ok, completedText_eq split] at done
  exact bare (Url.inert_formEncode _) done

theorem marks_of_query (asked : url.query.isSome) (fragmentless : url.fragment = none) :
    '?' ∈ template.text.toList ∧ '#' ∉ template.text.toList := by
  have unsigned : '#' ∉ template.text.toList := by
    intro sign
    have signed := (complete_fragment read sign).1
    rw [fragmentless] at signed
    cases signed
  refine ⟨?_, unsigned⟩
  by_contra unmarked
  rw [(complete_front read unmarked unsigned).1] at asked
  cases asked

end Places

end Slots

/-- In the query a credential makes the value of the last pair longer, by exactly itself. Nothing
else of the URL changes, and no other credential gives the same text. -/
theorem complete_extends_last_value [Url.Idna] (template : Template) {url : Url} {query : String}
    (read : Url.parse template.text = .ok url) (asked : url.query = some query)
    (fragmentless : url.fragment = none) :
    ∃ earlier name value, Url.formPairs query = earlier ++ [(name, value)] ∧
      ∀ credential : String, ∃ longer,
        template.complete credential =
            .ok { url with query := some longer, fragment := none } ∧
          Url.formPairs longer = earlier ++ [(name, value ++ credential)] ∧
          ∀ other completed, template.complete other = .ok completed →
            completed.text = { url with query := some longer, fragment := none : Url }.text →
              other = credential := by
  obtain ⟨mark, unsigned⟩ := marks_of_query read (by rw [asked]; rfl) fragmentless
  obtain ⟨own, given, slot, -, completes⟩ := complete_query read mark unsigned
  cases asked.symm.trans given
  obtain ⟨earlier, name, value, pairs, longer⟩ := Url.formPairs_append slot
  have written : ∀ query, { url with query := some query, fragment := none : Url }.text =
      url.baseText ++ ("?" ++ query) ++ "" := fun _ => rfl
  refine ⟨earlier, name, value, pairs, ?_⟩
  intro credential
  refine ⟨_, completes credential, longer credential, ?_⟩
  intro other completed done same
  rw [completes other] at done
  cases done
  rw [written, written] at same
  have encoded : String.ofList (Url.formEncode other.toList) =
      String.ofList (Url.formEncode credential.toList) := by
    simpa using same
  exact String.toList_inj.mp (Url.formEncode_injective (String.ofList_inj.mp encoded))

open Url.PlainNames in
/-- A value of signs that a query could be taken apart at. -/
theorem complete_extends_token :
    let template : Template :=
      ⟨"https://issuer/menu?a=1&access_token=", by decide +kernel, by decide +kernel⟩
    let url : Url := ⟨"https", "", none, some (.domain "issuer"), none, .segments ["menu"],
      some "a=1&access_token=", none⟩
    let credential := "a&b=c# ?+%é\n"
    Url.parse template.text = .ok url ∧ ∃ longer,
      template.complete credential = .ok { url with query := some longer, fragment := none } ∧
        Url.formPairs longer = [("a", "1"), ("access_token", credential)] := by
  intro template url credential
  have read : Url.parse template.text = .ok url := by
    simp only [template, url]
    cbv
  have pairs : Url.formPairs "a=1&access_token=" = [("a", "1")] ++ [("access_token", "")] := by
    decide +kernel
  obtain ⟨earlier, name, value, own, completes⟩ :=
    template.complete_extends_last_value read rfl rfl
  obtain ⟨rfl, same⟩ := List.append_inj' (own.symm.trans pairs) rfl
  cases same
  obtain ⟨longer, done, extended, -⟩ := completes credential
  rw [String.empty_append] at extended
  exact ⟨read, longer, done, extended⟩

/-- Where the slot is follows from the marks of the text. In the query a credential is the end of
the last value, in what is sent as well. Behind a number sign what is sent does not depend on the
credential, and without marks it does not come into a query. -/
theorem slot_follows_marks [Url.Idna] (template : Template) :
    ofText template.text = .ok template ∧ ∃ url, Url.parse template.text = .ok url ∧
      ((∃ query, url.query = some query ∧ query.toList.getLast? = some '=' ∧
          url.fragment = none) ↔
        '?' ∈ template.text.toList ∧ '#' ∉ template.text.toList) ∧
      ('?' ∈ template.text.toList → '#' ∉ template.text.toList →
        ∃ earlier name value, ∀ credential, ∃ longer,
          template.complete credential =
              .ok { url with query := some longer, fragment := none } ∧
            Url.formPairs longer = earlier ++ [(name, value ++ credential)] ∧
            ∀ plan : Plan, plan.template = template → ∀ request,
              plan.request credential = .ok request →
                (Url.cutAt '?' request.target.toList).2 = some longer.toList) ∧
      ('#' ∈ template.text.toList → ∀ plan : Plan, plan.template = template →
        ∀ credential other request another, plan.request credential = .ok request →
          plan.request other = .ok another → request = another) ∧
      ('?' ∉ template.text.toList → '#' ∉ template.text.toList → ∀ credential completed,
        template.complete credential = .ok completed →
          completed.query = none ∧ completed.fragment = none) := by
  obtain ⟨url, read⟩ := template.parse_text
  refine ⟨template.ofText_text, url, read, ⟨?_, ?_⟩, ?_, ?_, ?_⟩
  · rintro ⟨query, asked, -, fragmentless⟩
    exact marks_of_query read (by rw [asked]; rfl) fragmentless
  · rintro ⟨mark, unsigned⟩
    obtain ⟨query, asked, slot, fragmentless, -⟩ := complete_query read mark unsigned
    exact ⟨query, asked, slot, fragmentless⟩
  · intro mark unsigned
    obtain ⟨query, -, slot, -, completes⟩ := complete_query read mark unsigned
    obtain ⟨earlier, name, value, -, longer⟩ := Url.formPairs_append slot
    refine ⟨earlier, name, value, ?_⟩
    intro credential
    refine ⟨_, completes credential, longer credential, ?_⟩
    rintro plan rfl request built
    obtain ⟨completed, done, sent, -⟩ := target_of_request built
    cases (completes credential).symm.trans done
    exact Http.cutAt_targetOf (parse_of_complete done) rfl sent
  · rintro sign plan rfl credential other request another built builtToo
    have completes := (complete_fragment read sign).2
    obtain ⟨fragment, done⟩ := completes credential
    obtain ⟨fragmentToo, doneToo⟩ := completes other
    obtain ⟨completed, first, sent, parts⟩ := target_of_request built
    obtain ⟨completedToo, second, sentToo, partsToo⟩ := target_of_request builtToo
    cases done.symm.trans first
    cases doneToo.symm.trans second
    have same : request.target = another.target := by
      apply String.toList_inj.mp
      rw [Http.toList_targetOf (parse_of_complete done) sent,
        Http.toList_targetOf (parse_of_complete doneToo) sentToo]
      rfl
    rw [parts, partsToo, same]
  · intro unmarked unsigned
    exact (complete_front read unmarked unsigned).2.2

/-- The plain names, and one with a letter beyond ASCII. -/
@[reducible] def umlautName : Url.Idna :=
  .byTables fun bytes =>
    if bytes ∈ [Text.utf8 "müller.de", Text.utf8 "xn--mller-kva.de"] then
      some "xn--mller-kva.de".toList
    else none

attribute [local instance] umlautName in
/-- Behind a host that is put into ASCII the credential is sent as the end of the query. -/
theorem query_slot_sent :
    let template : Template := ⟨"https://müller.de/?a=", by decide +kernel, by decide +kernel⟩
    let plan : Plan := ⟨"GET", template, none, .default⟩
    let target := "https://xn--mller-kva.de/?a=tok"
    '?' ∈ template.text.toList ∧ '#' ∉ template.text.toList ∧ ∃ earlier name value longer,
      template.complete "tok" = .ok ⟨"https", "", none, some (.domain "xn--mller-kva.de"), none,
          .segments [""], some longer, none⟩ ∧
        Url.formPairs longer = earlier ++ [(name, value ++ "tok")] ∧
        plan.request "tok" = .ok ⟨"GET", target, none, []⟩ ∧
        (Url.cutAt '?' target.toList).2 = some longer.toList := by
  intro template plan target
  have mark : '?' ∈ template.text.toList := by decide +kernel
  have unsigned : '#' ∉ template.text.toList := by decide +kernel
  obtain ⟨-, url, read, -, sent, -⟩ := slot_follows_marks template
  obtain ⟨earlier, name, value, completes⟩ := sent mark unsigned
  obtain ⟨longer, completed, pairs, whole⟩ := completes "tok"
  have own : Url.parse template.text = .ok ⟨"https", "", none, some (.domain "xn--mller-kva.de"),
      none, .segments [""], some "a=", none⟩ :=
    Json.toOption_eq_some.mp (by decide +kernel)
  cases read.symm.trans own
  have built : plan.request "tok" = .ok ⟨"GET", target, none, []⟩ :=
    Json.toOption_eq_some.mp (by decide +kernel)
  exact ⟨mark, unsigned, earlier, name, value, longer, completed, pairs, built,
    whole plan rfl _ built⟩

open Url.PlainNames in
/-- A slot in the fragment: the template is taken, and the credential is not sent. -/
theorem fragment_slot_not_sent :
    let template : Template :=
      ⟨"https://issuer.example.com/menu#access_token=", by decide +kernel, by decide +kernel⟩
    let url : Url := ⟨"https", "", none, some (.domain "issuer.example.com"), none,
      .segments ["menu"], none, some "access_token="⟩
    ofText "https://issuer.example.com/menu#access_token=" = .ok template ∧
      Url.parse template.text = .ok url ∧
      (⟨"GET", template, none, .default⟩ : Plan).request "tok" =
        .ok ⟨"GET", "https://issuer.example.com/menu", none, []⟩ := by
  intro template url
  refine ⟨ofText_text template, ?_, ?_⟩
  · simp only [template, url]
    cbv
  · simp only [template]
    cbv

end Template

end Bearer

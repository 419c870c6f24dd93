import Mathlib
import Bearer.Proofs.Url.Pairs
import Bearer.Url.Parse

/-!
What stands where in a URL text. Query and fragment are read by themselves, so a URL with another
query or another fragment is the same otherwise; and what is written behind a final equals sign goes
to the last part that there is, the fragment, the query, or what stands before both.
-/
namespace Bearer.Url

section Reading

variable [Idna] {p q : Parts}

/-- Reads a text that is taken apart, without a base. -/
def ofParts (parts : Parts) : Except Fault Url :=
  match cutScheme parts.body with
  | some (scheme, rest) => withScheme none scheme parts rest
  | none => .error .relativeWithoutBase

theorem parse_eq_ofParts (text : String) : parse text = ofParts (Parts.ofText text) := by
  cases cut : cutScheme (Parts.ofText text).body with
  | some found => simp only [parse, parseWith, ofParts, cut]
  | none => simp only [parse, parseWith, ofParts, cut]

theorem withAuthority_complete (more : q.hasMore = p.hasMore) (scheme : String)
    (text : List Char) :
    withAuthority scheme q text = (withAuthority scheme p text).map q.complete := by
  simp only [withAuthority, more]
  cases authorityOf scheme p.hasMore text with
  | error fault => rfl
  | ok read => rfl

theorem fileUrl_complete (p q : Parts) (text : List Char) :
    fileUrl none q text = (fileUrl none p text).map q.complete := by
  cases text with
  | nil => rfl
  | cons c rest =>
      simp only [fileUrl]
      by_cases slash : isSlash c = true
      · simp only [slash, if_true]
        cases rest with
        | nil => rfl
        | cons d others =>
            by_cases second : isSlash d = true
            · simp only [second, if_true]
              cases fileHost others with
              | error fault => rfl
              | ok read => rfl
            · simp only [second]
              rfl
      · simp only [slash]
        rfl

theorem withScheme_complete (more : q.hasMore = p.hasMore) (scheme : String) (text : List Char) :
    withScheme none scheme q text = (withScheme none scheme p text).map q.complete := by
  simp only [withScheme]
  split
  · exact fileUrl_complete p q text
  · split
    · exact withAuthority_complete more scheme _
    · split
      · exact withAuthority_complete more scheme _
      · rfl
      · rfl

/-- Texts with the same front are read alike up to their queries and fragments. -/
theorem ofParts_complete (body : q.body = p.body) (more : q.hasMore = p.hasMore) :
    ofParts q = (ofParts p).map q.complete := by
  simp only [ofParts, body]
  split
  · exact withScheme_complete more _ _
  · rfl

theorem eq_complete_of_ofParts {url : Url} (read : ofParts p = .ok url) : url = p.complete url := by
  have again := ofParts_complete (p := p) (q := p) rfl rfl
  rw [read] at again
  exact Except.ok.inj again

/-- Query and fragment of a URL are those of its text. -/
theorem eq_complete_of_parse {text : String} {url : Url} (read : parse text = .ok url) :
    url = (Parts.ofText text).complete url := by
  rw [parse_eq_ofParts] at read
  exact eq_complete_of_ofParts read

end Reading

section Cuts

variable {α : Type} [DecidableEq α] {sep : α} {text behind : List α}

omit [DecidableEq α] in
theorem drop_takeWhile_append (p : α → Bool) (base tail : List α) :
    (base ++ tail).drop (base.takeWhile p).length = base.dropWhile p ++ tail := by
  have behind : (base.takeWhile p ++ (base.dropWhile p ++ tail)).drop (base.takeWhile p).length =
      base.dropWhile p ++ tail := List.drop_left
  rwa [← List.append_assoc, List.takeWhile_append_dropWhile] at behind

omit [DecidableEq α] in
theorem drop_takeWhile (p : α → Bool) (text : List α) :
    text.drop (text.takeWhile p).length = text.dropWhile p := by
  simpa only [List.append_nil] using drop_takeWhile_append p text []

/-- A text is cut where it was, whatever stands behind it, if it is cut at all. -/
theorem cutAt_eq_some (present : sep ∈ text) : ∃ front after,
    ∀ behind, cutAt sep (text ++ behind) = (front, some (after ++ behind)) := by
  induction text with
  | nil => cases present
  | cons a rest ih =>
      by_cases same : a = sep
      · exact ⟨[], rest, fun behind => by rw [List.cons_append, cutAt, if_pos same]⟩
      · obtain ⟨front, after, cut⟩ := ih (List.mem_of_ne_of_mem (Ne.symm same) present)
        refine ⟨a :: front, after, fun behind => ?_⟩
        rw [List.cons_append, cutAt, if_neg same, cut]

end Cuts

section Slots

/-- Characters that are read wherever in a text they stand, and that separate none of its parts. -/
def Inert (text : List Char) : Prop :=
  ∀ c ∈ text, 0x20 < c.toNat ∧ c ≠ '#' ∧ c ≠ '?'

theorem inert_formEncode (text : List Char) : Inert (formEncode text) := by
  intro c written
  have form := formChar_of_mem written
  have separates := form.separates
  simp only [List.mem_cons, List.not_mem_nil, or_false, not_or] at separates
  exact ⟨form.visible, separates.1, separates.2.1⟩

theorem Inert.slot {text : List Char} (inert : Inert text) : Inert ('=' :: text) :=
  List.forall_mem_cons.mpr ⟨by decide, inert⟩

theorem isTrimmed_visible {c : Char} (visible : 0x20 < c.toNat) : isTrimmed c = false := by
  simp [isTrimmed, visible]

theorem isDropped_visible {c : Char} (visible : 0x20 < c.toNat) : isDropped c = false := by
  have other : ∀ d : Char, d.toNat ≤ 0x20 → c ≠ d := by
    rintro d low rfl
    omega
  simp [isDropped, other '\t' (by decide), other '\n' (by decide), other '\r' (by decide)]

theorem dropWhile_kept {α : Type} {p : α → Bool} {text : List α} (kept : ∀ a ∈ text, p a = false) :
    text.dropWhile p = text := by
  cases text with
  | nil => rfl
  | cons a rest => rw [List.dropWhile_cons, kept a List.mem_cons_self, if_neg Bool.false_ne_true]

/-- What is read of a text that stands before the slot. -/
def leading (front : List Char) : List Char :=
  (front.dropWhile isTrimmed).filter (!isDropped ·)

/-- Behind a slot nothing is left out, and the slot protects what stands before it. -/
theorem relevant_append {front behind : List Char} (inert : Inert behind) :
    relevant (front ++ '=' :: behind) = leading front ++ '=' :: behind := by
  have untrimmed : ∀ c ∈ '=' :: behind, isTrimmed c = false := fun c member =>
    isTrimmed_visible (inert.slot c member).1
  have undropped : ∀ c ∈ '=' :: behind, (!isDropped c) = true := fun c member => by
    rw [isDropped_visible (inert.slot c member).1, Bool.not_false]
  have started : (front ++ '=' :: behind).dropWhile isTrimmed =
      front.dropWhile isTrimmed ++ '=' :: behind := by
    rw [List.dropWhile_append, dropWhile_kept untrimmed]
    split
    · next empty => rw [List.isEmpty_iff.mp empty, List.nil_append]
    · rfl
  have ended : ('=' :: behind).reverse.dropWhile isTrimmed = ('=' :: behind).reverse :=
    dropWhile_kept fun c member => untrimmed c (List.mem_reverse.mp member)
  have long : ('=' :: behind).reverse.isEmpty = false := by simp
  rw [relevant, started, List.reverse_append, List.dropWhile_append, ended, long,
    if_neg Bool.false_ne_true, List.reverse_append, List.reverse_reverse, List.reverse_reverse,
    List.filter_append, List.filter_eq_self.mpr undropped, leading]

theorem mem_leading {front : List Char} {c : Char} (visible : 0x20 < c.toNat) :
    c ∈ leading front ↔ c ∈ front := by
  have undropped : (!isDropped c) = true := by rw [isDropped_visible visible, Bool.not_false]
  have untrimmed := isTrimmed_visible visible
  rw [leading, List.mem_filter, and_iff_left undropped]
  constructor
  · exact fun member => (List.dropWhile_sublist isTrimmed).mem member
  · intro member
    rw [← List.takeWhile_append_dropWhile (p := isTrimmed) (l := front)] at member
    refine (List.mem_append.mp member).resolve_left fun trimmed => ?_
    rw [List.mem_takeWhile_imp trimmed] at untrimmed
    cases untrimmed

variable {front : List Char}

theorem ofText_slot {behind : List Char} (inert : Inert behind) :
    Parts.ofText (String.ofList (front ++ '=' :: behind)) =
      ⟨(cutAt '?' (cutAt '#' (leading front ++ '=' :: behind)).1).1,
        (cutAt '?' (cutAt '#' (leading front ++ '=' :: behind)).1).2,
        (cutAt '#' (leading front ++ '=' :: behind)).2⟩ := by
  rw [Parts.ofText, String.toList_ofList, relevant_append inert]

/-- Behind a number sign the slot is in the fragment. -/
theorem ofText_fragment (sign : '#' ∈ front) : ∃ body query fragment, ∀ behind, Inert behind →
    Parts.ofText (String.ofList (front ++ '=' :: behind)) =
      ⟨body, query, some (fragment ++ '=' :: behind)⟩ := by
  obtain ⟨before, after, cut⟩ := cutAt_eq_some ((mem_leading (by decide)).mpr sign)
  refine ⟨(cutAt '?' before).1, (cutAt '?' before).2, after, fun behind inert => ?_⟩
  rw [ofText_slot inert, cut]

/-- Behind a question mark, without a number sign, it is in the query. -/
theorem ofText_query (sign : '#' ∉ front) (mark : '?' ∈ front) : ∃ body query, ∀ behind,
    Inert behind → Parts.ofText (String.ofList (front ++ '=' :: behind)) =
      ⟨body, some (query ++ '=' :: behind), none⟩ := by
  obtain ⟨before, after, cut⟩ := cutAt_eq_some ((mem_leading (by decide)).mpr mark)
  refine ⟨before, after, fun behind inert => ?_⟩
  have absent : '#' ∉ leading front ++ '=' :: behind :=
    List.not_mem_append (mt (mem_leading (by decide)).mp sign) fun member =>
      (inert.slot _ member).2.1 rfl
  rw [ofText_slot inert, cutAt_eq_none absent, cut]

/-- Without either it is in what stands before them. -/
theorem ofText_body (sign : '#' ∉ front) (mark : '?' ∉ front) {behind : List Char}
    (inert : Inert behind) :
    Parts.ofText (String.ofList (front ++ '=' :: behind)) =
      ⟨leading front ++ '=' :: behind, none, none⟩ := by
  have unsigned : '#' ∉ leading front ++ '=' :: behind :=
    List.not_mem_append (mt (mem_leading (by decide)).mp sign) fun member =>
      (inert.slot _ member).2.1 rfl
  have unmarked : '?' ∉ leading front ++ '=' :: behind :=
    List.not_mem_append (mt (mem_leading (by decide)).mp mark) fun member =>
      (inert.slot _ member).2.2 rfl
  rw [ofText_slot inert, cutAt_eq_none unsigned, cutAt_eq_none unmarked]

end Slots

section Trimming

/-- What is read of a text that does not begin with a blank. -/
def ended (text : List Char) : List Char :=
  (text.reverse.dropWhile isTrimmed).reverse.filter (!isDropped ·)

theorem ended_cons {c : Char} (visible : 0x20 < c.toNat) (rest : List Char) :
    ended (c :: rest) = c :: ended rest := by
  have last : [c].dropWhile isTrimmed = [c] :=
    dropWhile_kept (List.forall_mem_singleton.mpr (isTrimmed_visible visible))
  have trimmed : (c :: rest).reverse.dropWhile isTrimmed =
      rest.reverse.dropWhile isTrimmed ++ [c] := by
    rw [List.reverse_cons, List.dropWhile_append, last]
    split
    · next empty => rw [List.isEmpty_iff.mp empty, List.nil_append]
    · rfl
  rw [ended, trimmed, List.reverse_append, List.reverse_singleton, List.singleton_append,
    List.filter_cons, isDropped_visible visible, Bool.not_false, if_pos rfl, ended]

theorem ended_append {front : List Char} (visible : ∀ c ∈ front, 0x20 < c.toNat)
    (rest : List Char) : ended (front ++ rest) = front ++ ended rest := by
  induction front with
  | nil => rfl
  | cons c more ih =>
      obtain ⟨here, later⟩ := List.forall_mem_cons.mp visible
      rw [List.cons_append, ended_cons here, ih later, List.cons_append]

theorem relevant_eq {text : List Char} (visible : ∀ c ∈ text.head?, 0x20 < c.toNat) :
    relevant text = ended text := by
  have started : text.dropWhile isTrimmed = text := by
    cases text with
    | nil => rfl
    | cons c rest =>
        rw [List.dropWhile_cons_of_neg]
        rw [isTrimmed_visible (visible c rfl)]
        exact Bool.false_ne_true
  rw [relevant, started, ended]

end Trimming

section Encoding

variable {avoided : UInt8 → Bool} {text : List Char}

/-- Nothing of a text is escaped that holds no avoided byte. -/
theorem encode_kept (ascii : ∀ c ∈ text, c.toNat < 0x80)
    (kept : ∀ c ∈ text, avoided c.toNat.toUInt8 = false) : encode avoided text = text := by
  have each : ∀ c ∈ text, (String.utf8EncodeChar c).flatMap (encodeByte avoided) = [c] := by
    intro c member
    have small : c.val.toNat < 0x80 := ascii c member
    have unavoided : avoided (UInt8.ofNat c.val.toNat) = false := kept c member
    have byte : (UInt8.ofNat c.val.toNat).toNat = c.toNat := by
      rw [UInt8.toNat_ofNat', Nat.mod_eq_of_lt (by omega)]
      rfl
    rw [Text.utf8EncodeChar_low small, List.flatMap_singleton, encodeByte, unavoided,
      if_neg Bool.false_ne_true, asciiChar, byte, Char.ofNat_toNat]
  rw [encode, List.flatMap_congr each, List.flatMap_singleton']

/-- A query takes the form encoding as it is. -/
theorem queryOf_append (formed : ∀ c ∈ text, FormChar c) (special : Bool) (raw : List Char) :
    queryOf special (raw ++ text) = queryOf special raw ++ String.ofList text := by
  have kept : ∀ c ∈ text, avoidedInQuery c.toNat.toUInt8 = false := by
    intro c member
    exact (Bool.or_eq_false_iff.mp (formed c member).kept).1
  have ascii : ∀ c ∈ text, c.toNat < 0x80 := fun c member => (formed c member).ascii
  rw [queryOf, encode_append, String.ofList_append, queryOf]
  congr 2
  cases special with
  | true => exact encode_kept ascii fun c member => (formed c member).kept
  | false => exact encode_kept ascii kept

end Encoding

end Bearer.Url

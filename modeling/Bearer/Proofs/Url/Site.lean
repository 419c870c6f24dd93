import Mathlib
import Bearer.Proofs.Url.Hosts

/-!
The site of a URL: its scheme, its user, its host and its port. They are written in front of its
path, and whatever path, query and fragment stand behind what is written, the same site is read.
-/
namespace Bearer.Url

/-- The URLs lead to the same host and port, by the same scheme and as the same user. -/
structure SameSite (url other : Url) : Prop where
  scheme : url.scheme = other.scheme
  username : url.username = other.username
  password : url.password = other.password
  host : url.host = other.host
  port : url.port = other.port

/-- What is written of a URL in front of its path. -/
def siteText (url : Url) : String :=
  url.scheme ++ ":" ++ url.authorityText

section Schemes

theorem isSchemeChar_plain {c : Char} (char : isSchemeChar c = true) :
    HostChar c ∧ c ≠ ':' ∧ isSchemeChar c.toLower = true ∧ c.toLower.toLower = c.toLower ∧
      (c.isAlpha = true → c.toLower.isAlpha = true) := by
  have ascii : c.toNat < 0x80 := by
    simp only [isSchemeChar, Char.isAlphanum, Char.isAlpha, Char.isUpper, Char.isLower,
      Char.isDigit, Bool.or_eq_true, Bool.and_eq_true, decide_eq_true_eq] at char
    rcases char with (((((⟨-, upper⟩ | ⟨-, lower⟩) | ⟨-, digit⟩) | rfl) | rfl) | rfl)
    · exact Nat.lt_of_le_of_lt (show c.toNat ≤ 90 from upper) (by decide)
    · exact Nat.lt_of_le_of_lt (show c.toNat ≤ 122 from lower) (by decide)
    · exact Nat.lt_of_le_of_lt (show c.toNat ≤ 57 from digit) (by decide)
    all_goals decide
  have all : ∀ n : Fin 128, isSchemeChar (Char.ofNat n) = true → HostChar (Char.ofNat n) ∧
      Char.ofNat n ≠ ':' ∧ isSchemeChar (Char.ofNat n).toLower = true ∧
      (Char.ofNat n).toLower.toLower = (Char.ofNat n).toLower ∧
      ((Char.ofNat n).isAlpha = true → (Char.ofNat n).toLower.isAlpha = true) := by
    decide +kernel
  exact ascii_of_all (p := fun c => isSchemeChar c = true → HostChar c ∧ c ≠ ':' ∧
    isSchemeChar c.toLower = true ∧ c.toLower.toLower = c.toLower ∧
    (c.isAlpha = true → c.toLower.isAlpha = true)) all ascii char

/-- A scheme as one is read: it is read again in front of a colon. -/
structure SchemeText (scheme : String) : Prop where
  chars : ∀ c ∈ scheme.toList, isSchemeChar c = true
  rereads : ∀ behind, cutScheme (scheme.toList ++ ':' :: behind) = some (scheme, behind)

theorem schemeText_of_cut {body behind : List Char} {scheme : String}
    (cut : cutScheme body = some (scheme, behind)) : SchemeText scheme := by
  simp only [cutScheme] at cut
  split at cut
  · next c rest after parts =>
      split at cut
      · next valid =>
          cases cut
          rw [Bool.and_eq_true] at valid
          obtain ⟨letter, others⟩ := valid
          have first : isSchemeChar c = true := by simp [isSchemeChar, Char.isAlphanum, letter]
          have chars : ∀ e ∈ c :: rest, isSchemeChar e = true :=
            List.forall_mem_cons.mpr ⟨first, List.all_eq_true.mp others⟩
          have lowered : ∀ e ∈ (c :: rest).map Char.toLower, isSchemeChar e = true := by
            intro e member
            obtain ⟨own, among, rfl⟩ := List.mem_map.mp member
            exact (isSchemeChar_plain (chars own among)).2.2.1
          refine ⟨by rwa [String.toList_ofList], ?_⟩
          intro behind
          have uncut : ':' ∉ (c :: rest).map Char.toLower := fun member =>
            (isSchemeChar_plain (lowered _ member)).2.1 rfl
          have again : ((c :: rest).map Char.toLower).map Char.toLower =
              (c :: rest).map Char.toLower := by
            rw [List.map_map]
            exact List.map_congr_left fun e member => (isSchemeChar_plain (chars e member)).2.2.2.1
          have starts := (isSchemeChar_plain first).2.2.2.2 letter
          have goesOn : (rest.map Char.toLower).all isSchemeChar = true :=
            List.all_eq_true.mpr fun e member => lowered e (List.mem_cons_of_mem _ member)
          simp only [String.toList_ofList, cutScheme, cutAt_first uncut]
          simp only [List.map_cons] at again ⊢
          rw [starts, goesOn, again, Bool.and_self, if_pos rfl]
      · cases cut
  · cases cut

end Schemes

section Userinfo

/-- A character in which users and passwords are written. -/
structure UserChar (c : Char) : Prop where
  ascii : c.toNat < 0x80
  kept : avoidedInUserinfo c.toNat.toUInt8 = false

instance (c : Char) : Decidable (UserChar c) :=
  decidable_of_iff (c.toNat < 0x80 ∧ avoidedInUserinfo c.toNat.toUInt8 = false)
    ⟨fun ⟨ascii, kept⟩ => ⟨ascii, kept⟩, fun ⟨ascii, kept⟩ => ⟨ascii, kept⟩⟩

theorem UserChar.plain {c : Char} (user : UserChar c) : HostChar c ∧ c ≠ ':' := by
  have all : ∀ n : Fin 128, UserChar (Char.ofNat n) →
      HostChar (Char.ofNat n) ∧ Char.ofNat n ≠ ':' := by
    decide +kernel
  exact ascii_of_all (p := fun c => UserChar c → HostChar c ∧ c ≠ ':') all user.ascii user

theorem userChar_of_encode {text : List Char} {c : Char}
    (written : c ∈ encode avoidedInUserinfo text) : UserChar c := by
  rcases mem_encode written with escape | ⟨byte, kept, -⟩
  · have all : (escapes.all fun c => UserChar c) = true := by decide
    exact of_decide_eq_true (List.all_eq_true.mp all c escape)
  · have above : ∀ n : Fin 256, avoidedInUserinfo n.val.toUInt8 = false → n.val < 0x80 := by
      decide +kernel
    exact ⟨above ⟨c.toNat, byte⟩ kept, kept⟩

/-- Of such characters nothing is escaped again. -/
theorem encode_user {text : List Char} (chars : ∀ c ∈ text, UserChar c) :
    encode avoidedInUserinfo text = text :=
  encode_kept (fun c member => (chars c member).ascii) fun c member => (chars c member).kept

theorem encode_ne_nil {avoided : UInt8 → Bool} {text : List Char} (some : text ≠ []) :
    encode avoided text ≠ [] := by
  obtain ⟨c, rest, rfl⟩ := List.exists_cons_of_ne_nil some
  intro empty
  have bytes : String.utf8EncodeChar c ≠ [] := fun none => by
    have size := String.length_utf8EncodeChar c
    rw [none] at size
    exact absurd c.utf8Size_pos (by simp [← size])
  obtain ⟨b, more, bytes⟩ := List.exists_cons_of_ne_nil bytes
  simp only [encode, encodeByte, percentByte, List.flatMap_eq_nil_iff] at empty
  have first := empty c List.mem_cons_self b (by simp [bytes])
  split at first <;> cases first

/-- What stands in front of the at sign of a URL, where there is one. -/
def userinfo? (url : Url) : Option (List Char) :=
  match url.password with
  | some password => some (url.username.toList ++ ':' :: password.toList)
  | none => if url.username = "" then none else some url.username.toList

theorem toList_userinfoText (url : Url) :
    url.userinfoText.toList = url.userinfo?.elim [] (· ++ ['@']) := by
  rw [userinfoText, userinfo?]
  cases url.password with
  | some password =>
      simp only [String.toList_append, Option.elim, List.append_assoc]
      rfl
  | none =>
      dsimp only
      split
      · rfl
      · rw [String.toList_append]
        rfl

theorem userinfo_ne_nil (url : Url) : url.userinfo? ≠ some [] := by
  rw [userinfo?]
  cases url.password with
  | some password =>
      intro empty
      exact List.append_ne_nil_of_right_ne_nil _ (List.cons_ne_nil _ _) (Option.some.inj empty)
  | none =>
      dsimp only
      split
      · nofun
      · next some => exact fun empty => some (String.toList_eq_nil_iff.mp (Option.some.inj empty))

theorem cutUserinfo_some {text : List Char} (plain : '@' ∉ text) (user : List Char) :
    cutUserinfo (user ++ '@' :: text) = (some user, text) := by
  have absent : '@' ∉ text.reverse := mt List.mem_reverse.mp plain
  have backward : (user ++ '@' :: text).reverse = text.reverse ++ '@' :: user.reverse := by simp
  simp [cutUserinfo, backward, cutAt_first absent]

theorem cutUserinfo_none {text : List Char} (plain : '@' ∉ text) :
    cutUserinfo text = (none, text) := by
  simp [cutUserinfo, cutAt_eq_none (mt List.mem_reverse.mp plain)]

end Userinfo

section Ports

theorem cutPort_unbracketed {text : List Char} (colon : ':' ∉ text) (bracket : '[' ∉ text)
    (rest : List Char) :
    cutPort false (text ++ rest) =
      (text ++ (cutPort false rest).1, (cutPort false rest).2) := by
  induction text with
  | nil => rfl
  | cons c more ih =>
      obtain ⟨plain, colons⟩ := List.ne_and_not_mem_of_not_mem_cons colon
      obtain ⟨unopened, brackets⟩ := List.ne_and_not_mem_of_not_mem_cons bracket
      simp [cutPort, plain.symm, unopened.symm, ih colons brackets]

theorem cutPort_bracketed {text : List Char} (unclosed : ']' ∉ text) (rest : List Char) :
    cutPort true (text ++ ']' :: rest) =
      (text ++ ']' :: (cutPort false rest).1, (cutPort false rest).2) := by
  induction text with
  | nil => simp [cutPort]
  | cons c more ih =>
      obtain ⟨other, later⟩ := List.ne_and_not_mem_of_not_mem_cons unclosed
      simp [cutPort, other.symm, ih later]

/-- What is written for a host is cut off the port behind it. -/
theorem cutPort_host {host : Host} (text : HostText host) (rest : List Char) :
    cutPort false (host.text.toList ++ rest) =
      (host.text.toList ++ (cutPort false rest).1, (cutPort false rest).2) := by
  rcases text.closed with ⟨groups, rfl⟩ | ⟨colon, bracket⟩
  · have unclosed : ']' ∉ (Ipv6.text groups).toList := Ipv6.unclosed_text groups
    simp [toList_ipv6, cutPort, cutPort_bracketed unclosed]
  · exact cutPort_unbracketed colon bracket rest

theorem portOf_digits {scheme : String} {n : Nat} (small : n ≤ 65535)
    (special : defaultPort scheme ≠ some n) :
    portOf scheme (Nat.toDigits 10 n) = .ok (some n, []) := by
  have digits : ∀ c ∈ Nat.toDigits 10 n, c.isDigit = true := fun _ member =>
    Ipv4.isDigit_decimal member
  have value : Decimal.ofDigits ((Nat.toDigits 10 n).map fun c => c.toNat - '0'.toNat) = n := by
    rw [Decimal.ofDigits, List.foldl_map]
    exact Nat.ofDigitChars_ten_toDigits
  have some : (Nat.toDigits 10 n).isEmpty = false := by simp [Nat.toDigits_ne_nil]
  simp only [portOf]
  rw [List.takeWhile_eq_self_iff.mpr digits, List.dropWhile_eq_nil_iff.mpr digits, value,
    if_neg (by omega), if_neg (by simp), if_neg (by simp [some, special])]

theorem portOf_nil {scheme : String} : portOf scheme [] = .ok (none, []) :=
  rfl

theorem portOf_spec {scheme : String} {text leftover : List Char} {n : Nat}
    (read : portOf scheme text = .ok (some n, leftover)) :
    n ≤ 65535 ∧ defaultPort scheme ≠ some n := by
  simp only [portOf] at read
  split at read
  · cases read
  · next small =>
      split at read
      · cases read
      · split at read
        · cases read
        · next special =>
            cases read
            simp only [Bool.or_eq_true, decide_eq_true_eq, not_or] at special
            exact ⟨by omega, special.2⟩

end Ports

theorem userinfoOf_spec {text : List Char} {username : String} {password : Option String}
    (read : userinfoOf text = (username, password)) :
    (∀ c ∈ username.toList, UserChar c) ∧
      ∀ own ∈ password, own ≠ "" ∧ ∀ c ∈ own.toList, UserChar c := by
  have chars : ∀ {text : List Char}, ∀ c ∈ (String.ofList (encode avoidedInUserinfo text)).toList,
      UserChar c := by
    intro text c member
    rw [String.toList_ofList] at member
    exact userChar_of_encode member
  simp only [userinfoOf] at read
  split at read
  · next user own _ =>
      cases read
      refine ⟨chars, fun given same => ?_⟩
      split at same
      · cases same
      · next some =>
          cases same
          refine ⟨fun empty => ?_, chars⟩
          rw [String.ofList_eq_empty_iff] at empty
          exact encode_ne_nil (by simpa using some) empty
  · cases read
    exact ⟨chars, fun own given => absurd given (Option.not_mem_none own)⟩

theorem schemeText_file : SchemeText "file" :=
  have cut : cutScheme "file:".toList = some ("file", []) := by decide +kernel
  schemeText_of_cut cut

/-- The names of a path hold no slash, and an opaque path begins with none. -/
def Path.Single : Path → Prop
  | .opaqueText text => text.toList.head? ≠ some '/'
  | .segments names => ∀ name ∈ names, '/' ∉ name.toList

/-- What a URL without a host is when it is read. -/
structure Hostless (url : Url) : Prop where
  hostless : url.host = none
  scheme : SchemeText url.scheme
  path : url.path.Single

theorem not_mem_part {α : Type} [DecidableEq α] {sep : α} {text part : List α}
    (among : part ∈ splitOn sep text) : sep ∉ part := by
  induction text generalizing part with
  | nil =>
      rw [List.mem_singleton.mp among]
      exact List.not_mem_nil
  | cons a rest ih =>
      rw [splitOn] at among
      split at among
      · rcases List.mem_cons.mp among with rfl | later
        · exact List.not_mem_nil
        · exact ih later
      · next other =>
          split at among
          · next first others parts =>
              rw [parts] at ih
              rcases List.mem_cons.mp among with rfl | later
              · exact List.not_mem_cons_of_ne_of_not_mem (Ne.symm other) (ih List.mem_cons_self)
              · exact ih (List.mem_cons_of_mem _ later)
          · rw [List.mem_singleton.mp among]
            exact List.not_mem_cons_of_ne_of_not_mem (Ne.symm other) List.not_mem_nil

theorem single_pathBelow (special : Bool) (text : List Char) :
    (pathBelow special [] text).Single := by
  intro name member slash
  rcases mem_walk member with rfl | before | ⟨segment, among, rfl⟩
  · cases slash
  · cases before
  · rcases mem_segmentText slash (by decide) with inside | escape | colon
    · exact not_mem_part among inside
    · exact absurd escape (by decide)
    · cases colon

theorem single_opaque {text : List Char} (start : text.head? ≠ some '/') :
    (Path.opaqueText (String.ofList (encode isControl text))).Single := by
  cases text with
  | nil => exact nofun
  | cons c rest =>
      have other : '/' ≠ c := fun same => start (by rw [same]; rfl)
      have whole : encode isControl (c :: rest) = encode isControl [c] ++ encode isControl rest :=
        encode_append isControl [c] rest
      have written : encode isControl [c] ≠ [] := encode_ne_nil (List.cons_ne_nil c [])
      obtain ⟨d, more, front⟩ := List.exists_cons_of_ne_nil written
      rw [Path.Single, String.toList_ofList, whole, front]
      intro slash
      have first : d = '/' := Option.some.inj slash
      rcases mem_encode (c := '/') (by rw [front, first]; exact List.mem_cons_self) with
        escape | ⟨-, -, own⟩
      · exact absurd escape (by decide)
      · exact other (List.mem_singleton.mp (own (by decide)))

section Reading

variable [Idna]

open Json (bind_eq_ok pure_eq_ok)

/-- What is read in front of the path of a URL with a host is written so that it is read again. The
machine itself is the host of a file without a name. -/
structure Sited (url : Url) (host : Host) : Prop where
  hosted : url.host = some host
  scheme : SchemeText url.scheme
  username : ∀ c ∈ url.username.toList, UserChar c
  password : ∀ password ∈ url.password, password ≠ "" ∧ ∀ c ∈ password.toList, UserChar c
  written : HostText host
  port : ∀ n ∈ url.port, n ≤ 65535 ∧ defaultPort url.scheme ≠ some n
  rereads : (url.scheme = "file" → host ≠ .domain "") →
    hostOf url.scheme host.text.toList = .ok host
  nameless : host = .domain "" → url.username = "" ∧ url.password = none ∧ url.port = none
  file : url.scheme = "file" →
    url.username = "" ∧ url.password = none ∧ url.port = none ∧ host ≠ .domain "localhost"

theorem Sited.of_sameSite {url other : Url} {host : Host} (sited : Sited url host)
    (same : SameSite other url) : Sited other host := by
  cases url
  cases other
  obtain ⟨rfl, rfl, rfl, rfl, rfl⟩ := same
  exact ⟨sited.hosted, sited.scheme, sited.username, sited.password, sited.written, sited.port,
    sited.rereads, sited.nameless, sited.file⟩

theorem hostOf_text {scheme : String} {text : List Char} {host : Host}
    (read : hostOf scheme text = .ok host) :
    HostText host ∧ hostOf scheme host.text.toList = .ok host := by
  by_cases special : isSpecialScheme scheme = true
  · simp only [hostOf, if_pos special] at read ⊢
    exact parse_text read
  · simp only [hostOf, if_neg special] at read ⊢
    exact parseOpaque_text read

theorem sited_withAuthority {scheme : String} {parts : Parts} {text : List Char} {url : Url}
    (read : withAuthority scheme parts text = .ok url) (plain : SchemeText scheme)
    (other : scheme ≠ "file") : ∃ host, Sited url host := by
  simp only [withAuthority, bind_eq_ok, pure_eq_ok] at read
  obtain ⟨⟨authority, behind⟩, taken, rfl⟩ := read
  obtain ⟨leftover, -, reads, -⟩ := authorityOf_eq_ok_iff.mp taken
  obtain ⟨username, password⟩ := userinfoOf_spec reads.userinfo
  obtain ⟨host, rereads⟩ := hostOf_text reads.host
  refine ⟨authority.host, rfl, plain, username, password, host, ?_, fun _ => rereads, ?_,
    fun file => absurd file other⟩
  · intro n given
    have ported := reads.port
    rw [show authority.port = some n from given] at ported
    exact portOf_spec ported
  · intro empty
    obtain ⟨portless, username, password⟩ := reads.nameless empty
    refine ⟨username, password, ?_⟩
    have ported := reads.port
    rw [portless] at ported
    exact (Prod.mk.inj (Except.ok.inj (ported.symm.trans portOf_nil))).1

theorem fileHost_spec {text behind : List Char} {host : Host}
    (read : fileHost text = .ok (host, behind)) :
    host = .domain "" ∨ host ≠ .domain "localhost" ∧ ∃ own, Host.parse own = .ok host := by
  simp only [fileHost] at read
  split at read
  · cases read
    exact .inl rfl
  · split at read
    · cases read
      exact .inl rfl
    · obtain ⟨own, parsed, same⟩ := bind_eq_ok.mp read
      cases same
      split
      · exact .inl rfl
      · next other => exact .inr ⟨other, _, parsed⟩

theorem sited_file {host : Host} (own : host = .domain "" ∨
      host ≠ .domain "localhost" ∧ ∃ text, Host.parse text = .ok host)
    (path : Path) (parts : Parts) :
    Sited (parts.complete (withoutAuthority "file" (some host) path)) host := by
  have special : isSpecialScheme "file" = true := by decide
  have nobody : ∀ {c : Char}, c ∉ "".toList := List.not_mem_nil
  refine ⟨rfl, schemeText_file, fun _ member => absurd member nobody, nofun, ?_, nofun, ?_,
    fun _ => ⟨rfl, rfl, rfl⟩, ?_⟩
  · rcases own with rfl | ⟨-, text, read⟩
    · exact ⟨fun _ member => absurd member nobody, .inr ⟨nobody, nobody⟩⟩
    · exact (parse_text read).1
  · intro named
    rcases own with rfl | ⟨-, text, read⟩
    · exact absurd rfl (named rfl)
    · exact (if_pos special).trans (parse_text read).2
  · intro _
    refine ⟨rfl, rfl, rfl, ?_⟩
    rcases own with rfl | ⟨other, -⟩
    · decide
    · exact other

theorem sited_fileUrl {parts : Parts} {text : List Char} {url : Url}
    (read : fileUrl none parts text = .ok url) : ∃ host, Sited url host := by
  cases text with
  | nil =>
      cases read
      exact ⟨_, sited_file (.inl rfl) _ _⟩
  | cons c rest =>
      simp only [fileUrl] at read
      split at read
      · cases rest with
        | nil =>
            cases read
            exact ⟨_, sited_file (.inl rfl) _ _⟩
        | cons d behind =>
            simp only at read
            split at read
            · simp only [bind_eq_ok, pure_eq_ok] at read
              obtain ⟨⟨host, pathText⟩, taken, rfl⟩ := read
              refine ⟨_, sited_file ?_ _ _⟩
              dsimp only
              split
              · split
                · exact .inl rfl
                · exact fileHost_spec taken
              · exact fileHost_spec taken
            · cases read
              exact ⟨_, sited_file (.inl rfl) _ _⟩
      · cases read
        exact ⟨_, sited_file (.inl rfl) _ _⟩

/-- A URL that is read has no host, or a site that is read again. -/
theorem sited_of_parse {text : String} {url : Url} (read : parse text = .ok url) :
    url.Hostless ∨ ∃ host, Sited url host := by
  rw [parse_eq_ofParts, ofParts] at read
  split at read
  · next scheme behind cut =>
      have plain := schemeText_of_cut cut
      simp only [withScheme] at read
      split at read
      · exact .inr (sited_fileUrl read)
      · next other =>
          split at read
          · exact .inr (sited_withAuthority read plain other)
          · split at read
            · exact .inr (sited_withAuthority read plain other)
            · next rest _ =>
                cases read
                exact .inl ⟨rfl, plain, single_pathBelow false rest⟩
            · next unslashed =>
                cases read
                refine .inl ⟨rfl, plain, single_opaque fun slash => ?_⟩
                obtain ⟨rest, rfl⟩ := List.head?_eq_some_iff.mp slash
                exact unslashed rest rfl
  · cases read

end Reading

end Bearer.Url

import Mathlib
import Bearer.Proofs.Json.Record
import Bearer.Proofs.Url.Parts

/-!
Where the marks of a URL stand. A question mark begins the query and a number sign the fragment; no
part in front of them is written with either, because none is read from a text with one and the
percent encoding brings in neither.
-/
namespace Bearer.Url

/-- A sign that ends what stands before it in a URL. -/
inductive Mark : Char → Prop where
  | query : Mark '?'
  | fragment : Mark '#'

section Encoding

/-- The characters in which an avoided byte is written. -/
def escapes : List Char :=
  "%0123456789ABCDEF".toList

theorem percentByte_escapes :
    ∀ b : Fin 256, ((percentByte (UInt8.ofFin b)).all fun c => c ∈ escapes) = true := by
  decide +kernel

theorem asciiChar_toNat (b : UInt8) : (asciiChar b).toNat = b.toNat := by
  have small := b.toNat_lt
  have valid : b.toNat.isValidChar := Or.inl (by omega)
  simp [asciiChar, Char.ofNat, valid, Char.ofNatAux, Char.toNat]

/-- What is written for a text is an escape, or a byte that is not avoided, and so a character of
the text itself, unless it is part of a longer one. -/
theorem mem_encode {avoided : UInt8 → Bool} {text : List Char} {c : Char}
    (written : c ∈ encode avoided text) :
    c ∈ escapes ∨
      c.toNat < 0x100 ∧ avoided c.toNat.toUInt8 = false ∧ (c.toNat < 0x80 → c ∈ text) := by
  obtain ⟨e, inText, member⟩ := List.mem_flatMap.mp written
  obtain ⟨b, inChar, member⟩ := List.mem_flatMap.mp member
  simp only [encodeByte] at member
  split at member
  · exact .inl (of_decide_eq_true (List.all_eq_true.mp (percentByte_escapes b.toFin) c member))
  · next kept =>
      obtain rfl := List.mem_singleton.mp member
      rw [asciiChar_toNat]
      refine .inr ⟨b.toNat_lt, by simpa using kept, fun small => ?_⟩
      by_cases low : e.val.toNat < 0x80
      · rw [Text.utf8EncodeChar_low low, List.mem_singleton] at inChar
        have number := congrArg UInt8.toNat inChar
        simp only [UInt8.toNat_ofNat'] at number
        have value := asciiChar_toNat b
        have same : asciiChar b = e :=
          Char.toNat_inj.mp (show (asciiChar b).toNat = e.val.toNat by omega)
        exact same ▸ inText
      · have high := Text.le_of_mem_utf8EncodeChar (by omega) inChar
        omega

variable {d : Char} (mark : Mark d)
include mark

theorem Mark.ascii : d.toNat < 0x80 := by
  cases mark <;> decide

theorem Mark.not_mem_escapes : d ∉ escapes := by
  cases mark <;> decide

/-- The percent encoding of a text without a mark has none. -/
theorem Mark.not_mem_encode {text : List Char} (absent : d ∉ text) (avoided : UInt8 → Bool) :
    d ∉ encode avoided text := by
  intro written
  rcases mem_encode written with escape | ⟨-, -, inText⟩
  · exact mark.not_mem_escapes escape
  · exact absent (inText mark.ascii)

end Encoding

section Segments

variable {d : Char}

theorem mem_of_mem_splitOn {α : Type} [DecidableEq α] {sep a : α} {text part : List α}
    (among : part ∈ splitOn sep text) (member : a ∈ part) : a ∈ text := by
  induction text generalizing part with
  | nil =>
      rw [splitOn, List.mem_singleton] at among
      rwa [among] at member
  | cons b rest ih =>
      rw [splitOn] at among
      split at among
      · rcases List.mem_cons.mp among with rfl | among
        · cases member
        · exact List.mem_cons_of_mem b (ih among member)
      · split at among
        · next first others parts =>
            rw [parts] at ih
            rcases List.mem_cons.mp among with rfl | among
            · rcases List.mem_cons.mp member with rfl | member
              · exact List.mem_cons_self
              · exact List.mem_cons_of_mem b (ih List.mem_cons_self member)
            · exact List.mem_cons_of_mem b (ih (List.mem_cons_of_mem _ among) member)
        · rw [List.mem_singleton.mp among] at member
          exact List.mem_cons.mpr (.inl (List.mem_singleton.mp member))

theorem Mark.not_mem_rawSegments (mark : Mark d) {text : List Char} (absent : d ∉ text)
    (special : Bool) : ∀ segment ∈ rawSegments special text, d ∉ segment := by
  intro segment among member
  obtain ⟨c, inText, same⟩ := List.mem_map.mp (mem_of_mem_splitOn among member)
  split at same
  · subst same
    cases mark
  · exact absent (same ▸ inText)

/-- No name holds the character. -/
def Names (d : Char) (names : List String) : Prop :=
  ∀ name ∈ names, d ∉ name.toList

/-- What is written for a segment is of the segment, an escape, or the colon of a drive. -/
theorem mem_segmentText {file : Bool} {segment : List Char} {c : Char}
    (written : c ∈ (segmentText file segment).toList) (ascii : c.toNat < 0x80) :
    c ∈ segment ∨ c ∈ escapes ∨ c = ':' := by
  have encoded : c ∈ encode avoidedInPath segment → c ∈ segment ∨ c ∈ escapes ∨ c = ':' :=
    fun member => (mem_encode member).elim (.inr ∘ .inl) fun kept => .inl (kept.2.2 ascii)
  simp only [segmentText] at written
  split at written
  · next drive =>
      split at written
      · rw [String.toList_ofList] at written
        rcases List.mem_cons.mp written with rfl | colon
        · exact .inl List.mem_cons_self
        · exact .inr (.inr (List.mem_singleton.mp colon))
      · exact encoded (by rwa [String.toList_ofList] at written)
  · exact encoded (by rwa [String.toList_ofList] at written)

theorem mem_of_mem_stepOut {before : List String} {name : String} (member : name ∈ stepOut before) :
    name ∈ before := by
  cases before with
  | nil => exact member
  | cons last rest =>
      rw [stepOut] at member
      split at member
      · exact member
      · exact List.mem_cons_of_mem last member

/-- A name on a path is empty, was there before, or is written for a segment. By induction on the
segments, with the names met so far. -/
theorem mem_walk {file : Bool} {segments : List (List Char)} {before : List String} {name : String}
    (member : name ∈ walk file before segments) :
    name = "" ∨ name ∈ before ∨ ∃ segment ∈ segments, name = segmentText file segment := by
  fun_induction walk file before segments with
  | case1 before => exact .inr (.inl (List.mem_reverse.mp member))
  | case2 before last =>
      rcases List.mem_cons.mp (List.mem_reverse.mp member) with rfl | earlier
      · exact .inl rfl
      · exact .inr (.inl earlier)
  | case3 before last =>
      rcases List.mem_cons.mp (List.mem_reverse.mp member) with rfl | earlier
      · exact .inl rfl
      · exact .inr (.inl (mem_of_mem_stepOut earlier))
  | case4 before last =>
      rcases List.mem_cons.mp (List.mem_reverse.mp member) with rfl | earlier
      · exact .inr (.inr ⟨last, List.mem_cons_self, rfl⟩)
      · exact .inr (.inl earlier)
  | case5 before segment rest _ _ ih =>
      rcases ih member with empty | earlier | ⟨other, among, rfl⟩
      · exact .inl empty
      · exact .inr (.inl earlier)
      · exact .inr (.inr ⟨other, List.mem_cons_of_mem segment among, rfl⟩)
  | case6 before segment rest _ _ ih =>
      rcases ih member with empty | earlier | ⟨other, among, rfl⟩
      · exact .inl empty
      · exact .inr (.inl (mem_of_mem_stepOut earlier))
      · exact .inr (.inr ⟨other, List.mem_cons_of_mem segment among, rfl⟩)
  | case7 before segment rest _ _ _ ih =>
      rcases ih member with empty | earlier | ⟨other, among, rfl⟩
      · exact .inl empty
      · rcases List.mem_cons.mp earlier with rfl | earlier
        · exact .inr (.inr ⟨segment, List.mem_cons_self, rfl⟩)
        · exact .inr (.inl earlier)
      · exact .inr (.inr ⟨other, List.mem_cons_of_mem segment among, rfl⟩)

/-- A walk from names without the mark over segments without it gives such names. -/
theorem Mark.names_walk (mark : Mark d) (file : Bool) {segments : List (List Char)}
    (absent : ∀ segment ∈ segments, d ∉ segment) {before : List String} (names : Names d before) :
    Names d (walk file before segments) := by
  intro name member written
  rcases mem_walk member with rfl | earlier | ⟨segment, among, rfl⟩
  · cases written
  · exact names name earlier written
  · rcases mem_segmentText written mark.ascii with inSegment | escape | rfl
    · exact absent segment among inSegment
    · exact mark.not_mem_escapes escape
    · cases mark

end Segments

section Paths

variable {d : Char} (mark : Mark d)

/-- No part of the path holds the character. -/
def Path.Lacks (d : Char) : Path → Prop
  | .opaqueText text => d ∉ text.toList
  | .segments names => Names d names

include mark

theorem Mark.lacks_pathBelow {text : List Char} (absent : d ∉ text) (special : Bool) :
    (pathBelow special [] text).Lacks d :=
  mark.names_walk false (mark.not_mem_rawSegments absent special) nofun

theorem Mark.lacks_pathAfterAuthority {text : List Char} (absent : d ∉ text) (special : Bool) :
    (pathAfterAuthority special text).Lacks d := by
  have root : Names d [""] := List.forall_mem_singleton.mpr List.not_mem_nil
  cases text with
  | nil => cases special with
    | true => exact root
    | false => exact nofun
  | cons c rest =>
      simp only [pathAfterAuthority]
      split
      · exact mark.lacks_pathBelow (List.ne_and_not_mem_of_not_mem_cons absent).2 special
      · exact mark.lacks_pathBelow absent special

theorem Mark.lacks_filePath {text : List Char} (absent : d ∉ text) :
    (filePath [] text).Lacks d := by
  have walked : Names d (walk true [] (rawSegments true text)) :=
    mark.names_walk true (mark.not_mem_rawSegments absent true) nofun
  have kept : Names d ((walk true [] (rawSegments true text)).dropWhile (· == "")) :=
    fun name member => walked name ((List.dropWhile_sublist _).mem member)
  simp only [filePath]
  split
  · exact List.forall_mem_singleton.mpr List.not_mem_nil
  · exact kept

theorem Mark.not_mem_pathText {path : Path} (lacks : path.Lacks d) : d ∉ path.text.toList := by
  cases path with
  | opaqueText text => exact lacks
  | segments names =>
      rw [Path.text]
      induction names with
      | nil => exact List.not_mem_nil
      | cons name rest ih =>
          obtain ⟨here, later⟩ := List.forall_mem_cons.mp lacks
          have slash : d ∉ "/".toList := by
            cases mark <;> decide
          simp only [List.foldr_cons, String.toList_append, List.mem_append, not_or]
          exact ⟨⟨slash, here⟩, ih later⟩

end Paths

section Hosts

theorem mem_intercalate {sep : String} {names : List String} {c : Char}
    (member : c ∈ (sep.intercalate names).toList) :
    c ∈ sep.toList ∨ ∃ name ∈ names, c ∈ name.toList := by
  rw [String.toList_intercalate] at member
  induction names with
  | nil => cases member
  | cons name rest ih =>
      cases rest with
      | nil => exact .inr ⟨name, List.mem_cons_self, by simpa using member⟩
      | cons next others =>
          rw [List.map_cons, List.map_cons, List.intercalate_cons_cons, ← List.map_cons] at member
          rcases List.mem_append.mp member with front | later
          · rcases List.mem_append.mp front with here | between
            · exact .inr ⟨name, List.mem_cons_self, here⟩
            · exact .inl between
          · rcases ih later with between | ⟨other, among, inside⟩
            · exact .inl between
            · exact .inr ⟨other, List.mem_cons_of_mem name among, inside⟩

theorem mem_toDigits {base n : Nat} {c : Char} (least : 1 < base)
    (member : c ∈ Nat.toDigits base n) :
    ∃ k < base, c = Nat.digitChar k := by
  induction n using Nat.strongRecOn with
  | _ n ih =>
    rcases Nat.lt_or_ge n base with small | large
    · rw [Nat.toDigits_of_lt_base small, List.mem_singleton] at member
      exact ⟨n, small, member⟩
    · rw [Nat.toDigits_of_base_le least large, List.mem_append, List.mem_singleton] at member
      rcases member with earlier | last
      · exact ih _ (Nat.div_lt_self (by omega) least) earlier
      · exact ⟨n % base, Nat.mod_lt n (by omega), last⟩

/-- The characters in which the address of a host is written. -/
def addressChars : List Char :=
  "0123456789abcdef.:[]".toList

theorem mem_addressChars_of_digits {base n : Nat} {c : Char} (least : 1 < base) (most : base ≤ 16)
    (member : c ∈ Nat.toDigits base n) : c ∈ addressChars := by
  have digit : ∀ k : Fin 16, Nat.digitChar k ∈ addressChars := by decide
  obtain ⟨k, small, rfl⟩ := mem_toDigits least member
  exact digit ⟨k, by omega⟩

theorem mem_addressChars_of_toString {n : Nat} {c : Char} (member : c ∈ (toString n).toList) :
    c ∈ addressChars := by
  rw [Nat.toString_eq_ofList_toDigits, String.toList_ofList] at member
  exact mem_addressChars_of_digits (by decide) (by decide) member

theorem mem_address {host : Host} (numeric : ∀ name, host ≠ .domain name) {c : Char}
    (member : c ∈ host.text.toList) : c ∈ addressChars := by
  have joined : ∀ {groups : List Nat}, c ∈ (":".intercalate (groups.map Ipv6.hexText)).toList →
      c ∈ addressChars := by
    intro groups member
    rcases mem_intercalate member with colon | ⟨name, among, inside⟩
    · rw [List.mem_singleton.mp colon]
      decide
    · obtain ⟨n, -, rfl⟩ := List.mem_map.mp among
      rw [Ipv6.hexText, String.toList_ofList] at inside
      exact mem_addressChars_of_digits (by decide) (by decide) inside
  have signs : ∀ {sign : String}, sign.toList.all (· ∈ addressChars) = true →
      c ∈ sign.toList → c ∈ addressChars := fun all member =>
    of_decide_eq_true (List.all_eq_true.mp all c member)
  cases host with
  | domain name => exact absurd rfl (numeric name)
  | ipv4 address =>
      rcases mem_intercalate member with point | ⟨name, among, inside⟩
      · exact signs (by decide) point
      · obtain ⟨shift, -, rfl⟩ := List.mem_map.mp among
        exact mem_addressChars_of_toString inside
  | ipv6 groups =>
      simp only [Host.text, String.toList_append, List.mem_append] at member
      rcases member with (opened | inside) | closed
      · exact signs (by decide) opened
      · rw [Ipv6.text] at inside
        split at inside
        · exact joined inside
        · simp only [String.toList_append, List.mem_append] at inside
          rcases inside with (before | colons) | after
          · exact joined before
          · exact signs (by decide) colons
          · exact joined after
      · exact signs (by decide) closed

variable {d : Char} (mark : Mark d)
include mark

theorem Mark.not_mem_addressChars : d ∉ addressChars := by
  cases mark <;> decide

theorem Mark.not_mem_address {host : Host} (numeric : ∀ name, host ≠ .domain name) :
    d ∉ host.text.toList :=
  fun member => mark.not_mem_addressChars (mem_address numeric member)

theorem Mark.not_mem_bracketed {text : List Char} {host : Host}
    (read : Host.bracketed text = .ok host) : d ∉ host.text.toList := by
  apply mark.not_mem_address
  rintro name rfl
  simp only [Host.bracketed] at read
  split at read <;> try split at read
  all_goals cases read

/-- A mark that a lower-case character is was not written in upper case. -/
theorem Mark.eq_of_toLower {c : Char} (same : c.toLower = d) : c = d := by
  have low : d.val.toNat < 65 := by
    cases mark <;> decide
  rw [Char.toLower] at same
  split at same
  · next upper =>
      have least : 65 ≤ c.val.toNat := upper.1
      have most : c.val.toNat ≤ 90 := upper.2
      have step : ('a'.val - 'A'.val).toNat = 32 := by decide
      have number : (c.val + ('a'.val - 'A'.val)).toNat = d.val.toNat :=
        congrArg (·.val.toNat) same
      rw [UInt32.toNat_add, step] at number
      omega
  · exact same

theorem Mark.not_nameChar : ¬NameChar d := by
  cases mark <;> decide

/-- A name that has been put into ASCII is written without marks, and so is the address that it may
be. -/
theorem Mark.not_mem_parsed [Idna] {text : List Char} {host : Host}
    (read : Host.parse text = .ok host) : d ∉ host.text.toList := by
  rw [Host.parse.eq_def] at read
  split at read
  · exact mark.not_mem_bracketed read
  · split at read
    · next name ascii =>
        simp only [named] at read
        repeat' split at read
        all_goals first | cases read
        · exact mark.not_mem_address nofun
        · rw [Host.text, String.toList_ofList]
          exact fun member => mark.not_nameChar (Idna.written ascii d member)
    · cases read

theorem Mark.not_mem_opaqueHost {text : List Char} {host : Host}
    (read : Host.parseOpaque text = .ok host) (absent : d ∉ text) : d ∉ host.text.toList := by
  rw [Host.parseOpaque.eq_def] at read
  split at read
  · exact mark.not_mem_bracketed read
  · split at read
    · cases read
    · cases read
      rw [Host.text, String.toList_ofList]
      exact mark.not_mem_encode absent isControl

end Hosts

section Whole

open Json (bind_eq_ok guarded_eq_ok pure_eq_ok)

variable {d : Char}

theorem not_mem_cutAt (sep : Char) {text : List Char} (absent : d ∉ text) :
    d ∉ (cutAt sep text).1 ∧ ∀ after ∈ (cutAt sep text).2, d ∉ after := by
  induction text with
  | nil => exact ⟨List.not_mem_nil, nofun⟩
  | cons c rest ih =>
      obtain ⟨other, later⟩ := List.ne_and_not_mem_of_not_mem_cons absent
      rw [cutAt]
      split
      · exact ⟨List.not_mem_nil, fun after cut => by cases cut; exact later⟩
      · exact ⟨List.not_mem_cons_of_ne_of_not_mem other (ih later).1, (ih later).2⟩

theorem not_mem_cutPort {text : List Char} (absent : d ∉ text) (inBrackets : Bool) :
    d ∉ (cutPort inBrackets text).1 ∧ ∀ after ∈ (cutPort inBrackets text).2, d ∉ after := by
  induction text generalizing inBrackets with
  | nil => exact ⟨List.not_mem_nil, nofun⟩
  | cons c rest ih =>
      obtain ⟨other, later⟩ := List.ne_and_not_mem_of_not_mem_cons absent
      rw [cutPort]
      split
      · exact ⟨List.not_mem_nil, fun after cut => by cases cut; exact later⟩
      · exact ⟨List.not_mem_cons_of_ne_of_not_mem other (ih later _).1, (ih later _).2⟩

theorem not_mem_cutUserinfo {text : List Char} (absent : d ∉ text) :
    (∀ user ∈ (cutUserinfo text).1, d ∉ user) ∧ d ∉ (cutUserinfo text).2 := by
  obtain ⟨host, user⟩ := not_mem_cutAt '@' (mt List.mem_reverse.mp absent)
  refine ⟨?_, mt List.mem_reverse.mp host⟩
  intro before cut
  obtain ⟨backward, found, rfl⟩ := Option.map_eq_some_iff.mp cut
  exact mt List.mem_reverse.mp (user backward found)

theorem not_mem_getD {text : Option (List Char)} (absent : ∀ own ∈ text, d ∉ own) :
    d ∉ text.getD [] := by
  cases text with
  | none => exact List.not_mem_nil
  | some own => exact absent own rfl

/-- A host, from its text in a URL of this scheme. -/
def hostOf [Idna] (scheme : String) (text : List Char) : Except Fault Host :=
  if isSpecialScheme scheme then Host.parse text else Host.parseOpaque text

/-- How the parts of an authority are read from its text: what stands before the last at sign, the
host, and behind a colon the port. -/
structure Authority.Reads [Idna] (scheme : String) (text : List Char) (authority : Authority)
    (leftover : List Char) : Prop where
  userinfo : userinfoOf ((cutUserinfo text).1.getD []) = (authority.username, authority.password)
  host : hostOf scheme (cutPort false (cutUserinfo text).2).1 = .ok authority.host
  port : portOf scheme ((cutPort false (cutUserinfo text).2).2.getD []) =
    .ok (authority.port, leftover)
  nameless : authority.host = .domain "" → (cutPort false (cutUserinfo text).2).2 = none ∧
    authority.username = "" ∧ authority.password = none

theorem parse_nil [Idna] : Host.parse [] = .error .emptyHost := by
  have unnamed : Idna.toAscii [] = some [] := Idna.plain rfl
  have bytes : percentDecode ([].flatMap String.utf8EncodeChar) = [] := rfl
  simp only [Host.parse, bytes, unnamed]
  rfl

/-- Reading a host goes on in one way, whatever the scheme is. -/
theorem bind_hostOf [Idna] {β : Type} (scheme : String) (text : List Char)
    (next : Host → Except Fault β) :
    (if isSpecialScheme scheme = true then
        if text.isEmpty = true then Except.error Fault.emptyHost >>= next
        else Host.parse text >>= next
      else Host.parseOpaque text >>= next) = hostOf scheme text >>= next := by
  rw [hostOf]
  split
  · split
    · next empty => rw [List.isEmpty_iff.mp empty, parse_nil]
    · rfl
  · rfl

/-- An authority ends where the path begins. It is not left out behind an at sign while more of the
URL follows. -/
theorem authorityOf_eq_ok_iff [Idna] {scheme : String} {more : Bool} {text behind : List Char}
    {authority : Authority} :
    authorityOf scheme more text = .ok (authority, behind) ↔
      ∃ leftover,
        ¬((cutUserinfo (text.takeWhile (!isSeparator (isSpecialScheme scheme) ·))).1 = some [] ∧
          (cutUserinfo (text.takeWhile (!isSeparator (isSpecialScheme scheme) ·))).2 = [] ∧
          (more = true ∨ text.dropWhile (!isSeparator (isSpecialScheme scheme) ·) ≠ [])) ∧
        authority.Reads scheme (text.takeWhile (!isSeparator (isSpecialScheme scheme) ·)) leftover ∧
        behind = leftover ++ text.dropWhile (!isSeparator (isSpecialScheme scheme) ·) := by
  simp only [authorityOf]
  generalize text.takeWhile (!isSeparator (isSpecialScheme scheme) ·) = front
  generalize text.dropWhile (!isSeparator (isSpecialScheme scheme) ·) = tail
  rw [guarded_eq_ok, bind_hostOf]
  simp only [bind_eq_ok, guarded_eq_ok, pure_eq_ok, Prod.exists]
  constructor
  · rintro ⟨some, host, hosted, portless, port, leftover, ported, userless, same⟩
    cases same
    refine ⟨leftover, ?_, ⟨rfl, hosted, ported, ?_⟩, rfl⟩
    · simpa using some
    · rintro rfl
      simpa using And.intro portless userless
  · rintro ⟨leftover, some, reads, rfl⟩
    obtain ⟨userinfo, hosted, ported, nameless⟩ := reads
    refine ⟨by simpa using some, authority.host, hosted, ?_, authority.port, leftover, ported, ?_,
      ?_⟩
    · rw [Bool.and_eq_true, decide_eq_true_eq]
      rintro ⟨empty, present⟩
      rw [(nameless empty).1] at present
      cases present
    · rw [Bool.and_eq_true, decide_eq_true_eq, userinfo]
      rintro ⟨empty, present⟩
      obtain ⟨-, username, password⟩ := nameless empty
      simp [username, password] at present
    · rw [userinfo]

/-- No part of the URL in front of its query holds the character. -/
structure Unmarked (d : Char) (url : Url) : Prop where
  scheme : d ∉ url.scheme.toList
  username : d ∉ url.username.toList
  password : ∀ password ∈ url.password, d ∉ password.toList
  host : ∀ host ∈ url.host, d ∉ host.text.toList
  path : url.path.Lacks d

variable (mark : Mark d)
include mark

theorem Mark.not_mem_userinfoOf {text : List Char} (absent : d ∉ text) :
    d ∉ (userinfoOf text).1.toList ∧ ∀ password ∈ (userinfoOf text).2, d ∉ password.toList := by
  have kept : ∀ {text}, d ∉ text → d ∉ (String.ofList (encode avoidedInUserinfo text)).toList := by
    intro text absent
    rw [String.toList_ofList]
    exact mark.not_mem_encode absent avoidedInUserinfo
  have cut := not_mem_cutAt ':' absent
  rw [userinfoOf]
  split
  · next user password parts =>
      rw [parts] at cut
      refine ⟨kept cut.1, ?_⟩
      intro text given
      split at given
      · cases given
      · cases given
        exact kept (cut.2 password rfl)
  · next user parts =>
      rw [parts] at cut
      exact ⟨kept cut.1, nofun⟩

theorem Mark.not_mem_hostOf [Idna] {scheme : String} {text : List Char} {host : Host}
    (read : hostOf scheme text = .ok host) (absent : d ∉ text) : d ∉ host.text.toList := by
  rw [hostOf] at read
  split at read
  · exact mark.not_mem_parsed read
  · exact mark.not_mem_opaqueHost read absent

omit mark in
theorem not_mem_portOf {scheme : String} {text rest : List Char} {port : Option Nat}
    (read : portOf scheme text = .ok (port, rest)) (absent : d ∉ text) : d ∉ rest := by
  have kept : d ∉ text.dropWhile Char.isDigit := fun member =>
    absent ((List.dropWhile_sublist _).mem member)
  simp only [portOf] at read
  repeat' split at read
  all_goals cases read <;> exact kept

/-- An authority is read from its text: no mark comes into it, and none stands behind it. -/
theorem Mark.authorityOf_lacks [Idna] {scheme : String} {more : Bool} {text behind : List Char}
    {authority : Authority} (read : authorityOf scheme more text = .ok (authority, behind))
    (absent : d ∉ text) :
    d ∉ authority.username.toList ∧ (∀ password ∈ authority.password, d ∉ password.toList) ∧
      d ∉ authority.host.text.toList ∧ d ∉ behind := by
  obtain ⟨leftover, -, reads, rfl⟩ := authorityOf_eq_ok_iff.mp read
  have inFront : d ∉ text.takeWhile (!isSeparator (isSpecialScheme scheme) ·) := fun member =>
    absent ((List.takeWhile_sublist _).mem member)
  have inTail : d ∉ text.dropWhile (!isSeparator (isSpecialScheme scheme) ·) := fun member =>
    absent ((List.dropWhile_sublist _).mem member)
  obtain ⟨user, hostAndPort⟩ := not_mem_cutUserinfo inFront
  obtain ⟨hostText, portText⟩ := not_mem_cutPort hostAndPort false
  obtain ⟨username, password⟩ := mark.not_mem_userinfoOf (not_mem_getD user)
  rw [reads.userinfo] at username password
  exact ⟨username, password, mark.not_mem_hostOf reads.host hostText,
    List.not_mem_append (not_mem_portOf reads.port (not_mem_getD portText)) inTail⟩

omit mark in
theorem Unmarked.complete {url : Url} (unmarked : Unmarked d url) (parts : Parts) :
    Unmarked d (parts.complete url) :=
  ⟨unmarked.scheme, unmarked.username, unmarked.password, unmarked.host, unmarked.path⟩

omit mark in
theorem unmarked_withoutAuthority {scheme : String} {host : Option Host} {path : Path}
    (plain : d ∉ scheme.toList) (hosted : ∀ name ∈ host, d ∉ name.text.toList)
    (below : path.Lacks d) : Unmarked d (withoutAuthority scheme host path) :=
  ⟨plain, List.not_mem_nil, nofun, hosted, below⟩

theorem Mark.unmarked_withAuthority [Idna] {scheme : String} {parts : Parts} {text : List Char} {url : Url}
    (read : withAuthority scheme parts text = .ok url) (plain : d ∉ scheme.toList)
    (absent : d ∉ text) : Unmarked d url := by
  simp only [withAuthority, bind_eq_ok, pure_eq_ok] at read
  obtain ⟨⟨authority, behind⟩, taken, rfl⟩ := read
  obtain ⟨username, password, host, rest⟩ := mark.authorityOf_lacks taken absent
  refine Unmarked.complete ⟨plain, username, password, ?_, ?_⟩ parts
  · intro own same
    cases same
    exact host
  · exact mark.lacks_pathAfterAuthority rest _

omit mark in
theorem not_mem_noName : d ∉ (Host.domain "").text.toList :=
  List.not_mem_nil

theorem Mark.fileHost_lacks [Idna] {text behind : List Char} {host : Host}
    (read : fileHost text = .ok (host, behind)) (absent : d ∉ text) :
    d ∉ host.text.toList ∧ d ∉ behind := by
  have tail : d ∉ text.dropWhile (!isSlash ·) := fun member =>
    absent ((List.dropWhile_sublist _).mem member)
  simp only [fileHost] at read
  split at read
  · cases read
    exact ⟨not_mem_noName, absent⟩
  · split at read
    · cases read
      exact ⟨not_mem_noName, tail⟩
    · obtain ⟨own, parsed, same⟩ := bind_eq_ok.mp read
      cases same
      refine ⟨?_, tail⟩
      split
      · exact not_mem_noName
      · exact mark.not_mem_parsed parsed

theorem Mark.unmarked_fileUrl [Idna] {parts : Parts} {text : List Char} {url : Url}
    (read : fileUrl none parts text = .ok url) (absent : d ∉ text) : Unmarked d url := by
  have plain : d ∉ "file".toList := by
    cases mark <;> decide
  have nameless : ∀ host ∈ some (Host.domain ""), d ∉ host.text.toList := by
    intro host same
    cases same
    exact not_mem_noName
  have onMachine : ∀ {path : Path}, path.Lacks d →
      Unmarked d (parts.complete (withoutAuthority "file" (some (.domain "")) path)) :=
    fun below => (unmarked_withoutAuthority plain nameless below).complete parts
  cases text with
  | nil =>
      cases read
      exact onMachine (List.forall_mem_singleton.mpr List.not_mem_nil)
  | cons c rest =>
      have later := (List.ne_and_not_mem_of_not_mem_cons absent).2
      simp only [fileUrl] at read
      split at read
      · cases rest with
        | nil =>
            cases read
            exact onMachine (mark.lacks_filePath later)
        | cons e behind =>
            simp only at read
            split at read
            · simp only [bind_eq_ok, pure_eq_ok] at read
              obtain ⟨⟨host, pathText⟩, taken, rfl⟩ := read
              obtain ⟨hosted, rest⟩ :=
                mark.fileHost_lacks taken (List.ne_and_not_mem_of_not_mem_cons later).2
              apply Unmarked.complete
              apply unmarked_withoutAuthority plain
              · intro own same
                cases same
                dsimp only
                split
                · split
                  · exact not_mem_noName
                  · exact hosted
                · exact hosted
              · apply mark.lacks_filePath
                split
                · exact fun member => rest (List.mem_of_mem_tail member)
                · exact rest
            · cases read
              exact onMachine (mark.lacks_filePath later)
      · cases read
        exact onMachine (mark.lacks_filePath absent)

theorem Mark.cutScheme_lacks {body behind : List Char} {scheme : String}
    (cut : cutScheme body = some (scheme, behind)) (absent : d ∉ body) :
    d ∉ scheme.toList ∧ d ∉ behind := by
  have parts := not_mem_cutAt ':' absent
  simp only [cutScheme] at cut
  split at cut
  · next c rest after same =>
      rw [same] at parts
      split at cut
      · cases cut
        refine ⟨?_, parts.2 _ rfl⟩
        rw [String.toList_ofList]
        intro member
        obtain ⟨e, among, lower⟩ := List.mem_map.mp member
        exact parts.1 (mark.eq_of_toLower lower ▸ among)
      · cases cut
  · cases cut

theorem Mark.unmarked_withScheme [Idna] {scheme : String} {parts : Parts} {text : List Char} {url : Url}
    (read : withScheme none scheme parts text = .ok url) (plain : d ∉ scheme.toList)
    (absent : d ∉ text) : Unmarked d url := by
  have hostless : ∀ host ∈ (none : Option Host), d ∉ host.text.toList := nofun
  have slashless : d ∉ text.dropWhile isSlash := fun member =>
    absent ((List.dropWhile_sublist _).mem member)
  simp only [withScheme] at read
  split at read
  · exact mark.unmarked_fileUrl read absent
  · split at read
    · exact mark.unmarked_withAuthority read plain slashless
    · split at read
      · next behind =>
          apply mark.unmarked_withAuthority read plain
          exact fun member => absent (List.mem_cons_of_mem _ (List.mem_cons_of_mem _ member))
      · next behind _ =>
          cases read
          apply Unmarked.complete
          apply unmarked_withoutAuthority plain hostless
          apply mark.lacks_pathBelow
          exact fun member => absent (List.mem_cons_of_mem _ member)
      · cases read
        apply Unmarked.complete
        apply unmarked_withoutAuthority plain hostless
        rw [Path.Lacks, String.toList_ofList]
        exact mark.not_mem_encode absent isControl

theorem Mark.unmarked_ofParts [Idna] {parts : Parts} {url : Url} (read : ofParts parts = .ok url)
    (absent : d ∉ parts.body) : Unmarked d url := by
  simp only [ofParts] at read
  split at read
  · next scheme behind cut =>
      obtain ⟨plain, rest⟩ := mark.cutScheme_lacks cut absent
      exact mark.unmarked_withScheme read plain rest
  · cases read

theorem Mark.not_mem_userinfoText {url : Url} (unmarked : Unmarked d url) :
    d ∉ url.userinfoText.toList := by
  have username := unmarked.username
  have signs : d ∉ ":".toList ∧ d ∉ "@".toList := by
    cases mark <;> decide
  rw [userinfoText]
  split
  · next password given =>
      simp only [String.toList_append, List.mem_append, not_or]
      exact ⟨⟨⟨username, signs.1⟩, unmarked.password password given⟩, signs.2⟩
  · split
    · exact List.not_mem_nil
    · rw [String.toList_append]
      exact List.not_mem_append username signs.2

theorem Mark.not_mem_portText (url : Url) : d ∉ url.portText.toList := by
  have colon : d ∉ ":".toList := by
    cases mark <;> decide
  rw [portText]
  split
  · rw [String.toList_append]
    exact List.not_mem_append colon fun member =>
      mark.not_mem_addressChars (mem_addressChars_of_toString member)
  · exact List.not_mem_nil

theorem Mark.not_mem_authorityText {url : Url} (unmarked : Unmarked d url) :
    d ∉ url.authorityText.toList := by
  have signs : d ∉ "//".toList ∧ d ∉ "/.".toList := by
    cases mark <;> decide
  rw [authorityText]
  split
  · next host given =>
      simp only [String.toList_append, List.mem_append, not_or]
      exact ⟨⟨⟨signs.1, mark.not_mem_userinfoText unmarked⟩, unmarked.host host given⟩,
        mark.not_mem_portText url⟩
  · split
    · exact signs.2
    · exact List.not_mem_nil

theorem Mark.not_mem_baseText {url : Url} (unmarked : Unmarked d url) :
    d ∉ url.baseText.toList := by
  have colon : d ∉ ":".toList := by
    cases mark <;> decide
  simp only [baseText, String.toList_append, List.mem_append, not_or]
  exact ⟨⟨⟨unmarked.scheme, colon⟩, mark.not_mem_authorityText unmarked⟩,
    mark.not_mem_pathText unmarked.path⟩

omit mark in
theorem not_mem_cut {sep : Char} (text : List Char) : sep ∉ (cutAt sep text).1 := by
  induction text with
  | nil => exact List.not_mem_nil
  | cons c rest ih =>
      rw [cutAt]
      split
      · exact List.not_mem_nil
      · next other => exact List.not_mem_cons_of_ne_of_not_mem (Ne.symm other) ih

/-- A URL is written without a mark up to its query. -/
theorem Mark.not_mem_base [Idna] {text : String} {url : Url} (read : parse text = .ok url) :
    d ∉ url.baseText.toList := by
  rw [parse_eq_ofParts] at read
  apply mark.not_mem_baseText
  apply mark.unmarked_ofParts read
  cases mark with
  | query => exact not_mem_cut _
  | fragment => exact (not_mem_cutAt _ (not_mem_cut _)).1

omit mark in
/-- A query is written without a number sign. -/
theorem not_mem_queryText [Idna] {text : String} {url : Url} (read : parse text = .ok url) :
    '#' ∉ url.queryText.toList := by
  have raw : ∀ query ∈ (Parts.ofText text).query, '#' ∉ query :=
    (not_mem_cutAt '?' (not_mem_cut _)).2
  rw [queryText]
  split
  · next query given =>
      rw [eq_complete_of_parse read] at given
      obtain ⟨own, asked, rfl⟩ := Option.map_eq_some_iff.mp given
      rw [String.toList_append]
      apply List.not_mem_append (by decide)
      rw [queryOf, String.toList_ofList]
      exact Mark.fragment.not_mem_encode (raw own asked) _
  · exact List.not_mem_nil

/-- A URL in which no mark stands in front of the part that it begins. -/
structure Plain (url : Url) : Prop where
  base : ∀ d, Mark d → d ∉ url.baseText.toList
  query : '#' ∉ url.queryText.toList

omit mark in
theorem plain_of_parse [Idna] {text : String} {url : Url} (read : parse text = .ok url) : url.Plain :=
  ⟨fun _ mark => mark.not_mem_base read, not_mem_queryText read⟩

end Whole

end Bearer.Url

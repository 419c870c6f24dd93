import Mathlib
import Bearer.Proofs.Url.Paths

/-!
The site of a URL read again. Whatever path, query and fragment stand behind what is written for a
site, the same site is read.
-/
namespace Bearer.Url

variable {url : Url} {host : Host}

/-- What stands between the two slashes and the path. -/
def placeText (url : Url) (host : Host) : List Char :=
  url.userinfoText.toList ++ (host.text.toList ++ url.portText.toList)

theorem toList_portText (url : Url) :
    url.portText.toList = url.port.elim [] fun n => ':' :: Nat.toDigits 10 n := by
  rw [portText]
  cases url.port with
  | none => rfl
  | some n =>
      simp only [String.toList_append, Nat.toString_eq_ofList_toDigits, String.toList_ofList,
        Option.elim]
      rfl

/-- What can stand behind a site: a path behind a slash, a query or a fragment. -/
def BehindSite (tail : List Char) : Prop :=
  ∀ c ∈ tail.head?, c = '/' ∨ c = '?' ∨ c = '#'

theorem BehindSite.rooted {tail : List Char} (behind : BehindSite tail) :
    ∀ c ∈ (cutAt '?' (cutAt '#' (ended tail)).1).1.head?, c = '/' := by
  cases tail with
  | nil => exact nofun
  | cons c rest =>
      rcases behind c rfl with rfl | rfl | rfl
      · rw [ended_cons (by decide)]
        simp [cutAt]
      · rw [ended_cons (by decide)]
        simp [cutAt]
      · rw [ended_cons (by decide)]
        simp [cutAt]

variable [Idna]

namespace Sited

variable (sited : Sited url host)
include sited

theorem toList_siteText :
    url.siteText.toList = url.scheme.toList ++ ':' :: '/' :: '/' :: placeText url host := by
  simp only [siteText, authorityText, sited.hosted, String.toList_append, placeText,
    List.append_assoc]
  rfl

theorem userChar_userinfo {c : Char} (member : c ∈ url.userinfoText.toList) :
    UserChar c ∨ c = ':' ∨ c = '@' := by
  rw [toList_userinfoText, userinfo?] at member
  cases given : url.password with
  | some password =>
      rw [given] at member
      simp only [Option.elim, List.mem_append, List.mem_cons, List.not_mem_nil, or_false] at member
      rcases member with (user | rfl | own) | rfl
      · exact .inl (sited.username c user)
      · exact .inr (.inl rfl)
      · exact .inl ((sited.password password given).2 c own)
      · exact .inr (.inr rfl)
  | none =>
      rw [given] at member
      dsimp only at member
      split at member
      · cases member
      · rcases List.mem_append.mp member with user | sign
        · exact .inl (sited.username c user)
        · exact .inr (.inr (List.mem_singleton.mp sign))

theorem hostChar_behind {c : Char} (member : c ∈ host.text.toList ++ url.portText.toList) :
    HostChar c := by
  rcases List.mem_append.mp member with own | port
  · exact sited.written.chars c own
  · rw [toList_portText] at port
    cases given : url.port with
    | none =>
        rw [given] at port
        cases port
    | some n =>
        rw [given] at port
        rcases List.mem_cons.mp port with rfl | digit
        · decide
        · exact hostChar_of_address (mem_addressChars_of_digits (by decide) (by decide) digit)

/-- No sign between the slashes and the path ends the place. -/
theorem place_plain {c : Char} (member : c ∈ placeText url host) :
    0x20 < c.toNat ∧ c ∉ ['/', '\\', '?', '#'] := by
  have plain : HostChar c → 0x20 < c.toNat ∧ c ∉ ['/', '\\', '?', '#'] := by
    rintro ⟨visible, separates⟩
    refine ⟨visible, fun member => separates ?_⟩
    exact List.mem_append_left ['@', '|'] member
  rcases List.mem_append.mp member with userinfo | behind
  · rcases sited.userChar_userinfo userinfo with user | rfl | rfl
    · exact plain user.plain.1
    · decide
    · decide
  · exact plain (sited.hostChar_behind behind)

theorem userinfoOf_userinfo :
    userinfoOf (url.userinfo?.getD []) = (url.username, url.password) := by
  have kept : String.ofList (encode avoidedInUserinfo url.username.toList) = url.username := by
    rw [encode_user sited.username, String.ofList_toList]
  have uncut : ':' ∉ url.username.toList := fun member => (sited.username _ member).plain.2 rfl
  rw [userinfo?]
  cases given : url.password with
  | some password =>
      obtain ⟨some, chars⟩ := sited.password password given
      have keptToo : String.ofList (encode avoidedInUserinfo password.toList) = password := by
        rw [encode_user chars, String.ofList_toList]
      simp [userinfoOf, cutAt_first uncut, kept, keptToo, some]
  | none =>
      dsimp only
      split
      · next empty => rw [empty]; rfl
      · simp only [Option.getD_some, userinfoOf, cutAt_eq_none uncut, kept]

theorem cutUserinfo_place : cutUserinfo (placeText url host) =
    (url.userinfo?, host.text.toList ++ url.portText.toList) := by
  have plain : '@' ∉ host.text.toList ++ url.portText.toList := fun member =>
    (sited.hostChar_behind member).separates (by decide)
  rw [placeText, toList_userinfoText]
  cases url.userinfo? with
  | none => exact cutUserinfo_none plain
  | some user =>
      rw [Option.elim, List.append_assoc, List.singleton_append]
      exact cutUserinfo_some plain user

theorem cutPort_place : cutPort false (host.text.toList ++ url.portText.toList) =
    (host.text.toList, url.port.map (Nat.toDigits 10)) := by
  rw [cutPort_host sited.written, toList_portText]
  cases url.port with
  | none => simp [cutPort]
  | some n => simp [cutPort]

theorem portOf_port :
    portOf url.scheme ((url.port.map (Nat.toDigits 10)).getD []) = .ok (url.port, []) := by
  cases given : url.port with
  | none => exact portOf_nil
  | some n =>
      obtain ⟨small, special⟩ := sited.port n given
      exact portOf_digits small special

/-- The place is read as the user, the host and the port that it is written for. -/
theorem reads_place (named : url.scheme = "file" → host ≠ .domain "") :
    Authority.Reads url.scheme (placeText url host) ⟨url.username, url.password, host, url.port⟩
      [] where
  userinfo := by rw [sited.cutUserinfo_place, sited.userinfoOf_userinfo]
  host := by rw [sited.cutUserinfo_place, sited.cutPort_place]; exact sited.rereads named
  port := by rw [sited.cutUserinfo_place, sited.cutPort_place]; exact sited.portOf_port
  nameless := by
    intro empty
    obtain ⟨username, password, port⟩ := sited.nameless empty
    rw [sited.cutUserinfo_place, sited.cutPort_place, port]
    exact ⟨rfl, username, password⟩

theorem authorityOf_place (named : url.scheme = "file" → host ≠ .domain "") (more : Bool)
    {path : List Char} (rooted : ∀ c ∈ path.head?, c = '/') :
    authorityOf url.scheme more (placeText url host ++ path) =
      .ok (⟨url.username, url.password, host, url.port⟩, path) := by
  have inside : ∀ c ∈ placeText url host, (!isSeparator (isSpecialScheme url.scheme) c) = true := by
    intro c member
    have separates := (sited.place_plain member).2
    simp only [List.mem_cons, not_or] at separates
    simp [isSeparator, separates.1, separates.2.1]
  have outside : path.takeWhile (!isSeparator (isSpecialScheme url.scheme) ·) = [] ∧
      path.dropWhile (!isSeparator (isSpecialScheme url.scheme) ·) = path := by
    cases path with
    | nil => exact ⟨rfl, rfl⟩
    | cons c rest =>
        obtain rfl := rooted c rfl
        exact ⟨rfl, rfl⟩
  have front : (placeText url host ++ path).takeWhile
      (!isSeparator (isSpecialScheme url.scheme) ·) = placeText url host := by
    rw [List.takeWhile_append_of_pos inside, outside.1, List.append_nil]
  have tail : (placeText url host ++ path).dropWhile
      (!isSeparator (isSpecialScheme url.scheme) ·) = path := by
    rw [List.dropWhile_append_of_pos inside, outside.2]
  refine authorityOf_eq_ok_iff.mpr ⟨[], ?_, ?_, ?_⟩
  · rw [front, sited.cutUserinfo_place]
    exact fun ⟨empty, _⟩ => userinfo_ne_nil url empty
  · rw [front]
    exact sited.reads_place named
  · rw [tail, List.nil_append]

end Sited

namespace Sited

variable (sited : Sited url host)
include sited

theorem site_plain {c : Char} (member : c ∈ url.siteText.toList) :
    0x20 < c.toNat ∧ c ∉ ['?', '#'] := by
  rw [sited.toList_siteText] at member
  have plain : HostChar c → 0x20 < c.toNat ∧ c ∉ ['?', '#'] := by
    rintro ⟨visible, separates⟩
    simp only [List.mem_cons, List.not_mem_nil, or_false, not_or] at separates ⊢
    exact ⟨visible, separates.2.2.1, separates.2.2.2.1⟩
  simp only [List.mem_append, List.mem_cons] at member
  rcases member with scheme | rfl | rfl | rfl | place
  · exact plain (isSchemeChar_plain (sited.scheme.chars c scheme)).1
  · decide
  · decide
  · decide
  · have separates := (sited.place_plain place).2
    simp only [List.mem_cons, List.not_mem_nil, or_false, not_or] at separates ⊢
    exact ⟨(sited.place_plain place).1, separates.2.2.1, separates.2.2.2⟩

theorem site_ne_nil : url.siteText.toList ≠ [] := by
  rw [sited.toList_siteText]
  exact List.append_ne_nil_of_right_ne_nil _ (List.cons_ne_nil _ _)

theorem ofText_site {tail : List Char} :
    Parts.ofText (String.ofList (url.siteText.toList ++ tail)) =
      ⟨url.siteText.toList ++ (cutAt '?' (cutAt '#' (ended tail)).1).1,
        (cutAt '?' (cutAt '#' (ended tail)).1).2, (cutAt '#' (ended tail)).2⟩ := by
  have visible : ∀ c ∈ url.siteText.toList, 0x20 < c.toNat := fun c member =>
    (sited.site_plain member).1
  have unsigned : '#' ∉ url.siteText.toList := fun member =>
    (sited.site_plain member).2 (by decide)
  have unmarked : '?' ∉ url.siteText.toList := fun member =>
    (sited.site_plain member).2 (by decide)
  have first : ∀ c ∈ (url.siteText.toList ++ tail).head?, 0x20 < c.toNat := by
    obtain ⟨c, rest, whole⟩ := List.exists_cons_of_ne_nil sited.site_ne_nil
    rw [whole, List.cons_append]
    rintro d ⟨⟩
    exact visible c (by simp [whole])
  rw [Parts.ofText, String.toList_ofList, relevant_eq first, ended_append visible]
  simp only [cutAt_append_absent unsigned, cutAt_append_absent unmarked]

/-- In a special scheme something is written for the host. -/
theorem parse_special (named : url.scheme = "file" → host ≠ .domain "")
    (special : isSpecialScheme url.scheme = true) :
    Host.parse host.text.toList = .ok host ∧ host.text.toList ≠ [] := by
  have read := sited.rereads named
  rw [hostOf, if_pos special] at read
  refine ⟨read, fun empty => ?_⟩
  rw [empty, parse_nil] at read
  cases read

/-- The slashes in front of a place end where it begins. -/
theorem dropWhile_place (named : url.scheme = "file" → host ≠ .domain "")
    (special : isSpecialScheme url.scheme = true) (path : List Char) :
    ('/' :: '/' :: (placeText url host ++ path)).dropWhile isSlash =
      placeText url host ++ path := by
  have some : placeText url host ≠ [] := by
    have own := (sited.parse_special named special).2
    exact List.append_ne_nil_of_right_ne_nil _ (List.append_ne_nil_of_left_ne_nil own _)
  obtain ⟨c, rest, whole⟩ := List.exists_cons_of_ne_nil some
  have separates := (sited.place_plain (c := c) (by simp [whole])).2
  simp only [List.mem_cons, not_or] at separates
  have first : isSlash c = false := by simp [isSlash, separates.1, separates.2.1]
  have start : isSlash '/' = true := by decide
  rw [whole, List.cons_append, List.dropWhile_cons_of_pos start, List.dropWhile_cons_of_pos start,
    List.dropWhile_cons_of_neg (by simp [first])]

/-- The text of a host is not the name of a drive. -/
theorem not_isDriveLetter : isDriveLetter host.text.toList = false := by
  rw [isDriveLetter.eq_def]
  split
  · next c d whole =>
      have bar : d ≠ '|' := by
        rintro rfl
        have chars := sited.written.chars '|' (by simp [whole])
        exact chars.separates (by decide)
      rcases sited.written.closed with ⟨groups, rfl⟩ | ⟨colon, -⟩
      · rw [toList_ipv6] at whole
        have first : c = '[' := (List.cons.inj whole).1.symm
        rw [first]
        rfl
      · have other : d ≠ ':' := by
          rintro rfl
          exact colon (by simp [whole])
        simp [bar, other]
  · rfl

section Paths

variable {path : List Char} (rooted : ∀ c ∈ path.head?, c = '/')
include rooted

theorem withAuthority_place (named : url.scheme = "file" → host ≠ .domain "") (parts : Parts) :
    ∃ other, withAuthority url.scheme parts (placeText url host ++ path) = .ok other ∧
      SameSite other url := by
  have taken := sited.authorityOf_place named parts.hasMore rooted
  simp only [withAuthority, taken]
  exact ⟨_, rfl, rfl, rfl, rfl, sited.hosted.symm, rfl⟩

theorem fileHost_place (file : url.scheme = "file") (named : host ≠ .domain "") :
    fileHost (host.text.toList ++ path) = .ok (host, path) := by
  obtain ⟨-, -, -, unlocal⟩ := sited.file file
  have special : isSpecialScheme url.scheme = true := by
    rw [file]
    decide
  obtain ⟨read, some⟩ := sited.parse_special (fun _ => named) special
  have inside : ∀ c ∈ host.text.toList, (!isSlash c) = true := by
    intro c member
    have separates := (sited.written.chars c member).separates
    simp only [List.mem_cons, not_or] at separates
    simp [isSlash, separates.1, separates.2.1]
  have outside : path.takeWhile (!isSlash ·) = [] ∧ path.dropWhile (!isSlash ·) = path := by
    cases path with
    | nil => exact ⟨rfl, rfl⟩
    | cons c rest =>
        obtain rfl := rooted c rfl
        exact ⟨rfl, rfl⟩
  have front : (host.text.toList ++ path).takeWhile (!isSlash ·) = host.text.toList := by
    rw [List.takeWhile_append_of_pos inside, outside.1, List.append_nil]
  have tail : (host.text.toList ++ path).dropWhile (!isSlash ·) = path := by
    rw [List.dropWhile_append_of_pos inside, outside.2]
  simp only [fileHost, front, tail, sited.not_isDriveLetter, if_neg Bool.false_ne_true,
    List.isEmpty_iff, if_neg some, read]
  exact congrArg (fun own => Except.ok (own, path)) (if_neg unlocal)

/-- The host of a file is read again unless a drive is named below it. -/
theorem fileUrl_place (file : url.scheme = "file") (named : host ≠ .domain "") (parts : Parts) :
    ∃ other, fileUrl none parts ('/' :: '/' :: (placeText url host ++ path)) = .ok other ∧
      (¬other.path.BeginsWithDrive → SameSite other url) := by
  obtain ⟨username, password, port, -⟩ := sited.file file
  have place : placeText url host = host.text.toList := by
    simp [placeText, userinfoText, portText, username, password, port]
  have slash : isSlash '/' = true := by decide
  simp only [fileUrl, slash, if_true, place, sited.fileHost_place rooted file named]
  refine ⟨_, rfl, fun drive => ⟨file.symm, username.symm, password.symm, ?_, port.symm⟩⟩
  rw [sited.hosted]
  dsimp only [Parts.complete, withoutAuthority]
  split
  · next first rest whole =>
      have other : ¬isDriveLetter first.toList = true := fun driven =>
        drive ⟨first, rest, whole, driven⟩
      rw [if_neg other]
  · rfl

end Paths

/-- Behind the same site the same site is read, whatever stands behind it. The name of a drive is
below no host. -/
theorem exists_parse (named : url.scheme = "file" → host ≠ .domain "") {tail : List Char}
    (behind : BehindSite tail) :
    ∃ other, parse (String.ofList (url.siteText.toList ++ tail)) = .ok other ∧
      ((url.scheme = "file" → ¬other.path.BeginsWithDrive) → SameSite other url) := by
  have body : url.siteText.toList ++ (cutAt '?' (cutAt '#' (ended tail)).1).1 =
      url.scheme.toList ++ ':' :: '/' :: '/' ::
        (placeText url host ++ (cutAt '?' (cutAt '#' (ended tail)).1).1) := by
    rw [sited.toList_siteText]
    simp
  rw [parse_eq_ofParts, sited.ofText_site, ofParts]
  simp only [body, sited.scheme.rereads, withScheme]
  split
  · next file =>
      obtain ⟨other, read, same⟩ := sited.fileUrl_place behind.rooted file (named file) _
      exact ⟨other, read, fun drive => same (drive file)⟩
  · split
    · next special =>
        have slashes : ('/' :: '/' :: (placeText url host ++
            (cutAt '?' (cutAt '#' (ended tail)).1).1)).dropWhile isSlash =
            placeText url host ++ (cutAt '?' (cutAt '#' (ended tail)).1).1 :=
          sited.dropWhile_place named special _
        rw [slashes]
        obtain ⟨other, read, same⟩ := sited.withAuthority_place behind.rooted named _
        exact ⟨other, read, fun _ => same⟩
    · obtain ⟨other, read, same⟩ := sited.withAuthority_place behind.rooted named _
      exact ⟨other, read, fun _ => same⟩

end Sited

end Bearer.Url

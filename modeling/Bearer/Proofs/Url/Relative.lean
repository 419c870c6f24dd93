import Mathlib
import Bearer.Proofs.Url.Paths
import Bearer.Proofs.Url.Reread

/-!
Texts that are read against a base. A text that names no place of its own leads to the site of the
base, whatever path it has; one that does leads to that place, whatever site the base has.
-/
namespace Bearer.Url

section Relative

/-- What a text says to a base: all of it, or what stands behind the base's own scheme, where that
is a special one. A text with another scheme says nothing to it. -/
def relativePart (base : Url) (text : String) : Option (List Char) :=
  match cutScheme (Parts.ofText text).body with
  | none => some (Parts.ofText text).body
  | some (scheme, rest) => if base.isSpecial && scheme = base.scheme then some rest else none

/-- The text names no place of its own: no other scheme, no two slashes in front, and below a file
no drive. -/
def Stays (base : Url) (text : String) : Prop :=
  ∃ rest, relativePart base text = some rest ∧ (rest.takeWhile isSlash).length < 2 ∧
    (base.scheme = "file" → startsWithDrive (rest.dropWhile isSlash) = false)

variable {base : Url} {parts : Parts} {rest : List Char}

theorem two_slashes_iff : 2 ≤ (rest.takeWhile isSlash).length ↔
    ∃ c d more, rest = c :: d :: more ∧ isSlash c = true ∧ isSlash d = true := by
  constructor
  · intro two
    match rest with
    | [] => simp at two
    | [c] =>
        have most := (List.takeWhile_sublist isSlash (l := [c])).length_le
        simp only [List.length_singleton] at most
        omega
    | c :: d :: more =>
        cases first : isSlash c with
        | false => simp [first] at two
        | true => cases second : isSlash d with
          | false => simp [first, second] at two
          | true => exact ⟨c, d, more, rfl, first, second⟩
  · rintro ⟨c, d, more, rfl, first, second⟩
    simp [first, second]

theorem not_second {c d : Char} {more : List Char} (first : isSlash c = true)
    (short : ((c :: d :: more).takeWhile isSlash).length < 2) : isSlash d = false := by
  by_contra second
  rw [Bool.not_eq_false] at second
  exact absurd (two_slashes_iff.mpr ⟨c, d, more, rfl, first, second⟩) (by omega)

/-- Without a scheme, or behind the scheme of the base, the text has two slashes or a drive. -/
theorem place_of_leaves {text : String} (leaves : ¬base.Stays text)
    (part : relativePart base text = some rest) :
    2 ≤ (rest.takeWhile isSlash).length ∨
      base.scheme = "file" ∧ startsWithDrive (rest.dropWhile isSlash) = true := by
  by_contra! short
  exact leaves ⟨rest, part, by omega, fun file => by simpa using short.2 file⟩

theorem slashes_of_leaves {text : String} (leaves : ¬base.Stays text)
    (part : relativePart base text = some rest) (unfiled : base.scheme ≠ "file") :
    2 ≤ (rest.takeWhile isSlash).length :=
  (place_of_leaves leaves part).resolve_right fun driven => unfiled driven.1

variable [Idna]

/-- Where no drive is named the root of a file is at the host of the base. -/
theorem fileRoot_below {host : Host} {text : List Char} (sited : Sited base host)
    (file : base.scheme = "file") (founded : base.Founded) (named : host ≠ .domain "")
    (plain : startsWithDrive text = false) : fileRoot (some base) text = (host, []) := by
  have own : base.host.getD (.domain "") = host := by rw [sited.hosted, Option.getD_some]
  simp only [fileRoot, plain, if_neg Bool.false_ne_true, own]
  split
  · next first others whole =>
      split
      · next driven =>
          have empty := founded.drive file ⟨first, others, whole, driven⟩
          exact absurd (Option.some.inj (sited.hosted.symm.trans empty)) named
      · rfl
  · rfl

section Below

variable {url : Url} (short : (rest.takeWhile isSlash).length < 2)
include short

theorem relativeTo_below (rooted : base.path.Rooted base.isSpecial)
    (read : relativeTo base parts rest = .ok url) :
    SameSite url base ∧ url.path.Rooted base.isSpecial := by
  rw [relativeTo.eq_def] at read
  split at read
  · cases read
    exact ⟨⟨rfl, rfl, rfl, rfl, rfl⟩, rooted⟩
  · simp [isSlash] at short
  · next c more _ =>
      split at read
      · next first =>
          split at read
          · next second =>
              cases more with
              | nil => cases second
              | cons d others => cases (not_second first short).symm.trans second
          · cases read
            exact ⟨⟨rfl, rfl, rfl, rfl, rfl⟩, rooted_pathBelow ..⟩
      · cases read
        exact ⟨⟨rfl, rfl, rfl, rfl, rfl⟩, rooted_pathBelow ..⟩

/-- Below a file the host is kept, unless a drive is named. -/
theorem fileUrl_below {host : Host} (sited : Sited base host) (file : base.scheme = "file")
    (founded : base.Founded) (named : host ≠ .domain "")
    (undriven : startsWithDrive (rest.dropWhile isSlash) = false)
    (read : fileUrl (some base) parts rest = .ok url) :
    SameSite url base ∧ url.path.Rooted base.isSpecial := by
  obtain ⟨username, password, port, -⟩ := sited.file file
  have site : ∀ path, SameSite (parts.complete (withoutAuthority "file" (some host) path)) base :=
    fun _ => ⟨file.symm, username.symm, password.symm, sited.hosted.symm, port.symm⟩
  have root {text : List Char} (plain : startsWithDrive text = false) :
      fileRoot (some base) text = (host, []) := fileRoot_below sited file founded named plain
  cases rest with
  | nil =>
      cases read
      exact ⟨⟨rfl, rfl, rfl, rfl, rfl⟩, founded.rooted (by rw [sited.hosted]; nofun)⟩
  | cons c more =>
      simp only [fileUrl] at read
      split at read
      · next first =>
          rw [List.dropWhile_cons_of_pos first] at undriven
          cases more with
          | nil =>
              simp only [root (show startsWithDrive [] = false from rfl)] at read
              cases read
              exact ⟨site _, rooted_filePath _ [] []⟩
          | cons d others =>
              have second : ¬isSlash d = true := Bool.eq_false_iff.mp (not_second first short)
              rw [List.dropWhile_cons_of_neg second] at undriven
              simp only [if_neg second, root undriven] at read
              cases read
              exact ⟨site _, rooted_filePath ..⟩
      · next first =>
          rw [List.dropWhile_cons_of_neg first] at undriven
          simp only [undriven, if_neg Bool.false_ne_true] at read
          cases read
          exact ⟨⟨rfl, rfl, rfl, rfl, rfl⟩, rooted_filePath ..⟩

end Below

/-- A text that names no place leads to the site of the base. -/
theorem resolve_stays {host : Host} {text : String} {url : Url} (sited : Sited base host)
    (founded : base.Founded) (named : base.scheme = "file" → host ≠ .domain "")
    (stays : base.Stays text) (read : base.resolve text = .ok url) :
    SameSite url base ∧ url.path.Rooted base.isSpecial := by
  have rooted : base.path.Rooted base.isSpecial := founded.rooted (by rw [sited.hosted]; nofun)
  have below : ∀ {rest : List Char}, (rest.takeWhile isSlash).length < 2 →
      (base.scheme = "file" → startsWithDrive (rest.dropWhile isSlash) = false) →
      (if base.scheme = "file" then fileUrl (some base) (Parts.ofText text) rest
        else relativeTo base (Parts.ofText text) rest) = .ok url →
      SameSite url base ∧ url.path.Rooted base.isSpecial := by
    intro rest short undriven read
    split at read
    · next file => exact fileUrl_below short sited file founded (named file) (undriven file) read
    · exact relativeTo_below short rooted read
  obtain ⟨rest, part, short, undriven⟩ := stays
  rw [relativePart] at part
  rw [resolve, parseWith] at read
  split at part
  · next uncut =>
      cases part
      simp only [uncut] at read
      split at read
      · cases read
        exact ⟨⟨rfl, rfl, rfl, rfl, rfl⟩, rooted⟩
      · split at read
        · cases read
        · exact below short undriven read
  · next scheme behind cut =>
      split at part
      · next own =>
          cases part
          simp only [Bool.and_eq_true, decide_eq_true_eq] at own
          obtain ⟨special, rfl⟩ := own
          have own : ∀ {scheme}, base.scheme = scheme →
              (some base).filter (fun url => decide (url.scheme = scheme)) = some base := by
            intro scheme same
            simp [same]
          apply below short undriven
          simp only [cut, withScheme] at read
          split at read
          · next file =>
              rw [if_pos file, ← own file]
              exact read
          · next other =>
              rw [if_pos (show isSpecialScheme base.scheme = true from special), own rfl] at read
              simp only at read
              rwa [if_neg other]
      · cases part

theorem relativeTo_own (two : 2 ≤ (rest.takeWhile isSlash).length) {other : Url}
    (same : other.scheme = base.scheme) :
    relativeTo other parts rest = relativeTo base parts rest := by
  obtain ⟨c, d, more, rfl, first, second⟩ := two_slashes_iff.mp two
  rw [relativeTo.eq_def, relativeTo.eq_def, same]
  split
  · next none => cases none
  · rfl
  · next e others _ whole =>
      cases whole
      simp [first, second]

/-- A drive or two slashes name a place whatever file the base is. -/
theorem fileUrl_own {other : Url} (own : 2 ≤ (rest.takeWhile isSlash).length ∨
      startsWithDrive (rest.dropWhile isSlash) = true) :
    fileUrl (some other) parts rest = fileUrl (some base) parts rest := by
  cases rest with
  | nil => simp [startsWithDrive, isDriveLetter] at own
  | cons c more =>
      simp only [fileUrl]
      by_cases first : isSlash c = true
      · simp only [if_pos first]
        cases more with
        | nil => simp [first, startsWithDrive, isDriveLetter] at own
        | cons d others =>
            by_cases second : isSlash d = true
            · simp only [if_pos second]
            · have driven : startsWithDrive (d :: others) = true := by
                refine own.elim (fun two => ?_) fun driven => ?_
                · simp [first, second] at two
                · rwa [List.dropWhile_cons_of_pos first,
                    List.dropWhile_cons_of_neg second] at driven
              simp only [if_neg second, fileRoot, if_pos driven]
      · have drive : startsWithDrive (c :: more) = true := by
          refine own.elim (fun two => ?_) fun driven => ?_
          · simp [first] at two
          · rwa [List.dropWhile_cons_of_neg first] at driven
        simp only [if_neg first, if_pos drive]

section Away

variable {text : String} (leaves : ¬base.Stays text)
include leaves

theorem fileUrl_of_leaves (part : relativePart base text = some rest) (other : Url) :
    fileUrl (some other) parts rest = fileUrl (some base) parts rest :=
  fileUrl_own ((place_of_leaves leaves part).imp_right And.right)

/-- A text that names a place leads there, whatever the base is, but for its scheme. -/
theorem resolve_leaves {other : Url} (same : other.scheme = base.scheme)
    (segments : base.path.isOpaque = false) (segmentsToo : other.path.isOpaque = false) :
    other.resolve text = base.resolve text := by
  rw [resolve, resolve, parseWith, parseWith]
  cases cut : cutScheme (Parts.ofText text).body with
  | none =>
      have part : relativePart base text = some (Parts.ofText text).body := by
        rw [relativePart, cut]
      have some : (Parts.ofText text).body.isEmpty = false := by
        by_contra empty
        rw [Bool.not_eq_false, List.isEmpty_iff] at empty
        have said := place_of_leaves leaves part
        simp [empty, startsWithDrive, isDriveLetter] at said
      simp only [some, segments, segmentsToo, same, Bool.false_and, if_neg Bool.false_ne_true]
      by_cases unfiled : base.scheme = "file"
      · simp only [if_pos unfiled, fileUrl_of_leaves leaves part other]
      · simp only [if_neg unfiled, relativeTo_own (slashes_of_leaves leaves part unfiled) same]
  | some found =>
      obtain ⟨scheme, rest⟩ := found
      simp only [withScheme, Option.filter_some, same, decide_eq_true_eq]
      by_cases known : isSpecialScheme scheme = true ∧ base.scheme = scheme
      · obtain ⟨special, rfl⟩ := known
        have part : relativePart base text = some rest := by
          rw [relativePart, cut]
          simp [isSpecial, special]
        split
        · exact fileUrl_of_leaves leaves part other
        · next unfiled =>
            have two := slashes_of_leaves leaves part unfiled
            simp only [if_true, if_neg (Nat.not_lt.mpr two)]
      · split
        · next filed =>
            have foreign : base.scheme ≠ "file" := by
              rintro whole
              exact known ⟨filed ▸ (by decide), whole.trans filed.symm⟩
            simp only [if_neg foreign]
        · split
          · next special =>
              have foreign : base.scheme ≠ scheme := fun whole => known ⟨special, whole⟩
              simp only [if_neg foreign]
          · rfl

end Away

end Relative

end Bearer.Url

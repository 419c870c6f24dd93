import Mathlib
import Bearer.Proofs.Url.Site

/-!
The paths that URLs have. Behind a host stand segments, one at least in a special scheme, and a
drive is named behind no host.
-/
namespace Bearer.Url

open Json (bind_eq_ok pure_eq_ok)

section Paths

/-- A path of segments, one at least in a special scheme. -/
def Path.Rooted (special : Bool) (path : Path) : Prop :=
  ∃ names, path = .segments names ∧ (special = true → names ≠ [])

theorem toList_segments (name : String) (rest : List String) :
    (Path.segments (name :: rest)).text.toList =
      '/' :: (name.toList ++ (Path.segments rest).text.toList) := by
  rw [Path.text, List.foldr_cons, String.toList_append, String.toList_append]
  rfl

/-- The text of segments begins with a slash, if it is not empty. -/
theorem Path.Rooted.head {special : Bool} {path : Path} (rooted : path.Rooted special) :
    ∀ c ∈ path.text.toList.head?, c = '/' := by
  obtain ⟨names, rfl, -⟩ := rooted
  cases names with
  | nil => nofun
  | cons name rest =>
      rw [toList_segments]
      rintro c ⟨⟩
      rfl

theorem Path.Rooted.text_ne_empty {special : Bool} {path : Path} (rooted : path.Rooted special)
    (holds : special = true) : path.text ≠ "" := by
  obtain ⟨names, rfl, some⟩ := rooted
  obtain ⟨name, rest, rfl⟩ := List.exists_cons_of_ne_nil (some holds)
  rw [← String.toList_eq_nil_iff.ne, toList_segments]
  exact List.cons_ne_nil _ _

theorem walk_ne_nil {file : Bool} {before : List String} {segments : List (List Char)}
    (some : segments ≠ []) : walk file before segments ≠ [] := by
  fun_induction walk file before segments with
  | case1 before => exact absurd rfl some
  | case2 before last => simp
  | case3 before last => simp
  | case4 before last => simp
  | case5 before segment rest more _ ih => exact ih more
  | case6 before segment rest more _ ih => exact ih more
  | case7 before segment rest more _ _ ih => exact ih more

theorem rawSegments_ne_nil (special : Bool) (text : List Char) : rawSegments special text ≠ [] := by
  rw [rawSegments, splitOn_eq]
  exact List.splitOn_ne_nil '/' _

theorem rooted_pathBelow (special slashed : Bool) (before : List String) (text : List Char) :
    (pathBelow slashed before text).Rooted special :=
  ⟨_, rfl, fun _ => walk_ne_nil (rawSegments_ne_nil slashed text)⟩

theorem rooted_pathAfterAuthority (special : Bool) (text : List Char) :
    (pathAfterAuthority special text).Rooted special := by
  cases text with
  | nil => cases special with
    | true => exact ⟨_, rfl, fun _ => List.cons_ne_nil _ _⟩
    | false => exact ⟨_, rfl, nofun⟩
  | cons c rest =>
      rw [pathAfterAuthority]
      split
      · exact rooted_pathBelow ..
      · exact rooted_pathBelow ..

theorem rooted_filePath (special : Bool) (before : List String) (text : List Char) :
    (filePath before text).Rooted special := by
  rw [filePath]
  split
  · exact ⟨_, rfl, fun _ => List.cons_ne_nil _ _⟩
  · next names some => exact ⟨_, rfl, fun _ => some⟩

end Paths

/-- The first segment names a drive. -/
def Path.BeginsWithDrive (path : Path) : Prop :=
  ∃ first rest, path = .segments (first :: rest) ∧ isDriveLetter first.toList = true

/-- A URL whose path fits its host: it has one below a host, and a drive is named below no host. -/
structure Founded (url : Url) : Prop where
  rooted : url.host ≠ none → url.path.Rooted url.isSpecial
  drive : url.scheme = "file" → url.path.BeginsWithDrive → url.host = some (.domain "")
  special : url.isSpecial = true → url.host ≠ none

theorem founded_file {host : Host} {path : Path} (parts : Parts)
    (rooted : ∀ special, path.Rooted special) (drive : path.BeginsWithDrive → host = .domain "") :
    Founded (parts.complete (withoutAuthority "file" (some host) path)) where
  rooted _ := rooted _
  drive _ driven := congrArg some (drive driven)
  special _ := nofun

theorem founded_fileUrl [Idna] {parts : Parts} {text : List Char} {url : Url}
    (read : fileUrl none parts text = .ok url) : url.Founded := by
  have nameless : ∀ text, Founded
      (parts.complete (withoutAuthority "file" (some (.domain "")) (filePath [] text))) :=
    fun text => founded_file parts (rooted_filePath · [] text) fun _ => rfl
  cases text with
  | nil =>
      cases read
      exact founded_file parts (fun _ => ⟨_, rfl, fun _ => List.cons_ne_nil _ _⟩) fun _ => rfl
  | cons c rest =>
      simp only [fileUrl] at read
      split at read
      · cases rest with
        | nil =>
            cases read
            exact nameless _
        | cons d behind =>
            simp only at read
            split at read
            · simp only [bind_eq_ok, pure_eq_ok] at read
              obtain ⟨⟨host, pathText⟩, taken, rfl⟩ := read
              refine founded_file parts (rooted_filePath · [] _) ?_
              rintro ⟨first, more, whole, driven⟩
              rw [whole]
              exact if_pos driven
            · cases read
              exact nameless _
      · cases read
        exact nameless _

theorem founded_withAuthority [Idna] {scheme : String} {parts : Parts} {text : List Char} {url : Url}
    (read : withAuthority scheme parts text = .ok url) (other : scheme ≠ "file") :
    url.Founded := by
  simp only [withAuthority, bind_eq_ok, pure_eq_ok] at read
  obtain ⟨⟨authority, behind⟩, -, rfl⟩ := read
  exact ⟨fun _ => rooted_pathAfterAuthority _ behind, fun file => absurd file other,
    fun _ => Option.some_ne_none _⟩

theorem founded_hostless {scheme : String} {parts : Parts} {path : Path} (other : scheme ≠ "file")
    (plain : ¬isSpecialScheme scheme = true) :
    Founded (parts.complete (withoutAuthority scheme none path)) where
  rooted hosted := absurd rfl hosted
  drive file := absurd file other
  special special := absurd special plain

theorem founded_of_parse [Idna] {text : String} {url : Url} (read : parse text = .ok url) :
    url.Founded := by
  rw [parse_eq_ofParts, ofParts] at read
  split at read
  · next scheme behind cut =>
      simp only [withScheme] at read
      split at read
      · exact founded_fileUrl read
      · next other =>
          split at read
          · exact founded_withAuthority read other
          · next plain =>
              split at read
              · exact founded_withAuthority read other
              · cases read
                exact founded_hostless other plain
              · cases read
                exact founded_hostless other plain
  · cases read

theorem founded_origin {url : Url} (founded : url.Founded) : url.origin.Founded where
  rooted _ := ⟨_, rfl, fun _ => List.cons_ne_nil _ _⟩
  drive := by
    rintro - ⟨first, rest, whole, driven⟩
    cases whole
    cases driven
  special := founded.special

end Bearer.Url

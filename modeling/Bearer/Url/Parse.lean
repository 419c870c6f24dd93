import Bearer.Url.Basic

/-!
Reading URLs, absolute or relative to a base. The text is first taken apart at its first `#` and
the first `?` before it, because no part in front of these can contain them; what is left is a
scheme, an authority and a path.
-/
namespace Bearer.Url

/-- A URL text without the blanks around it and without tabs and line ends, taken apart. -/
structure Parts where
  body : List Char
  query : Option (List Char)
  fragment : Option (List Char)
  deriving DecidableEq, Repr

def isTrimmed (c : Char) : Bool :=
  c.toNat ≤ 0x20

def isDropped (c : Char) : Bool :=
  c = '\t' || c = '\n' || c = '\r'

/-- The text without what reading ignores. -/
def relevant (text : List Char) : List Char :=
  (((text.dropWhile isTrimmed).reverse.dropWhile isTrimmed).reverse).filter (!isDropped ·)

def Parts.ofText (text : String) : Parts :=
  let (front, fragment) := cutAt '#' (relevant text.toList)
  let (body, query) := cutAt '?' front
  ⟨body, query, fragment⟩

def Parts.hasMore (parts : Parts) : Bool :=
  parts.query.isSome || parts.fragment.isSome

def isSchemeChar (c : Char) : Bool :=
  c.isAlphanum || c = '+' || c = '-' || c = '.'

/-- The lower-case scheme in front of a colon, and what follows. -/
def cutScheme (body : List Char) : Option (String × List Char) :=
  match cutAt ':' body with
  | (c :: rest, some after) =>
    if c.isAlpha && rest.all isSchemeChar then
      some (String.ofList ((c :: rest).map Char.toLower), after)
    else none
  | _ => none

def isSlash (c : Char) : Bool :=
  c = '/' || c = '\\'

def isSeparator (special : Bool) (c : Char) : Bool :=
  c = '/' || (special && c = '\\')

def rawSegments (special : Bool) (text : List Char) : List (List Char) :=
  splitOn '/' (text.map fun c => if special && c = '\\' then '/' else c)

/-- The points of a segment, a percent-encoded one taken for what it stands for. -/
def pointsOf (segment : List Char) : Option Nat :=
  match segment with
  | [] => some 0
  | '.' :: rest => (· + 1) <$> pointsOf rest
  | '%' :: '2' :: 'e' :: rest => (· + 1) <$> pointsOf rest
  | '%' :: '2' :: 'E' :: rest => (· + 1) <$> pointsOf rest
  | _ => none

/-- A letter with a colon or a bar, the name of a drive. -/
def isDriveLetter (segment : List Char) : Bool :=
  match segment with
  | [c, d] => c.isAlpha && (d = ':' || d = '|')
  | _ => false

def stepOut (before : List String) : List String :=
  match before with
  | [] => []
  | last :: rest => if isDriveLetter last.toList then last :: rest else rest

/-- In a file path the name of a drive is written with a colon. -/
def segmentText (file : Bool) (segment : List Char) : String :=
  match segment with
  | [c, '|'] => if file && c.isAlpha then String.ofList [c, ':'] else String.ofList (encode avoidedInPath segment)
  | _ => String.ofList (encode avoidedInPath segment)

/-- Walks raw segments from the segments in `before`, newest first. One point stays, two points step
out, and either leaves an empty segment at the end of the path. -/
def walk (file : Bool) (before : List String) : List (List Char) → List String
  | [] => before.reverse
  | [last] =>
    match pointsOf last with
    | some 1 => ("" :: before).reverse
    | some 2 => ("" :: stepOut before).reverse
    | _ => (segmentText file last :: before).reverse
  | segment :: rest =>
    match pointsOf segment with
    | some 1 => walk file before rest
    | some 2 => walk file (stepOut before) rest
    | _ => walk file (segmentText file segment :: before) rest

/-- A path from a text that stands behind a slash, below the segments in `before`. -/
def pathBelow (special : Bool) (before : List String) (text : List Char) : Path :=
  .segments (walk false before (rawSegments special text))

/-- The path behind an authority. A special URL always has one. -/
def pathAfterAuthority (special : Bool) (text : List Char) : Path :=
  match text with
  | [] => if special then .segments [""] else .segments []
  | c :: rest => if isSeparator special c then pathBelow special [] rest else pathBelow special [] text

/-- A path of a file; slashes in front count as one. -/
def filePath (before : List String) (text : List Char) : Path :=
  let names := walk true before (rawSegments true text)
  match names.dropWhile (· == "") with
  | [] => .segments [""]
  | names => .segments names

def queryOf (special : Bool) (text : List Char) : String :=
  String.ofList (encode (if special then avoidedInSpecialQuery else avoidedInQuery) text)

def fragmentOf (text : List Char) : String :=
  String.ofList (encode avoidedInFragment text)

/-- Gives a URL the query and the fragment of a text. -/
def Parts.complete (parts : Parts) (url : Url) : Url :=
  { url with
    query := parts.query.map (queryOf url.isSpecial)
    fragment := parts.fragment.map fragmentOf }

structure Authority where
  username : String
  password : Option String
  host : Host
  port : Option Nat

/-- The text behind the last at sign, and before it, where there is one. -/
def cutUserinfo (text : List Char) : Option (List Char) × List Char :=
  let (hostBackward, userBackward) := cutAt '@' text.reverse
  (userBackward.map List.reverse, hostBackward.reverse)

/-- The text of a host before the first colon outside square brackets, and what follows. -/
def cutPort (inBrackets : Bool) : List Char → List Char × Option (List Char)
  | [] => ([], none)
  | c :: rest =>
    if c = ':' && !inBrackets then ([], some rest)
    else
      let inBrackets := if c = '[' then true else if c = ']' then false else inBrackets
      (c :: (cutPort inBrackets rest).1, (cutPort inBrackets rest).2)

/-- A port number and the text behind its digits, which only a backslash can begin. The default
port of the scheme is left out. -/
def portOf (scheme : String) (text : List Char) : Except Fault (Option Nat × List Char) :=
  let digits := text.takeWhile Char.isDigit
  let rest := text.dropWhile Char.isDigit
  let n := Decimal.ofDigits (digits.map fun c => c.toNat - '0'.toNat)
  if n > 65535 then .error .invalidPort
  else if rest.head?.any (· ≠ '\\') then .error .invalidPort
  else if digits.isEmpty || defaultPort scheme = some n then .ok (none, rest)
  else .ok (some n, rest)

def userinfoOf (text : List Char) : String × Option String :=
  match cutAt ':' text with
  | (user, some password) =>
    (String.ofList (encode avoidedInUserinfo user),
      if password.isEmpty then none else some (String.ofList (encode avoidedInUserinfo password)))
  | (user, none) => (String.ofList (encode avoidedInUserinfo user), none)

variable [Idna]

/-- Reads the text behind the two slashes: an authority, and the path text that follows it. -/
def authorityOf (scheme : String) (hasMore : Bool) (text : List Char) :
    Except Fault (Authority × List Char) := do
  let special := isSpecialScheme scheme
  let front := text.takeWhile (!isSeparator special ·)
  let tail := text.dropWhile (!isSeparator special ·)
  let (userinfo, hostAndPort) := cutUserinfo front
  if userinfo = some [] && hostAndPort.isEmpty && (hasMore || !tail.isEmpty) then
    .error .emptyHost
  let (username, password) := userinfoOf (userinfo.getD [])
  let (hostText, portText) := cutPort false hostAndPort
  let host ←
    if special then
      if hostText.isEmpty then .error .emptyHost else Host.parse hostText
    else Host.parseOpaque hostText
  if host = .domain "" && portText.isSome then .error .emptyHost
  let (port, leftover) ← portOf scheme (portText.getD [])
  if host = .domain "" && (username ≠ "" || password.isSome) then .error .emptyHost
  return (⟨username, password, host, port⟩, leftover ++ tail)

def withAuthority (scheme : String) (parts : Parts) (text : List Char) : Except Fault Url := do
  let (authority, pathText) ← authorityOf scheme parts.hasMore text
  return parts.complete
    { scheme := scheme
      username := authority.username
      password := authority.password
      host := some authority.host
      port := authority.port
      path := pathAfterAuthority (isSpecialScheme scheme) pathText
      query := none
      fragment := none }

def withoutAuthority (scheme : String) (host : Option Host) (path : Path) : Url where
  scheme := scheme
  username := ""
  password := none
  host := host
  port := none
  path := path
  query := none
  fragment := none

/-- The host of a file, from the text behind the two slashes; the machine itself has no name, and a
drive is not a host. -/
def fileHost (text : List Char) : Except Fault (Host × List Char) := do
  let front := text.takeWhile (!isSlash ·)
  if isDriveLetter front then return (.domain "", text)
  let host ← if front.isEmpty then .ok (.domain "") else Host.parse front
  return (if host = .domain "localhost" then .domain "" else host, text.dropWhile (!isSlash ·))

/-- Segments of a path, newest first, without the last one. -/
def Path.parents : Path → List String
  | .opaqueText _ => []
  | .segments names => names.dropLast.reverse

/-- The base with the query of the text where it has one, and with its fragment. -/
def Parts.overBase (parts : Parts) (base : Url) : Url :=
  { base with
    query :=
      match parts.query with
      | some query => some (queryOf base.isSpecial query)
      | none => base.query
    fragment := parts.fragment.map fragmentOf }

def startsWithDrive (text : List Char) : Bool :=
  isDriveLetter (text.takeWhile (!isSlash ·))

/-- What a path behind a single slash is below: the drive that the path of the base begins with, or
else its host. A path that begins with a drive is below neither. -/
def fileRoot (base : Option Url) (text : List Char) : Host × List String :=
  match base with
  | none => (.domain "", [])
  | some base =>
    if startsWithDrive text then (.domain "", [])
    else
      match base.path with
      | .segments (first :: _) =>
        if isDriveLetter first.toList then (.domain "", [first])
        else (base.host.getD (.domain ""), [])
      | _ => (base.host.getD (.domain ""), [])

def fileUrl (base : Option Url) (parts : Parts) (text : List Char) : Except Fault Url := do
  match text with
  | c :: rest =>
    if isSlash c then
      match rest with
      | d :: afterSlashes =>
        if isSlash d then
          let (host, pathText) ← fileHost afterSlashes
          let path := filePath [] (if pathText.head?.any isSlash then pathText.tail else pathText)
          let host :=
            match path with
            | .segments (first :: _) => if isDriveLetter first.toList then .domain "" else host
            | _ => host
          return parts.complete (withoutAuthority "file" (some host) path)
        else
          let (host, before) := fileRoot base rest
          return parts.complete (withoutAuthority "file" (some host) (filePath before rest))
      | [] =>
        let (host, before) := fileRoot base rest
        return parts.complete (withoutAuthority "file" (some host) (filePath before rest))
    else
      match base with
      | some base =>
        if startsWithDrive text then
          return parts.complete (withoutAuthority "file" (some (.domain "")) (filePath [] text))
        else
          return parts.complete { base with path := filePath base.path.parents text }
      | none =>
        return parts.complete (withoutAuthority "file" (some (.domain "")) (filePath [] text))
  | [] =>
    match base with
    | some base => return parts.overBase base
    | none => return parts.complete (withoutAuthority "file" (some (.domain "")) (.segments [""]))

/-- Reads a text without a scheme of its own against a base with a path of segments. -/
def relativeTo (base : Url) (parts : Parts) (text : List Char) : Except Fault Url :=
  match text with
  | [] => .ok (parts.overBase base)
  | '/' :: '/' :: rest => withAuthority base.scheme parts rest
  | c :: rest =>
    if isSlash c then
      if rest.head?.any isSlash then withAuthority base.scheme parts (text.dropWhile isSlash)
      else .ok (parts.complete { base with path := pathBelow base.isSpecial [] rest })
    else .ok (parts.complete { base with path := pathBelow base.isSpecial base.path.parents text })

def withScheme (base : Option Url) (scheme : String) (parts : Parts) (text : List Char) :
    Except Fault Url :=
  if scheme = "file" then fileUrl (base.filter (·.scheme = "file")) parts text
  else if isSpecialScheme scheme then
    match base.filter (·.scheme = scheme) with
    | some base =>
      if (text.takeWhile isSlash).length < 2 then relativeTo base parts text
      else withAuthority scheme parts (text.dropWhile isSlash)
    | none => withAuthority scheme parts (text.dropWhile isSlash)
  else
    match text with
    | '/' :: '/' :: rest => withAuthority scheme parts rest
    | '/' :: rest => .ok (parts.complete (withoutAuthority scheme none (pathBelow false [] rest)))
    | _ =>
      .ok (parts.complete
        (withoutAuthority scheme none (.opaqueText (String.ofList (encode isControl text)))))

def parseWith (base : Option Url) (text : String) : Except Fault Url :=
  let parts := Parts.ofText text
  match cutScheme parts.body with
  | some (scheme, rest) => withScheme base scheme parts rest
  | none =>
    match base with
    | none => .error .relativeWithoutBase
    | some base =>
      if parts.body.isEmpty && parts.query.isNone && parts.fragment.isSome then
        .ok (parts.overBase base)
      else if base.path.isOpaque then .error .relativeToOpaqueBase
      else if base.scheme = "file" then fileUrl (some base) parts parts.body
      else relativeTo base parts parts.body

def parse (text : String) : Except Fault Url :=
  parseWith none text

def resolve (base : Url) (text : String) : Except Fault Url :=
  parseWith (some base) text

end Bearer.Url

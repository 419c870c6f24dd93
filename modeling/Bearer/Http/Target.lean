import Bearer.Url.Basic

/-!
Request targets: the URL texts that can be put into a request, and the text that is sent for them.
The fragment is not sent, and a few texts that are URLs are refused.
-/
namespace Bearer.Http

inductive TargetFault where
  | tooLong
  | schemeTooLong
  | invalidFormat
  | invalidCharacter
  | invalidAuthority
  deriving DecidableEq, Repr

def TargetFault.message : TargetFault → String
  | .tooLong => "uri too long"
  | .schemeTooLong => "scheme too long"
  | .invalidFormat => "invalid format"
  | .invalidCharacter => "invalid uri character"
  | .invalidAuthority => "invalid authority"

def maxTargetLength : Nat := 65534

def maxSchemeLength : Nat := 64

/-- What an authority may consist of, a percent sign apart. -/
def isAuthorityChar (c : Char) : Bool :=
  c.isAlphanum ||
    c ∈ ['!', '$', '&', '\'', '(', ')', '*', '+', ',', '-', '.', ';', '=', '_', '~', ':', '@', '[', ']']

def endsAuthority (c : Char) : Bool :=
  c = '/' || c = '?' || c = '#'

/-- What has been seen of an authority. Colons and percent signs are forgotten at an at sign and at
a closing bracket, because they belonged to the user or to an address. -/
structure AuthorityScan where
  colons : Nat
  percent : Bool
  opened : Bool
  closed : Bool

def AuthorityScan.step (s : AuthorityScan) (c : Char) : Except TargetFault AuthorityScan :=
  if c = ':' then
    if s.colons ≥ 8 then .error .invalidAuthority else .ok { s with colons := s.colons + 1 }
  else if c = '[' then
    if s.percent || s.opened then .error .invalidAuthority else .ok { s with opened := true }
  else if c = ']' then
    if !s.opened || s.closed then .error .invalidAuthority
    else .ok { s with closed := true, colons := 0, percent := false }
  else if c = '@' then .ok { s with colons := 0, percent := false }
  else if c = '%' then .ok { s with percent := true }
  else if isAuthorityChar c then .ok s
  else .error .invalidCharacter

def checkAuthority (text : List Char) : Except TargetFault Unit := do
  let s ← text.foldlM AuthorityScan.step ⟨0, false, false, false⟩
  if s.opened != s.closed || s.colons > 1 || text.getLast? = some '@' || s.percent then
    .error .invalidAuthority

def isPathChar (c : Char) : Bool :=
  let n := c.toNat
  n = 0x21 || n = 0x22 || (0x24 ≤ n && n ≤ 0x3B) || n = 0x3D || (0x40 ≤ n && n ≤ 0x5F) ||
    (0x61 ≤ n && n ≤ 0x7E) || 0x7F ≤ n

def isQueryChar (c : Char) : Bool :=
  let n := c.toNat
  n = 0x21 || (0x24 ≤ n && n ≤ 0x3B) || n = 0x3D || 0x3F ≤ n

/-- The scheme in front of `://`, where there is one. -/
def schemeOf (text : List Char) : Except TargetFault (Option (List Char × List Char)) :=
  let scheme := text.takeWhile (fun c => c.isAlphanum || c = '+' || c = '-' || c = '.')
  match text.drop scheme.length with
  | ':' :: '/' :: '/' :: rest =>
    if scheme.length > maxSchemeLength then .error .schemeTooLong else .ok (some (scheme, rest))
  | _ => .ok none

/-- The text that is sent for a URL text, or why it cannot be sent. A text without a scheme in front
of two slashes has to be an authority as a whole. -/
def targetOf (url : String) : Except TargetFault String := do
  if url.utf8ByteSize > maxTargetLength then .error .tooLong
  let text := url.toList
  match ← schemeOf text with
  | none =>
    let authority := text.takeWhile (!endsAuthority ·)
    checkAuthority authority
    if authority.length = text.length then return url else .error .invalidFormat
  | some (scheme, rest) =>
    let authority := rest.takeWhile (!endsAuthority ·)
    checkAuthority authority
    if authority.isEmpty then .error .invalidFormat
    let (front, _) := Url.cutAt '#' (rest.drop authority.length)
    let (path, query) := Url.cutAt '?' front
    if !path.all isPathChar || !(query.getD []).all isQueryChar then .error .invalidCharacter
    let path := if path.isEmpty then ['/'] else path
    let queryText :=
      match query with
      | some query => '?' :: query
      | none => []
    return String.ofList (scheme ++ "://".toList ++ authority ++ path ++ queryText)

end Bearer.Http

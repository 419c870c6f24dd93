import Bearer.Url.Host

/-!
The URL record and its one written form. Every component holds text that is already
percent-encoded, so writing a URL only joins its parts.
-/
namespace Bearer

namespace Url

/-- An opaque path is text without structure; any other path is a list of segments, each written
behind a slash. -/
inductive Path where
  | opaqueText (text : String)
  | segments (names : List String)
  deriving DecidableEq, Repr

def Path.text : Path → String
  | .opaqueText text => text
  | .segments names => names.foldr (fun name rest => "/" ++ name ++ rest) ""

def Path.isOpaque : Path → Bool
  | .opaqueText _ => true
  | .segments _ => false

end Url

/-- A URL without authority has no host; an authority may hold the empty name. -/
structure Url where
  scheme : String
  username : String
  password : Option String
  host : Option Url.Host
  port : Option Nat
  path : Url.Path
  query : Option String
  fragment : Option String
  deriving DecidableEq, Repr

namespace Url

def isSpecialScheme (scheme : String) : Bool :=
  scheme ∈ ["http", "https", "ws", "wss", "ftp", "file"]

def defaultPort (scheme : String) : Option Nat :=
  if scheme = "http" ∨ scheme = "ws" then some 80
  else if scheme = "https" ∨ scheme = "wss" then some 443
  else if scheme = "ftp" then some 21
  else none

def isSpecial (url : Url) : Bool :=
  isSpecialScheme url.scheme

def userinfoText (url : Url) : String :=
  match url.password with
  | some password => url.username ++ ":" ++ password ++ "@"
  | none => if url.username = "" then "" else url.username ++ "@"

def portText (url : Url) : String :=
  match url.port with
  | some port => ":" ++ toString port
  | none => ""

/-- A path that begins with an empty segment must not be taken for an authority. -/
def authorityText (url : Url) : String :=
  match url.host with
  | some host => "//" ++ url.userinfoText ++ host.text ++ url.portText
  | none =>
    match url.path with
    | .segments ("" :: _ :: _) => "/."
    | _ => ""

def baseText (url : Url) : String :=
  url.scheme ++ ":" ++ url.authorityText ++ url.path.text

def queryText (url : Url) : String :=
  match url.query with
  | some query => "?" ++ query
  | none => ""

def fragmentText (url : Url) : String :=
  match url.fragment with
  | some fragment => "#" ++ fragment
  | none => ""

def text (url : Url) : String :=
  url.baseText ++ url.queryText ++ url.fragmentText

def origin (url : Url) : Url :=
  { url with path := .segments [""], query := none, fragment := none }

def isLoopback (url : Url) : Bool :=
  url.host.any Host.isLoopback

/-- Adds a pair to the query in the form encoding. A query that holds something is continued
behind an ampersand. -/
def appendPair (url : Url) (name value : String) : Url :=
  let pair := String.ofList (formEncode name.toList ++ '=' :: formEncode value.toList)
  { url with
    query := some <|
      match url.query with
      | none => pair
      | some query => if query = "" then pair else query ++ "&" ++ pair }

end Url

end Bearer

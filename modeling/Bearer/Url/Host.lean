import Bearer.Decimal.Digits
import Bearer.Url.Fault
import Bearer.Url.Idna

/-!
Hosts of URLs: names, IPv4 addresses in their many spellings, and IPv6 addresses. A host of a
special scheme is percent-decoded and put into ASCII first, and counts as an IPv4 address when its
last label is a number; any other scheme takes a name as it stands.
-/
namespace Bearer.Url

inductive Host where
  | domain (name : String)
  | ipv4 (address : Nat)
  | ipv6 (groups : List Nat)
  deriving DecidableEq, Repr

/-- A list before the first element equal to `sep` and after it, where there is one. -/
def cutAt {α : Type} [DecidableEq α] (sep : α) : List α → List α × Option (List α)
  | [] => ([], none)
  | a :: rest =>
    if a = sep then ([], some rest)
    else ((a :: (cutAt sep rest).1), (cutAt sep rest).2)

def charHexValue (c : Char) : Option Nat :=
  if c.toNat < 0x80 then Text.hexValue c.toNat.toUInt8 else none

/-- The number that digits of this base denote; other characters are refused. -/
def numberIn (base : Nat) (text : List Char) : Option Nat :=
  text.foldl
    (fun n c => do
      let n ← n
      let d ← charHexValue c
      if d < base then some (n * base + d) else none)
    (some 0)

namespace Ipv4

/-- A part of an IPv4 address: hexadecimal behind `0x`, octal behind `0`, otherwise decimal. -/
def part (text : List Char) : Option Nat :=
  match text with
  | [] => none
  | '0' :: 'x' :: rest | '0' :: 'X' :: rest => numberIn 16 rest
  | '0' :: d :: rest => numberIn 8 (d :: rest)
  | text => numberIn 10 text

/-- Whether a host whose labels these are has to be an IPv4 address. A final point is ignored. -/
def isNumeric (labels : List (List Char)) : Bool :=
  match labels.reverse with
  | [] => false
  | [] :: last :: _ => numeric last
  | [] :: [] => false
  | last :: _ => numeric last
where
  numeric (last : List Char) : Bool :=
    (!last.isEmpty && last.all Char.isDigit) || (part last).isSome

/-- The last part fills what the earlier ones, a byte each, leave of the four bytes. -/
def ofParts (earlier : List Nat) (last : Nat) : Option Nat :=
  let room := 8 * (4 - earlier.length)
  if earlier.all (· ≤ 255) && last < 1 <<< room then
    some (earlier.foldl (fun n p => n * 256 + p) 0 <<< room + last)
  else none

def parse (labels : List (List Char)) : Option Nat := do
  let labels := if labels.getLast? = some [] then labels.dropLast else labels
  if labels.length > 4 then none
  let parts ← labels.mapM part
  ofParts parts.dropLast (← parts.getLast?)

def text (address : Nat) : String :=
  ".".intercalate
    ([24, 16, 8, 0].map fun shift => toString ((address >>> shift) % 256))

end Ipv4

namespace Ipv6

def group (text : List Char) : Option Nat :=
  if text.isEmpty || text.length > 4 then none else numberIn 16 text

def quadByte (text : List Char) : Option Nat :=
  match text with
  | [] => none
  | '0' :: _ :: _ => none
  | text => (numberIn 10 text).filter (· ≤ 255)

def quad (text : List Char) : Option (List Nat) :=
  match (splitOn '.' text).mapM quadByte with
  | some [a, b, c, d] => some [a * 256 + b, c * 256 + d]
  | _ => none

/-- Groups between colons, the last of which may be dotted. -/
def groups : List (List Char) → Option (List Nat)
  | [] => some []
  | [last] => if '.' ∈ last then quad last else (fun g => [g]) <$> group last
  | first :: rest => do return (← group first) :: (← groups rest)

def leading (text : List Char) : Option (List Nat) :=
  if text.isEmpty then some [] else (splitOn ':' text).mapM group

def trailing (text : List Char) : Option (List Nat) :=
  if text.isEmpty then some [] else groups (splitOn ':' text)

/-- A text before the first double colon and after it, where there is one. -/
def cutDouble : List Char → List Char × Option (List Char)
  | [] => ([], none)
  | ':' :: ':' :: rest => ([], some rest)
  | c :: rest => (c :: (cutDouble rest).1, (cutDouble rest).2)

/-- A double colon stands for at least one group of zeros; without it all eight are written. -/
def parse (text : List Char) : Option (List Nat) :=
  match cutDouble text with
  | (_, none) => (groups (splitOn ':' text)).filter (·.length = 8)
  | (before, some after) => do
    let before ← leading before
    let after ← trailing after
    if before.length + after.length ≤ 7 then
      some (before ++ List.replicate (8 - before.length - after.length) 0 ++ after)
    else none

/-- Start and length of the longest run of zeros, the first of equal ones, when it has at least two
groups. -/
def longestZeros (groups : List Nat) : Option (Nat × Nat) :=
  let runs := (List.range groups.length).map fun i => (i, ((groups.drop i).takeWhile (· == 0)).length)
  let best := runs.foldl (fun best run => if run.2 > best.2 then run else best) (0, 0)
  if best.2 ≥ 2 then some best else none

def hexText (n : Nat) : String :=
  String.ofList (Nat.toDigits 16 n)

def text (groups : List Nat) : String :=
  match longestZeros groups with
  | none => ":".intercalate (groups.map hexText)
  | some (start, length) =>
    ":".intercalate ((groups.take start).map hexText) ++ "::" ++
      ":".intercalate ((groups.drop (start + length)).map hexText)

end Ipv6

def Host.text : Host → String
  | .domain name => name
  | .ipv4 address => Ipv4.text address
  | .ipv6 groups => "[" ++ Ipv6.text groups ++ "]"

/-- The addresses and the name of the machine itself. -/
def Host.isLoopback : Host → Bool
  | .domain name => name.toList.map Char.toLower = "localhost".toList
  | .ipv4 address => address >>> 24 = 127
  | .ipv6 groups => groups = [0, 0, 0, 0, 0, 0, 0, 1]

def Host.bracketed (text : List Char) : Except Fault Host :=
  if text.getLast? = some ']' then
    match Ipv6.parse text.dropLast with
    | some groups => .ok (.ipv6 groups)
    | none => .error .invalidIpv6
  else .error .invalidIpv6

/-- The host of a special scheme that is named so: an address, if the last label is a number. -/
def named (name : List Char) : Except Fault Host :=
  if name.isEmpty then .error .emptyHost
  else if Ipv4.isNumeric (splitOn '.' name) then
    match Ipv4.parse (splitOn '.' name) with
    | some address => .ok (.ipv4 address)
    | none => .error .invalidIpv4
  else .ok (.domain (String.ofList name))

def Host.parse [Idna] (text : List Char) : Except Fault Host :=
  match text with
  | '[' :: rest => Host.bracketed rest
  | _ =>
    match Idna.toAscii (percentDecode (text.flatMap String.utf8EncodeChar)) with
    | some name => named name
    | none => .error .invalidDomain

def forbiddenInOpaqueHost (c : Char) : Bool :=
  c ∈ ['\x00', '\t', '\n', '\r', ' ', '#', '/', ':', '<', '>', '?', '@', '[', '\\', ']', '^', '|']

def Host.parseOpaque (text : List Char) : Except Fault Host :=
  match text with
  | '[' :: rest => Host.bracketed rest
  | _ =>
    if text.any forbiddenInOpaqueHost then .error .forbiddenHostCharacter
    else .ok (.domain (String.ofList (encode isControl text)))

example : Ipv6.parse "1:2::3:4".toList = some [1, 2, 0, 0, 0, 0, 3, 4] := by decide +kernel
example : Ipv6.parse "::ffff:127.0.0.1".toList = some [0, 0, 0, 0, 0, 0xFFFF, 0x7F00, 1] := by
  decide +kernel
example : Ipv6.text [0x2001, 0xDB8, 0, 0, 1, 0, 0, 1] = "2001:db8::1:0:0:1" := by decide +kernel

end Bearer.Url

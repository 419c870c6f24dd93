import Bearer.Json.Decode

/-!
The issuer's result codes and how a caller has to take them. The expiry codes are kept in ascending
order, each one once.
-/
namespace Bearer.Issuer

inductive CodeClass where
  | ok
  | expired
  | terminal
  deriving DecidableEq, Repr

def CodeClass.label : CodeClass → String
  | .ok => "ok"
  | .expired => "expired"
  | .terminal => "terminal"

structure Codes where
  ok : Int
  expired : List Int
  deriving DecidableEq, Repr

namespace Codes

def insert (code : Int) : List Int → List Int
  | [] => [code]
  | other :: rest =>
    if code < other then code :: other :: rest
    else if code = other then other :: rest
    else other :: insert code rest

def ofCodes (codes : List Int) : List Int :=
  codes.foldl (fun expired code => insert code expired) []

/-- The code of a credential that is not accepted, and of one that is too old. -/
def default : Codes :=
  ⟨0, [40001, 42001]⟩

def classify (codes : Codes) (code : Int) : CodeClass :=
  if code = codes.ok then .ok
  else if code ∈ codes.expired then .expired
  else .terminal

def toJson (codes : Codes) : Json.Value :=
  .object [("ok", .int codes.ok), ("expired", .array (codes.expired.map .int))]

inductive Entry where
  | ok (code : Int)
  | expired (codes : List Int)

def record : Json.Record Entry where
  fields :=
    [("ok", fun tree => .ok <$> Json.Reader.int64 tree),
      ("expired", fun tree => .expired <$> Json.Reader.list Json.Reader.int64 tree)]
  closed := false

def ofEntries (entries : List (String × Entry)) : Codes :=
  entries.foldl
    (fun codes (_, entry) =>
      match entry with
      | .ok code => { codes with ok := code }
      | .expired list => { codes with expired := ofCodes list })
    default

/-- A field that is missing has its default. -/
def reader : Json.Reader Codes :=
  record.readAs fun entries => some (ofEntries entries)

end Codes

end Bearer.Issuer

import Bearer.Error
import Bearer.Json.Decode

/-!
The status that every body of an issuer holds, next to whatever else it holds. A body without it
is that of a success.
-/
namespace Bearer.Issuer

structure Status where
  errcode : Int
  errmsg : String
  deriving DecidableEq, Repr

namespace Status

inductive Entry where
  | errcode (code : Int)
  | errmsg (text : String)

def record : Json.Record Entry where
  fields :=
    [("errcode", fun tree => .errcode <$> Json.Reader.int64 tree),
      ("errmsg", fun tree => .errmsg <$> Json.Reader.text tree)]
  closed := false

def ofEntries (entries : List (String × Entry)) : Status :=
  entries.foldl
    (fun status (_, entry) =>
      match entry with
      | .errcode code => { status with errcode := code }
      | .errmsg text => { status with errmsg := text })
    ⟨0, ""⟩

def reader : Json.Reader Status :=
  record.readAs fun entries => some (ofEntries entries)

def toError (status : Status) : Error :=
  .issuer status.errcode status.errmsg

def toJson (status : Status) : Json.Value :=
  .object [("errcode", .int status.errcode), ("errmsg", .string status.errmsg)]

end Status

end Bearer.Issuer

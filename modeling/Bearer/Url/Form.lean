import Bearer.Text.Lossy
import Bearer.Url.Host

/-!
The names and values that a query holds in the form encoding. Pairs stand between ampersands, empty
ones are passed over, and the first equals sign of a pair ends its name.
-/
namespace Bearer.Url

def plusToSpace (b : UInt8) : UInt8 :=
  if b == 0x2B then 0x20 else b

def formText (bytes : List UInt8) : String :=
  String.ofList (Text.lossy (percentDecode (bytes.map plusToSpace)))

/-- A pair without an equals sign is a name with an empty value. -/
def formPair (bytes : List UInt8) : String × String :=
  (formText (cutAt 0x3D bytes).1, formText ((cutAt 0x3D bytes).2.getD []))

def formPairs (query : String) : List (String × String) :=
  ((splitOn 0x26 (Text.utf8 query)).filter (· ≠ [])).map formPair

example : formPairs "a=1&&b+c=%26=" = [("a", "1"), ("b c", "&=")] := by decide +kernel

end Bearer.Url

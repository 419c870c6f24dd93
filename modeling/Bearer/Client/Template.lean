import Bearer.Error
import Bearer.Url.Parse

/-!
URLs whose last character leaves a slot for a credential.
-/
namespace Bearer

def endsWithSlot (text : String) : Bool :=
  text.toList.getLast? = some '='

variable [Url.Idna]

structure Template where
  text : String
  slot : endsWithSlot text
  parses : (Url.parse text).toOption.isSome

namespace Template

/-- Takes a text that ends with an equals sign and is a URL. -/
def ofText (text : String) : Except Error Template :=
  if slot : endsWithSlot text then
    match h : Url.parse text with
    | .ok _ => .ok ⟨text, slot, by simp [h, Except.toOption]⟩
    | .error fault => .error (.invalidUrl text fault)
  else .error (.invalidTemplate text)

def completedText (template : Template) (credential : String) : String :=
  template.text ++ String.ofList (Url.formEncode credential.toList)

/-- The URL with the credential in its slot. -/
def complete (template : Template) (credential : String) : Except Error Url :=
  let text := template.completedText credential
  (Url.parse text).mapError (.invalidUrl text)

end Template

end Bearer

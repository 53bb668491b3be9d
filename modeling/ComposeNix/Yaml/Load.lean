import ComposeNix.Yaml.Meaning
import ComposeNix.Yaml.Node.Reader

/-!
# Loading a text

`load` goes all the way from the characters of a text to the value that it denotes.  A
text without a document denotes null.
-/

namespace ComposeNix.Yaml

/-- The value that a text denotes. -/
def load (text : List Char) : Except Fault Value := do
  match ← (Document.ofTokens (.ofText text)).mapError Fault.form with
  | some document => document.value
  | none => return .null

end ComposeNix.Yaml

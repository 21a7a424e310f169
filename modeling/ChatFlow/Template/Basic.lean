import ChatFlow.Template.Path
import ChatFlow.Text.Blank
import ChatFlow.Text.Token
import ChatFlow.Value.Display

/-!
# Placeholders

A placeholder is a name between double braces. `interpolate` replaces every placeholder whose name
has a value and leaves the others as they were written; a value that brings placeholders of its own
is not scanned again.
-/

namespace ChatFlow.Template

/-- Two braces, a run without closing braces, two braces. -/
def placeholder : Text.TokenShape where
  opening := ['\x7b', '\x7b']
  closing := ['\x7d', '\x7d']
  inner c := c ≠ '\x7d'

/-- The name between the braces of a placeholder, without the blanks around it. -/
def nameOf (enclosed : List Char) : String :=
  Text.trim (String.ofList enclosed)

def names (text : String) : List String :=
  (placeholder.tokens text.toList).map nameOf

/-- The text with the value of every placeholder that has one. -/
def interpolate (text : String) (vars : Fields) : String :=
  String.ofList <| placeholder.fill
    (fun g => (resolve vars (nameOf g)).map (·.format.toList)) text.toList

/-- The name of an authored variable, which may be written with one dollar sign in front. -/
def cleanName (authored : String) : String :=
  match (Text.trim authored).toList with
  | '$' :: rest => String.ofList rest
  | cs => String.ofList cs

end ChatFlow.Template

import ChatFlow.Text.Token
import ChatFlow.Text.Word
import ChatFlow.Value.Basic

/-!
# Environment variables in settings

A name between a dollar sign with an opening brace and a closing brace stands for the variable of
that name, wherever it occurs in a text of the settings. A variable that is not set leaves the text
as it is, and what a variable brings in is not scanned again.
-/

namespace ChatFlow.Environment

abbrev Variables := Table String String

/-- A variable as settings write it. -/
def reference : Text.TokenShape where
  opening := ['$', '\x7b']
  closing := ['\x7d']
  inner := Text.isWord

/-- A text with the values of the variables that are set. -/
def substitute (env : Variables) (s : String) : String :=
  String.ofList <| reference.fill
    (fun name => (env.get? (String.ofList name)).map String.toList) s.toList

mutual

/-- A value with all texts in it substituted; keys stay as they are. -/
def expand (env : Variables) : Value → Value
  | .str s => .str (substitute env s)
  | .list vs => .list (expandItems env vs)
  | .object fs => .object (expandFields env fs)
  | v => v

def expandItems (env : Variables) : List Value → List Value
  | [] => []
  | v :: rest => expand env v :: expandItems env rest

def expandFields (env : Variables) : List (String × Value) → List (String × Value)
  | [] => []
  | (k, v) :: rest => (k, expand env v) :: expandFields env rest

end

end ChatFlow.Environment

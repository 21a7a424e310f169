import ChatFlow.Number.Shortest
import ChatFlow.Text.Quoted
import ChatFlow.Value.Basic

/-!
# Values as text

`spell` writes a value in full, texts quoted. `display` differs from it in leaving a text that
stands alone as it is, and `format`, which fills placeholders, in writing nothing for null and
small letters for truth values that stand alone.
-/

namespace ChatFlow.Value

/-- Floating point numbers are positional from `1e-4` to below `1e16`, keep `.0` where they are
integral, and have a signed exponent of two digits at least. -/
def floatLayout : Layout where
  leastPositional := -4
  greatestPositional := 15
  integralTail := ".0"
  exponentMark := "e"
  exponentPlus := "+"
  exponentWidth := 2
  infinity := "inf"
  notANumber := "nan"

mutual

/-- A value in full. An integer is written at any length: the limit on the digits of a numeral
(`Text.maxDigits`) is checked where integers are read, and none that is written exceeds it. It was
read itself, or comes from a floating point number, which has 309 digits at most, or counts
attempts, and these go up only while they are below a limit that was read. -/
def spell : Value → String
  | null => "None"
  | bool true => "True"
  | bool false => "False"
  | int n => toString n
  | float x => floatLayout.render x
  | str s => Text.quoted s
  | list items => "[" ++ ", ".intercalate (spellItems items) ++ "]"
  | object fields => "\x7b" ++ ", ".intercalate (spellFields fields) ++ "\x7d"

def spellItems : List Value → List String
  | [] => []
  | v :: rest => spell v :: spellItems rest

def spellFields : List (String × Value) → List String
  | [] => []
  | (k, v) :: rest => (Text.quoted k ++ ": " ++ spell v) :: spellFields rest

end

/-- A value in full, except that a text alone is not quoted. -/
def display : Value → String
  | str s => s
  | v => spell v

/-- What a value puts in the place of a placeholder. -/
def format : Value → String
  | null => ""
  | bool b => if b then "true" else "false"
  | v => display v

@[simp] theorem format_str (s : String) : format (.str s) = s := rfl

end ChatFlow.Value

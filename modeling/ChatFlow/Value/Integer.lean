import ChatFlow.Text.Blank
import ChatFlow.Text.Digit
import ChatFlow.Value.Basic

/-!
# Integers written as text

A numeral is a run of digits in which a single underscore may stand between two digits. Numerals of
more than 4300 digits are refused everywhere.
-/

namespace ChatFlow.Text

def maxDigits : Nat := 4300

/-- The digits of a numeral, the most significant one first. -/
def numeral? (digit : Char → Option Nat) : List Char → Option (List Nat)
  | [] => none
  | [c] => (digit c).map ([·])
  | c :: '_' :: rest => do return (← digit c) :: (← numeral? digit rest)
  | c :: rest => do return (← digit c) :: (← numeral? digit rest)

def ofDigits (ds : List Nat) : Nat :=
  ds.foldl (fun n d => 10 * n + d) 0

/-- A sign, if there is one, and what follows it. -/
def splitSign : List Char → Bool × List Char
  | '-' :: rest => (true, rest)
  | '+' :: rest => (false, rest)
  | cs => (false, cs)

/-- An integer between white space, with digits of any script. -/
def integer? (s : String) : Option Int := do
  let (negative, cs) := splitSign (stripBy isWhiteSpace s.toList)
  let ds ← numeral? digit? cs
  if ds.length ≤ maxDigits then return Double.signed negative (ofDigits ds) else none

end ChatFlow.Text

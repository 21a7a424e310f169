import ChatFlow.Number.Double

/-!
# Numbers

A number is an integer of any size or a floating point number. The two compare by their exact
values.
-/

namespace ChatFlow

inductive Number
  | int (n : Int)
  | float (x : Double)
  deriving DecidableEq, Repr

namespace Number

/-- The order of two numbers; none where one of them is not a number. An integer is compared as
it is, without rounding. -/
def compare? : Number → Number → Option Ordering
  | .int a, .int b => some (compare a b)
  | .int a, .float y => (exact a).compare? y
  | .float x, .int b => x.compare? (exact b)
  | .float x, .float y => x.compare? y
where
  /-- An integer as an unrounded number of exponent zero. -/
  exact (n : Int) : Double := .finite (n < 0) n.natAbs 0

def isPositive (x : Number) : Bool :=
  x.compare? (.int 0) == some .gt

def reachedBy (limit : Number) (n : Int) : Bool :=
  match (Number.int n).compare? limit with
  | some .lt => false
  | some _ => true
  | none => false

/-- The quotient by a thousand, rounded once; none where an integer is too large for it. -/
def thousandth? : Number → Option Double
  | .int n =>
    match Double.ofRatio (n < 0) n.natAbs 1000 with
    | .infinite _ => none
    | x => some x
  | .float x => some (x.divNat 1000)

end Number

end ChatFlow

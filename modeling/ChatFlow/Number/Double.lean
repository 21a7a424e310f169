/-!
# Floating point numbers of 64 bits

A finite number is kept as `± mantissa · 2 ^ exponent`, so that all arithmetic is exact arithmetic
on integers followed by one rounding. `ofRatio` is that rounding: to the nearest number of the
format, a tie to the even mantissa, and to an infinity beyond the largest.
-/

namespace ChatFlow

/-- A number of the format. A finite one has a mantissa below `2 ^ 53` and an exponent of at least
`-1074`; its mantissa is at least `2 ^ 52` unless the exponent is the least. -/
inductive Double
  | finite (negative : Bool) (mantissa : Nat) (exponent : Int)
  | infinite (negative : Bool)
  | notANumber
  deriving DecidableEq, Repr, Inhabited

namespace Double

def minExponent : Int := -1074

/-- The exponent of the largest finite numbers. -/
def maxExponent : Int := 971

def zero (negative : Bool) : Double := .finite negative 0 minExponent

/-- A quotient rounded to the nearest integer, a half to the even one. -/
def roundDiv (num den : Nat) : Nat :=
  let q := num / den
  let r := num % den
  if 2 * r < den then q
  else if den < 2 * r then q + 1
  else if q % 2 = 0 then q else q + 1

def twoTo (k : Nat) : Nat := Nat.pow 2 k

def tenTo (k : Nat) : Nat := Nat.pow 10 k

/-- `num / (den · 2 ^ e)` as a pair of natural numbers. -/
def scale (num den : Nat) (e : Int) : Nat × Nat :=
  if e < 0 then (num * twoTo (-e).toNat, den) else (num, den * twoTo e.toNat)

/-- The greatest `e` with `2 ^ e ≤ num / den`, for positive `num` and `den`. -/
def logRatio (num den : Nat) : Int :=
  let e : Int := (Nat.log2 num : Int) - (Nat.log2 den : Int)
  let s := scale num den e
  if s.1 < s.2 then e - 1 else e

/-- The number of the format nearest to `num / den`. -/
def ofRatio (negative : Bool) (num den : Nat) : Double :=
  if num = 0 then zero negative
  else
    let e := max (logRatio num den - 52) minExponent
    let s := scale num den e
    let m := roundDiv s.1 s.2
    let carried := m = twoTo 53
    let m' := if carried then twoTo 52 else m
    let e' := if carried then e + 1 else e
    if maxExponent < e' then .infinite negative else .finite negative m' e'

/-- The number of the format nearest to an integer. -/
def ofInt (n : Int) : Double :=
  ofRatio (n < 0) n.natAbs 1

/-- The number of the format nearest to `± digits · 10 ^ exponent`. Magnitudes far outside the
range are decided by the number of digits alone. -/
def ofDecimal (negative : Bool) (digits : Nat) (exponent : Int) : Double :=
  let magnitude : Int := ((Nat.toDigits 10 digits).length : Int) + exponent
  if digits = 0 then zero negative
  else if 400 < magnitude then .infinite negative
  else if magnitude < -400 then zero negative
  else if exponent < 0 then ofRatio negative digits (tenTo (-exponent).toNat)
  else ofRatio negative (digits * tenTo exponent.toNat) 1

def isZero : Double → Bool
  | .finite _ 0 _ => true
  | _ => false

/-- Whether the number has no fractional part; an infinity has none and is not integral. -/
def isIntegral : Double → Bool
  | .finite _ m e => 0 ≤ e || m % twoTo (-e).toNat == 0
  | _ => false

/-- The integer part of a finite number, rounded towards zero. -/
def truncate? : Double → Option Int
  | .finite negative m e =>
    let magnitude : Nat := if e < 0 then m / twoTo (-e).toNat else m * twoTo e.toNat
    some (if negative then -(magnitude : Int) else magnitude)
  | _ => none

/-- The product with a power of two. -/
def scaleByPowerOfTwo (x : Double) (k : Nat) : Double :=
  match x with
  | .finite negative m e =>
    if e < 0 then ofRatio negative (m * twoTo k) (twoTo (-e).toNat)
    else ofRatio negative (m * twoTo (e.toNat + k)) 1
  | other => other

/-- The quotient by a positive integer, rounded once. -/
def divNat (x : Double) (d : Nat) : Double :=
  match x with
  | .finite negative m e =>
    if e < 0 then ofRatio negative m (twoTo (-e).toNat * d)
    else ofRatio negative (m * twoTo e.toNat) d
  | other => other

def signed (negative : Bool) (m : Nat) : Int :=
  if negative then -(m : Int) else m

/-- The order of two numbers; none where one of them is not a number. -/
def compare? : Double → Double → Option Ordering
  | .notANumber, _ => none
  | _, .notANumber => none
  | .infinite a, .infinite b => some (compare (!a) (!b))
  | .infinite a, .finite .. => some (if a then .lt else .gt)
  | .finite .., .infinite b => some (if b then .gt else .lt)
  | .finite a m e, .finite b n f =>
    let least := min e f
    some (compare (signed a (m * twoTo (e - least).toNat)) (signed b (n * twoTo (f - least).toNat)))

end Double

end ChatFlow

import ChatFlow.Number.Double

/-!
# The shortest decimal form of a floating point number

Of all decimals that are rounded back to a given number, the shortest is written, and of several
shortest ones the nearest. `shortest` finds it: for one digit, two digits and so on, it tries the
two points of that decimal grid around the number, in exact integer arithmetic. `Layout` holds what
a written form adds to the digits.
-/

namespace ChatFlow

/-- The positive decimal `digits · 10 ^ exponent`. -/
structure Decimal where
  digits : Nat
  exponent : Int
  deriving DecidableEq, Repr

namespace Double

/-- A positive finite number with the interval of the reals that are rounded to it, all four as
multiples of the same unit `1 / den`. -/
structure Target where
  low : Nat
  value : Nat
  high : Nat
  den : Nat
  closed : Bool

/-- The interval around `m · 2 ^ e`. Below a power of two the neighbour is only half as far. -/
def target (m : Nat) (e : Int) : Target :=
  let below := if m = twoTo 52 ∧ minExponent < e then 1 else 2
  let e4 := e - 2
  let (up, den) := if e4 < 0 then (1, twoTo (-e4).toNat) else (twoTo e4.toNat, 1)
  ⟨(4 * m - below) * up, 4 * m * up, (4 * m + 2) * up, den, m % 2 == 0⟩

/-- Whether `d · 10 ^ k` is rounded to the number. -/
def Target.contains (t : Target) (d : Nat) (k : Int) : Bool :=
  let (num, den) := if k < 0 then (d, tenTo (-k).toNat) else (d * tenTo k.toNat, 1)
  let x := num * t.den
  if t.closed then t.low * den ≤ x && x ≤ t.high * den else t.low * den < x && x < t.high * den

/-- The greatest `k` with `10 ^ k` at most the value. -/
def Target.magnitude (t : Target) : Int :=
  let estimate : Int := ((Nat.log2 t.value : Int) - (Nat.log2 t.den : Int)) * 30103 / 100000
  let atLeast (k : Int) : Bool :=
    if k < 0 then t.den ≤ t.value * tenTo (-k).toNat else t.den * tenTo k.toNat ≤ t.value
  if atLeast (estimate + 1) then estimate + 1
  else if atLeast estimate then estimate
  else estimate - 1

/-- The points of the grid of step `10 ^ k` next to the value, with the one to try first in
front: the nearer one, and of two equally near ones the even one. -/
def Target.neighbours (t : Target) (k : Int) : List Nat :=
  let (num, den) :=
    if k < 0 then (t.value * tenTo (-k).toNat, t.den) else (t.value, t.den * tenTo k.toNat)
  let q := num / den
  if roundDiv num den = q then [q, q + 1] else [q + 1, q]

/-- The first grid point that is rounded to the number, for `n` digits and the step for more,
up to `fuel` more digits. -/
def Target.search (t : Target) (magnitude : Int) : Nat → Nat → Option Decimal
  | 0, _ => none
  | fuel + 1, n =>
    let k := magnitude - (n : Int) + 1
    match (t.neighbours k).find? (t.contains · k) with
    | some d => some ⟨d, k⟩
    | none => t.search magnitude fuel (n + 1)

/-- The shortest decimal that is rounded to `m · 2 ^ e`; seventeen digits always suffice. -/
def shortest (m : Nat) (e : Int) : Decimal :=
  let t := target m e
  (t.search t.magnitude 17 1).getD ⟨m, e⟩

end Double

/-- How a decimal is laid out as text. -/
structure Layout where
  /-- Positional from this power of ten of the leading digit. -/
  leastPositional : Int
  /-- Positional up to this power of ten of the leading digit. -/
  greatestPositional : Int
  /-- What an integral positional number ends in. -/
  integralTail : String
  /-- The letter in front of an exponent. -/
  exponentMark : String
  /-- The sign of an exponent that is not negative. -/
  exponentPlus : String
  /-- The least number of digits of an exponent. -/
  exponentWidth : Nat
  infinity : String
  notANumber : String

namespace Layout

/-- Decimal digits, padded with zeros on the left. -/
def padded (width : Nat) (n : Nat) : List Char :=
  let ds := Nat.toDigits 10 n
  List.replicate (width - ds.length) '0' ++ ds

/-- The digits of a decimal without trailing zeros, and the power of ten of the leading one. -/
def leading (d : Decimal) : List Char × Int :=
  let ds := Nat.toDigits 10 d.digits
  ((ds.reverse.dropWhile (· == '0')).reverse, d.exponent + (ds.length : Int) - 1)

def write (layout : Layout) (d : Decimal) : List Char :=
  let (ds, power) := leading d
  if layout.leastPositional ≤ power ∧ power ≤ layout.greatestPositional then
    if power < 0 then
      '0' :: '.' :: (List.replicate (-power - 1).toNat '0' ++ ds)
    else
      let whole := power.toNat + 1
      let front := ds.take whole ++ List.replicate (whole - ds.length) '0'
      match ds.drop whole with
      | [] => front ++ layout.integralTail.toList
      | rest => front ++ '.' :: rest
  else
    let mantissa :=
      match ds with
      | [] => []
      | [c] => [c]
      | c :: rest => c :: '.' :: rest
    let mark := layout.exponentMark ++ (if power < 0 then "-" else layout.exponentPlus)
    mantissa ++ mark.toList ++ padded layout.exponentWidth power.natAbs

def render (layout : Layout) : Double → String
  | .notANumber => layout.notANumber
  | .infinite negative => (if negative then "-" else "") ++ layout.infinity
  | .finite negative m e =>
    let digits :=
      if m = 0 then '0' :: layout.integralTail.toList else layout.write (Double.shortest m e)
    (if negative then "-" else "") ++ String.ofList digits

end Layout

end ChatFlow

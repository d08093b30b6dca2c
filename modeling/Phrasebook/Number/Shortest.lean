import Phrasebook.Number.Double

set_option autoImplicit false

/-!
The shortest decimal that reads back as a given double. A double stands for the interval of reals
that round to it; for one digit, two digits and so on up to seventeen, the two neighbours of the
value on that decimal grid are tried, and the first grid with a neighbour inside wins.
-/
namespace Phrasebook.Number

/-- Digits and the power of ten of the last one. -/
structure ShortDecimal where
  coefficient : Nat
  exponent : Int
  deriving DecidableEq, Repr

namespace Shortest

/-- A positive double as four times its significand at a quarter of its last bit, with the ends of
its interval in the same unit. -/
structure Interval where
  low : Nat
  value : Nat
  high : Nat
  exponent : Int
  closed : Bool

/-- The interval of reals that round to a double. It is half as wide below a power of two. -/
def interval (significand : Nat) (exponent : Int) : Interval :=
  let below := if significand = twoTo 52 ∧ Double.leastExponent < exponent then 1 else 2
  { low := 4 * significand - below
    value := 4 * significand
    high := 4 * significand + 2
    exponent := exponent - 2
    closed := significand % 2 = 0 }

/-- Multiples of the unit and of a power of ten, made comparable: factors of the two sides. -/
def factors (binary decimal : Int) : Nat × Nat :=
  let twos := twoTo binary.natAbs
  let tens := tenTo decimal.natAbs
  let left := (if 0 ≤ binary then twos else 1) * (if decimal < 0 then tens else 1)
  let right := (if binary < 0 then twos else 1) * (if 0 ≤ decimal then tens else 1)
  (left, right)

/-- Whether a multiple of a power of ten lies in the interval. -/
def Interval.contains (i : Interval) (coefficient : Nat) (exponent : Int) : Bool :=
  let (l, r) := factors i.exponent exponent
  let point := coefficient * r
  if i.closed then i.low * l ≤ point && point ≤ i.high * l
  else i.low * l < point && point < i.high * l

/-- The power of ten of the first digit of a positive quotient. -/
def firstExponent (numerator denominator : Nat) : Int :=
  let guess : Int := (digitCount numerator : Int) - digitCount denominator
  let reached :=
    if 0 ≤ guess then decide (denominator * tenTo guess.natAbs ≤ numerator)
    else decide (denominator ≤ numerator * tenTo guess.natAbs)
  if reached then guess else guess - 1

/-- The neighbour of the value on one decimal grid that lies in the interval; of two, the nearer
one, and the even one of two equally near. -/
def onGrid? (i : Interval) (exponent : Int) : Option ShortDecimal :=
  let (l, r) := factors i.exponent exponent
  let below := i.value * l / r
  let rest := i.value * l % r
  let above := below + 1
  match i.contains below exponent && below ≠ 0, i.contains above exponent with
  | true, true =>
    if 2 * rest < r ∨ (2 * rest = r ∧ below % 2 = 0) then some ⟨below, exponent⟩
    else some ⟨above, exponent⟩
  | true, false => some ⟨below, exponent⟩
  | false, true => some ⟨above, exponent⟩
  | false, false => none

/-- Grids from the given number of digits on, at most `grids` of them. -/
def search (i : Interval) (first : Int) : Nat → Nat → ShortDecimal
  | 0, _ => ⟨i.value, 0⟩
  | grids + 1, count =>
    match onGrid? i (first - count + 1) with
    | some found => found
    | none => search i first grids (count + 1)

/-- The shortest decimal that reads back as a positive double. -/
def decimal (significand : Nat) (exponent : Int) : ShortDecimal :=
  let (n, d) := Double.fraction significand exponent
  search (interval significand exponent) (firstExponent n d) 17 1

end Shortest

namespace Double

/-- A double is written in plain notation from 0.0001 up to ten to the sixteenth. -/
def finiteText (coefficient : Nat) (exponent : Int) : String :=
  let (coefficient, exponent) := Decimal.reduced coefficient exponent
  let ds := digits coefficient
  let left := exponent + ds.length
  if -4 < left ∧ left ≤ 16 then
    let plain := Decimal.placePoint ds left
    if (ds.length : Int) ≤ left then plain ++ ".0" else plain
  else
    let power := left - 1
    let ps := digits power.natAbs
    Decimal.placePoint ds 1 ++ "e" ++ (if power < 0 then "-" else "+") ++
      String.ofList (if ps.length < 2 then '0' :: ps else ps)

/-- The text of a double: the fewest digits that read back. -/
def text : Double → String
  | nan => "nan"
  | infinity negative => Decimal.signText negative ++ "inf"
  | finite negative significand exponent =>
    Decimal.signText negative ++
      (if significand = 0 then "0.0"
       else
         let short := Shortest.decimal significand exponent
         finiteText short.coefficient short.exponent)

/-- The same digits as a decimal number. -/
def toDecimal : Double → Decimal
  | nan => .nan false false 0
  | infinity negative => .infinity negative
  | finite negative significand exponent =>
    let written := finite negative significand exponent
    (Decimal.read? written.text.toList).getD (.nan false false 0)

end Double

end Phrasebook.Number

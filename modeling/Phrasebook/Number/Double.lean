import Phrasebook.Number.Arithmetic

set_option autoImplicit false

/-!
Numbers in the binary format of 64 bits, as exact values: a significand below 2^53 times a power
of two. A quotient is rounded once, to the nearest such number, a half to the even significand.
-/
namespace Phrasebook.Number

inductive Double where
  | finite (negative : Bool) (significand : Nat) (exponent : Int)
  | infinity (negative : Bool)
  | nan
  deriving DecidableEq, Repr, Inhabited

namespace Double

/-- Least exponent of the last bit. -/
def leastExponent : Int := -1074

/-- Greatest exponent of the last bit. -/
def greatestExponent : Int := 971

/-- The quotient `numerator / denominator * 2 ^ (-exponent)` as a fraction. -/
def scaled (numerator denominator : Nat) (exponent : Int) : Nat × Nat :=
  if exponent < 0 then (numerator * twoTo exponent.natAbs, denominator)
  else (numerator, denominator * twoTo exponent.natAbs)

/-- The exponent at which the whole part of a quotient has fifty-three bits. -/
def normalExponent (numerator denominator : Nat) : Int :=
  let guess : Int := (Nat.log2 numerator : Int) - Nat.log2 denominator - 52
  let (n, d) := scaled numerator denominator guess
  if n / d < twoTo 52 then guess - 1 else guess

/-- The nearest double to a quotient of natural numbers. -/
def ofQuotient (negative : Bool) (numerator denominator : Nat) : Double :=
  if numerator = 0 then finite negative 0 leastExponent
  else
    let exponent := max leastExponent (normalExponent numerator denominator)
    let (n, d) := scaled numerator denominator exponent
    let significand := divideNearest n d
    let (significand, exponent) :=
      if significand = twoTo 53 then (twoTo 52, exponent + 1) else (significand, exponent)
    if greatestExponent < exponent then infinity negative
    else finite negative significand exponent

/-- The magnitude of a finite double as a fraction. -/
def fraction (significand : Nat) (exponent : Int) : Nat × Nat :=
  if exponent < 0 then (significand, twoTo exponent.natAbs)
  else (significand * twoTo exponent.natAbs, 1)

def ofNat (n : Nat) : Double := ofQuotient false n 1

/-- The nearest double to a coefficient times a power of ten. -/
def ofDecimal (negative : Bool) (coefficient : Nat) (exponent : Int) : Double :=
  if coefficient = 0 then finite negative 0 leastExponent
  else
    let top := exponent + digitCount coefficient
    if 400 < top then infinity negative
    else if top < -400 then finite negative 0 leastExponent
    else if exponent < 0 then ofQuotient negative coefficient (tenTo exponent.natAbs)
    else ofQuotient negative (coefficient * tenTo exponent.natAbs) 1

/-- The whole number that a finite double is, if it is one, without its sign. -/
def whole? (significand : Nat) (exponent : Int) : Option Nat :=
  let (n, d) := fraction significand exponent
  if n % d = 0 then some (n / d) else none

/-- The difference between a double and a whole number, which is made a double first. -/
def subtract (value : Double) (amount : Nat) : Except Fault Double :=
  match value, ofNat amount with
  | _, infinity _ => .error .unbounded
  | nan, _ => .ok nan
  | _, nan => .ok nan
  | infinity negative, _ => .ok (infinity negative)
  | finite negative m e, finite _ m' e' =>
    let (n, d) := fraction m e
    let (n', d') := fraction m' e'
    let total : Int := Decimal.signed negative (n * d') - (n' * d : Nat)
    let isNegative := decide (total < 0) || (decide (total = 0) && negative && decide (m' ≠ 0) && decide (m = 0))
    .ok (ofQuotient isNegative total.natAbs (d * d'))

end Double

end Phrasebook.Number

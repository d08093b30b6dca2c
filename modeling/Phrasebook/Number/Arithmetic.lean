import Phrasebook.Number.Decimal

set_option autoImplicit false

/-!
Arithmetic on decimal numbers to twenty-eight digits: rounding of a result to the working
precision, absolute value, difference and remainder.
-/
namespace Phrasebook.Number

/-- Why a computation has no result. -/
inductive Fault where
  /-- The operation has no meaning for its operands. -/
  | invalidOperation
  /-- The result is beyond the largest power of ten. -/
  | tooLarge
  /-- A whole number was asked of a value that is not a number. -/
  | notANumber
  /-- A whole or finite number was asked of an unbounded value. -/
  | unbounded
  /-- A whole number has too many digits to be written. -/
  | tooManyDigits
  deriving DecidableEq, Repr

namespace Decimal

/-- Digits kept by arithmetic. -/
def precision : Nat := 28

/-- Largest power of ten of the first digit of a result. -/
def resultLimit : Int := 999999

/-- Least power of ten of the last digit of a result. -/
def resultFloor : Int := -1000026

/-- Zero keeps its exponent within the limits of results. -/
def boundZero (negative : Bool) (exponent : Int) : Decimal :=
  finite negative 0 (max resultFloor (min exponent resultLimit))

/-- A coefficient that grew by rounding up loses its last zero, to stay within the precision. -/
def trimCarry (coefficient : Nat) (exponent : Int) : Nat × Int :=
  if precision < digitCount coefficient then (coefficient / 10, exponent + 1)
  else (coefficient, exponent)

/-- Rounds a result to the working precision, a half to the even neighbour. -/
def rounded (negative : Bool) (coefficient : Nat) (exponent : Int) : Except Fault Decimal :=
  if coefficient = 0 then .ok (boundZero negative exponent)
  else
    let count : Int := digitCount coefficient
    let wanted := count + exponent - precision
    let last := max wanted resultFloor
    if resultLimit < exponent + count - 1 then .error .tooLarge
    else if last ≤ exponent then .ok (finite negative coefficient exponent)
    else
      let cut := (last - exponent).toNat
      let shortened :=
        if count < cut then 0 else divideNearest coefficient (tenTo cut)
      let (c, e) := trimCarry shortened last
      if c = 0 then .ok (boundZero negative e)
      else if resultLimit < e + digitCount c - 1 then .error .tooLarge
      else .ok (finite negative c e)

/-- The absolute value, rounded. -/
def abs : Decimal → Except Fault Decimal
  | finite _ coefficient exponent => rounded false coefficient exponent
  | infinity _ => .ok (infinity false)
  | nan negative signaling payload =>
    if signaling then .error .invalidOperation else .ok (nan negative false payload)

/-- Replaces an operand far below the precision of the other by one last digit far below it. -/
def clipSmall (small big : Nat × Int) : Nat × Int :=
  let floor := big.2 + min (-1) ((digitCount big.1 : Int) - precision - 2)
  if (digitCount small.1 : Int) + small.2 - 1 < floor then (1, floor) else small

/-- The coefficients of two values at one common exponent, which is the lower of theirs. -/
def aligned (a b : Nat × Int) : Nat × Nat × Int :=
  if a.2 < b.2 then
    let a := clipSmall a b
    (a.1, b.1 * tenTo (b.2 - a.2).toNat, a.2)
  else if b.2 < a.2 then
    let b := clipSmall b a
    (a.1 * tenTo (a.2 - b.2).toNat, b.1, b.2)
  else (a.1, b.1, a.2)

def signed (negative : Bool) (n : Nat) : Int := if negative then - (n : Int) else n

/-- The difference between a value and a whole number. -/
def subtract (value : Decimal) (amount : Nat) : Except Fault Decimal :=
  match value with
  | infinity negative => .ok (infinity negative)
  | nan negative signaling payload =>
    if signaling then .error .invalidOperation else .ok (nan negative false payload)
  | finite negative coefficient exponent =>
    if coefficient = 0 ∧ amount = 0 then
      .ok (boundZero negative (min exponent 0))
    else if coefficient = 0 then
      let e := max (min exponent 0) (-(precision : Int) - 1)
      rounded true (amount * tenTo (-e).toNat) e
    else if amount = 0 then
      let e := max (min exponent 0) (exponent - precision - 1)
      rounded negative (coefficient * tenTo (exponent - e).toNat) e
    else
      let (a, b, e) := aligned (coefficient, exponent) (amount, 0)
      let total := signed negative a - b
      rounded (decide (total < 0)) total.natAbs e

/-- The power of ten of the first digit. -/
def firstExponent (coefficient : Nat) (exponent : Int) : Int :=
  exponent + digitCount coefficient - 1

/-- A coefficient moved to a lower or equal exponent. -/
def rescaled (coefficient : Nat) (exponent target : Int) : Nat :=
  coefficient * tenTo (exponent - target).toNat

/-- The remainder of a value that is not negative, by a positive whole number. Fails when the
quotient has more digits than the precision. -/
def remainder (value : Decimal) (modulus : Nat) : Except Fault Decimal :=
  match value with
  | nan negative signaling payload =>
    if signaling then .error .invalidOperation else .ok (nan negative false payload)
  | infinity _ => .error .invalidOperation
  | finite negative coefficient exponent =>
    let ideal := min exponent 0
    let gap := firstExponent coefficient exponent - (digitCount modulus - 1 : Int)
    if coefficient = 0 then rounded negative 0 ideal
    else if gap ≤ -2 then rounded negative coefficient exponent
    else if precision < gap then .error .invalidOperation
    else
      let a := rescaled coefficient exponent ideal
      let b := rescaled modulus 0 ideal
      if a / b < tenTo precision then rounded negative (a % b) ideal
      else .error .invalidOperation

end Decimal

end Phrasebook.Number

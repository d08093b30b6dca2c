import Phrasebook.Number.Basic

set_option autoImplicit false

/-!
The operands of plural rules: a number without its sign, its whole part, and its visible fraction
digits with and without trailing zeros.
-/
namespace Phrasebook.Plural

open Number (Fault Decimal Double)

/-- A number without sign, whole or with a written fraction. -/
inductive Magnitude where
  | whole (n : Nat)
  | written (d : Decimal)
  deriving DecidableEq, Repr

/-- `n`, `i`, `v`, `w`, `f` and `t` of the plural rules. -/
structure Operands where
  absolute : Magnitude
  integer : Nat
  visibleCount : Nat
  trimmedCount : Nat
  visible : Nat
  trimmed : Nat

namespace Operands

def ofWhole (n : Nat) : Operands :=
  { absolute := .whole n, integer := n, visibleCount := 0, trimmedCount := 0, visible := 0, trimmed := 0 }

/-- The last digits of a coefficient, as many as the exponent makes a fraction of; digits that are
only implied by the exponent do not count. -/
def fractionDigits (coefficient : Nat) (exponent : Int) : List Char :=
  if exponent < 0 then
    let ds := Number.digits coefficient
    ds.drop (ds.length - exponent.natAbs)
  else []

def dropTrailingZeros (ds : List Char) : List Char := (ds.reverse.dropWhile (· = '0')).reverse

/-- The whole part of a decimal number. -/
def wholePart (coefficient : Nat) (exponent : Int) : Nat :=
  if 0 ≤ exponent then coefficient * Number.tenTo exponent.natAbs
  else if Number.digitCount coefficient < exponent.natAbs then 0
  else coefficient / Number.tenTo exponent.natAbs

def ofDecimal : Decimal → Except Fault Operands
  | .nan _ _ _ => .error .notANumber
  | .infinity _ => .error .unbounded
  | .finite negative coefficient exponent =>
    let ds := fractionDigits coefficient exponent
    let short := dropTrailingZeros ds
    .ok
      { absolute := .written (.finite negative coefficient exponent)
        integer := wholePart coefficient exponent
        visibleCount := ds.length
        trimmedCount := short.length
        visible := Number.ofDigits ds
        trimmed := Number.ofDigits short }

/-- The operands of a number. A double that is whole counts as a whole number, another one as the
decimal that it is written as. -/
def ofNumber : Number → Except Fault Operands
  | .int i => .ok (ofWhole i.natAbs)
  | .double .nan => .error .notANumber
  | .double (.infinity _) => .error .unbounded
  | .double (.finite _ significand exponent) =>
    match Double.whole? significand exponent with
    | some n => .ok (ofWhole n)
    | none => ofDecimal (Double.finite false significand exponent).toDecimal
  | .decimal d => do ofDecimal (← d.abs)

end Operands

end Phrasebook.Plural

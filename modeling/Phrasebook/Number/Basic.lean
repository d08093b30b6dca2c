import Phrasebook.Number.Shortest

set_option autoImplicit false

/-!
The numbers that a message can be given: whole numbers, doubles and decimals.
-/
namespace Phrasebook

inductive Number where
  | int (value : Int)
  | double (value : Number.Double)
  | decimal (value : Number.Decimal)
  deriving DecidableEq, Repr, Inhabited

namespace Number

def text : Number → String
  | int i => intText i
  | double d => d.text
  | decimal d => d.text

/-- The decimal number with the same text. -/
def toDecimal : Number → Decimal
  | int i => .ofInt i
  | double d => d.toDecimal
  | decimal d => d

/-- The text in which a message shows a number: a double that is whole has no point. -/
def plainText : Number → String
  | double (.finite negative m e) =>
    match Double.whole? m e with
    | some n => intText (Decimal.signed negative n)
    | none => (Double.finite negative m e).text
  | n => n.text

/-- A whole number is written only up to a limit of digits. -/
def isWritable : Number → Bool
  | int i => digitCount i.natAbs ≤ digitLimit
  | _ => true

/-- The text of a number, if it can be written. -/
def written (n : Number) : Except Fault String :=
  if n.isWritable then .ok n.text else .error .tooManyDigits

/-- The text in which a message shows a number, if it can be written. -/
def plainWritten (n : Number) : Except Fault String :=
  if n.isWritable then .ok n.plainText else .error .tooManyDigits

/-- The difference between a number and a whole number, in the number's own arithmetic. -/
def subtract (n : Number) (amount : Nat) : Except Fault Number :=
  match n with
  | int i => .ok (int (i - amount))
  | double d => (d.subtract amount).map double
  | decimal d => (d.subtract amount).map decimal

def isZero : Number → Bool
  | int i => i = 0
  | double (.finite _ m _) => m = 0
  | double _ => false
  | decimal d => d.isZero

end Number

end Phrasebook

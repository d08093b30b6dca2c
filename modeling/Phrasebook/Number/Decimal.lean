import Phrasebook.Number.Digits

set_option autoImplicit false

/-!
Decimal numbers with their written precision kept: a sign, a coefficient and a power of ten, or
one of the special values. Reading accepts any spelling; writing uses an exponent only where
plain notation would need zeros that the number does not have.
-/
namespace Phrasebook.Number

inductive Decimal where
  | finite (negative : Bool) (coefficient : Nat) (exponent : Int)
  | infinity (negative : Bool)
  | nan (negative : Bool) (signaling : Bool) (payload : Nat)
  deriving DecidableEq, Repr, Inhabited

namespace Decimal

def ofInt (i : Int) : Decimal := finite (decide (i < 0)) i.natAbs 0

/-! ### Reading -/

/-- Largest exponent of the first digit that a written number can have. -/
def largestExponent : Int := 999999999999999999

/-- Least exponent of the last digit that a written number can have. -/
def leastExponent : Int := -1999999999999999997

/-- The ASCII form of a digit or a blank of any script; none for any other character. -/
def plainChar? (c : Char) : Option Char :=
  if c.toNat = 0 then none
  else if c.toNat < 0x80 then some c
  else if Text.isBlank c then some ' '
  else (Text.decimalValue? c).map Nat.digitChar

/-- The text with surrounding blanks and all underscores removed and every digit and blank in its
ASCII form; none if another character stands in it. -/
def plainText? (text : List Char) : Option (List Char) :=
  let core := ((text.dropWhile Text.isBlank).reverse.dropWhile Text.isBlank).reverse
  (core.filter (· ≠ '_')).mapM plainChar?

/-- A sign, if one is there, and what follows it. -/
def splitSign : List Char → Bool × List Char
  | '-' :: rest => (true, rest)
  | '+' :: rest => (false, rest)
  | rest => (false, rest)

def dropLetters (word : List Char) (text : List Char) : Option (List Char) :=
  match word, text with
  | [], rest => some rest
  | _ :: _, [] => none
  | w :: ws, c :: cs => if w = c.toLower then dropLetters ws cs else none

def isPlainDigit (c : Char) : Bool := c.isDigit

/-- The exponent part after the mark: a sign at most and one digit at least. -/
def readExponent? (text : List Char) : Option Int :=
  let (negative, rest) := splitSign text
  if rest ≠ [] ∧ rest.all isPlainDigit then
    some (if negative then - (ofDigits rest : Int) else ofDigits rest)
  else none

/-- The power of ten after the digits; one that is not written is zero. -/
def readScale? : List Char → Option Int
  | [] => some 0
  | mark :: rest => if mark.toLower = 'e' then readExponent? rest else none

/-- The digits after a point, if one is there, and what follows them. -/
def readFraction : List Char → List Char × List Char
  | '.' :: rest => (rest.takeWhile isPlainDigit, rest.dropWhile isPlainDigit)
  | rest => ([], rest)

/-- A number that can be written; none if its exponents are beyond the limits. -/
def limited? (negative : Bool) (coefficient : Nat) (exponent : Int) : Option Decimal :=
  let top := exponent + digitCount coefficient - 1
  if leastExponent ≤ exponent ∧ top ≤ largestExponent then
    some (finite negative coefficient exponent)
  else none

/-- A plain number: digits with at most one point, and an exponent at most. -/
def readFinite? (negative : Bool) (text : List Char) : Option Decimal :=
  let whole := text.takeWhile isPlainDigit
  let (fraction, tail) := readFraction (text.dropWhile isPlainDigit)
  if whole ++ fraction = [] then none
  else do
    let scale ← readScale? tail
    limited? negative (ofDigits (whole ++ fraction)) (scale - fraction.length)

/-- An infinity or a value that is not a number. -/
def readSpecial? (negative : Bool) (text : List Char) : Option Decimal :=
  match dropLetters "infinity".toList text, dropLetters "inf".toList text with
  | some [], _ => some (infinity negative)
  | _, some [] => some (infinity negative)
  | _, _ =>
    match dropLetters "nan".toList text, dropLetters "snan".toList text with
    | some payload, _ => if payload.all isPlainDigit then some (nan negative false (ofDigits payload)) else none
    | _, some payload => if payload.all isPlainDigit then some (nan negative true (ofDigits payload)) else none
    | _, _ => none

/-- The number that a text writes, in any of its spellings. -/
def read? (text : List Char) : Option Decimal := do
  let plain ← plainText? text
  let (negative, rest) := splitSign plain
  (readSpecial? negative rest).or (readFinite? negative rest)

/-! ### Writing -/

def signText (negative : Bool) : String := if negative then "-" else ""

/-- A power of ten after the mark, with its sign. -/
def exponentText (mark : String) (exponent : Int) : String :=
  mark ++ (if exponent < 0 then "-" else "+") ++ String.ofList (digits exponent.natAbs)

/-- Digits with a point after the first `place` of them, and zeros where there are too few. -/
def placePoint (ds : List Char) (place : Int) : String :=
  if place ≤ 0 then
    "0." ++ String.ofList (List.replicate place.natAbs '0' ++ ds)
  else if place.toNat < ds.length then
    String.ofList (ds.take place.toNat) ++ "." ++ String.ofList (ds.drop place.toNat)
  else String.ofList (ds ++ List.replicate (place.toNat - ds.length) '0')

/-- Plain notation is used while the exponent is not positive and at most five zeros follow the
point. -/
def text : Decimal → String
  | finite negative coefficient exponent =>
    let ds := digits coefficient
    let left := exponent + ds.length
    let body :=
      if exponent ≤ 0 ∧ -6 < left then placePoint ds left
      else placePoint ds 1 ++ (if left = 1 then "" else exponentText "E" (left - 1))
    signText negative ++ body
  | infinity negative => signText negative ++ "Infinity"
  | nan negative signaling payload =>
    signText negative ++ (if signaling then "sNaN" else "NaN") ++
      (if payload = 0 then "" else String.ofList (digits payload))

/-! ### Comparing -/

/-- The value without trailing zeros in its coefficient; all zeros are one. -/
def stripZeros : Nat → Nat → Int → Nat × Int
  | 0, coefficient, exponent => (coefficient, exponent)
  | fuel + 1, coefficient, exponent =>
    if coefficient = 0 then (0, 0)
    else if coefficient % 10 = 0 then stripZeros fuel (coefficient / 10) (exponent + 1)
    else (coefficient, exponent)

/-- The shortest coefficient of a value with the power of ten that goes with it. -/
def reduced (coefficient : Nat) (exponent : Int) : Nat × Int :=
  stripZeros (digitCount coefficient) coefficient exponent

def isSignaling : Decimal → Bool
  | nan _ signaling _ => signaling
  | _ => false

/-- Equality of the numbers, whatever their spelling. -/
def sameNumber : Decimal → Decimal → Bool
  | finite s c e, finite s' c' e' =>
    (c = 0 && c' = 0) || (s = s' && reduced c e = reduced c' e')
  | infinity s, infinity s' => s = s'
  | _, _ => false

def isZero : Decimal → Bool
  | finite _ c _ => c = 0
  | _ => false

end Decimal

end Phrasebook.Number

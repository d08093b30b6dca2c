import Phrasebook.Number.Basic

set_option autoImplicit false

/-!
Reading a double from its text. Blanks may surround it, underscores may stand between digits, and
digits of any script count.
-/
namespace Phrasebook.Number

namespace Double

/-- Removes underscores; none if one does not stand between two digits. -/
def dropUnderscores (previous : Option Char) : List Char → Option (List Char)
  | [] => some []
  | '_' :: rest =>
    match previous, rest with
    | some p, next :: _ =>
      if p.isDigit ∧ next.isDigit then dropUnderscores (some '_') rest else none
    | _, _ => none
  | c :: rest => (dropUnderscores (some c) rest).map (c :: ·)

/-- A text without surrounding blanks, its digits and blanks in their ASCII form. -/
def asciiForm (text : List Char) : List Char :=
  let plain := text.map fun c =>
    if c.toNat < 0x80 then c
    else if Text.isBlank c then ' '
    else match Text.decimalValue? c with
      | some value => Nat.digitChar value
      | none => '?'
  ((plain.dropWhile Text.isBlank).reverse.dropWhile Text.isBlank).reverse

/-- The double nearest to the number that a text writes. -/
def read? (text : List Char) : Option Double := do
  let plain ← dropUnderscores none (asciiForm text)
  let (negative, rest) := Decimal.splitSign plain
  if rest.any Char.isWhitespace ∨ rest.contains '_' then none
  else match Decimal.readSpecial? negative rest with
    | some (.infinity sign) => some (infinity sign)
    | some (.nan _ false 0) => if rest.length = 3 then some nan else none
    | some _ => none
    | none => readPlain? negative rest
where
  /-- Digits with at most one point and an exponent at most, however large. -/
  readPlain? (negative : Bool) (text : List Char) : Option Double := do
    let whole := text.takeWhile Char.isDigit
    let (fraction, tail) := match text.dropWhile Char.isDigit with
      | '.' :: rest => (rest.takeWhile Char.isDigit, rest.dropWhile Char.isDigit)
      | rest => ([], rest)
    if whole ++ fraction = [] then none
    let scale ← match tail with
      | [] => some (0 : Int)
      | mark :: rest => if mark.toLower = 'e' then Decimal.readExponent? rest else none
    some (ofDecimal negative (ofDigits (whole ++ fraction)) (scale - fraction.length))

end Double

/-- The sign and the digits of a whole number: blanks around it, a sign at most, and underscores
between digits. -/
def readInt? (text : List Char) : Option Int := do
  let plain ← Double.dropUnderscores none (Double.asciiForm text)
  let (negative, rest) := Decimal.splitSign plain
  if rest ≠ [] ∧ rest.all Char.isDigit ∧ rest.length ≤ digitLimit then
    some (Decimal.signed negative (ofDigits rest))
  else none

end Phrasebook.Number

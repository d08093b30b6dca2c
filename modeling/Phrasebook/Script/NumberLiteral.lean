import Phrasebook.Number.Read

set_option autoImplicit false

/-!
The value of a number literal: a whole number for digits alone and for digits in base two, eight or
sixteen, else a double.
-/
namespace Phrasebook.Script

/-- The value of a digit in bases up to sixteen. -/
def digitIn? (base : Nat) (c : Char) : Option Nat :=
  match Text.hexValue? c with
  | some value => if value < base then some value else none
  | none => none

/-- The number that digits of a base write; there is one at least. -/
def basedNumber? (base : Nat) (digits : List Char) : Option Nat :=
  if digits = [] then none
  else digits.foldlM (fun value c => (digitIn? base c).map (base * value + ·)) 0

/-- The base that the two first characters of a literal name. -/
def baseOf? : List Char → Option Nat
  | '0' :: mark :: _ =>
    match mark.toLower with
    | 'x' => some 16
    | 'o' => some 8
    | 'b' => some 2
    | _ => none
  | _ => none

/-- The value of a number literal, if its text is one. Underscores and the mark of big integers
do not count. -/
def numberValue (raw : String) : Option Number :=
  let plain := raw.toList.filter (· ≠ '_')
  let text := (plain.reverse.dropWhile (· = 'n')).reverse
  match baseOf? text with
  | some base => (basedNumber? base (Number.Double.asciiForm (text.drop 2))).map fun n => .int n
  | none =>
    if text ≠ [] ∧ text.all Text.isDigit then
      if text.all (fun c => (Text.decimalValue? c).isSome) ∧ text.length ≤ Number.digitLimit then
        some (.int (Number.ofDigits text))
      else none
    else (Number.Double.read? text).map .double

end Phrasebook.Script

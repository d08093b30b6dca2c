import Phrasebook.Text.Class

set_option autoImplicit false

/-!
Natural numbers and their decimal digits.
-/
namespace Phrasebook.Number

/-- A power of ten. -/
abbrev tenTo (n : Nat) : Nat := Nat.pow 10 n

/-- A power of two. -/
abbrev twoTo (n : Nat) : Nat := Nat.pow 2 n

/-- The decimal digits of a number, without leading zeros. -/
def digits (n : Nat) : List Char := Nat.toDigits 10 n

/-- How many decimal digits a number has; zero has one. -/
def digitCount (n : Nat) : Nat := (digits n).length

/-- The number that a run of decimal digits of any script writes. -/
def ofDigits (chars : List Char) : Nat :=
  chars.foldl (fun value c => 10 * value + (Text.decimalValue? c).getD 0) 0

/-- Division to the nearest whole number; a half goes to the even neighbour. -/
def divideNearest (numerator denominator : Nat) : Nat :=
  let quotient := numerator / denominator
  let twice := 2 * (numerator % denominator)
  if twice < denominator then quotient
  else if denominator < twice then quotient + 1
  else if quotient % 2 = 0 then quotient
  else quotient + 1

/-- Longest text of a whole number, in digits, that is read as one or written for one. -/
def digitLimit : Nat := 4300

def intText (i : Int) : String :=
  match i with
  | .ofNat n => String.ofList (digits n)
  | .negSucc n => String.ofList ('-' :: digits (n + 1))

end Phrasebook.Number

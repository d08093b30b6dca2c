import Phrasebook.Text.Class
import Phrasebook.Text.CodePoints

set_option autoImplicit false

/-!
The quoted form in which error texts show a string: between apostrophes, or between quotation
marks when it holds apostrophes only, with an escape for each code point that cannot be shown.
-/
namespace Phrasebook.Text

def hexDigit (value : Nat) : Char := Nat.digitChar value

/-- The last `width` hexadecimal digits of a number. -/
def hexDigits : Nat → Nat → List Char
  | 0, _ => []
  | width + 1, value => hexDigits width (value / 16) ++ [hexDigit (value % 16)]

/-- The escape of a code point by its number, of the least width that fits. -/
def numberEscape (code : Nat) : List Char :=
  if code < 0x100 then '\\' :: 'x' :: hexDigits 2 code
  else if code < 0x10000 then '\\' :: 'u' :: hexDigits 4 code
  else '\\' :: 'U' :: hexDigits 8 code

/-- One code point inside quotes of the given kind. -/
def quotedPoint (mark : Char) (code : Nat) : List Char :=
  if code = mark.toNat then ['\\', mark]
  else if code = 0x5C then ['\\', '\\']
  else if code = 0x9 then ['\\', 't']
  else if code = 0xA then ['\\', 'n']
  else if code = 0xD then ['\\', 'r']
  else if isPrintableCode code then [Char.ofNat code]
  else numberEscape code

/-- The mark that encloses a text: quotation marks only for a text with apostrophes and without
quotation marks. -/
def quoteMark (text : CodePoints) : Char :=
  if text.contains 0x27 && !text.contains 0x22 then '"' else '\''

def quotedPoints (text : CodePoints) : String :=
  let mark := quoteMark text
  String.ofList (mark :: text.flatMap (quotedPoint mark) ++ [mark])

/-- The quoted form of a text. -/
def quoted (text : String) : String := quotedPoints (CodePoints.ofString text)

/-- A list of texts in brackets, each quoted. -/
def quotedList (texts : List String) : String :=
  "[" ++ String.intercalate ", " (texts.map quoted) ++ "]"

end Phrasebook.Text

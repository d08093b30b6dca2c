import Phrasebook.Text.PrintableTable
import Phrasebook.Text.WordTable

set_option autoImplicit false

/-!
Classes of characters: blanks, digits, characters that words are made of, and characters that are
shown as they are. Each is the class of the Unicode standard, not its ASCII part.
-/
namespace Phrasebook.Text

/-- Membership in a table of inclusive ranges. -/
def within (ranges : List (Nat × Nat)) (code : Nat) : Bool :=
  ranges.any fun range => range.1 ≤ code && code ≤ range.2

/-- Inclusive ranges of the blanks. -/
def blankRanges : List (Nat × Nat) := [
    (0x9, 0xD), (0x1C, 0x20), (0x85, 0x85), (0xA0, 0xA0), (0x1680, 0x1680), (0x2000, 0x200A),
    (0x2028, 0x2029), (0x202F, 0x202F), (0x205F, 0x205F), (0x3000, 0x3000)]

/-- Blanks separate words: spaces of any width, line ends and the separators U+001C to U+001F. -/
def isBlankCode (code : Nat) : Bool := within blankRanges code

def isBlank (c : Char) : Bool := isBlankCode c.toNat

/-- The blanks of the ASCII range that part fields in bytes. -/
def isAsciiBlank (c : Char) : Bool :=
  c = ' ' || c = '\t' || c = '\n' || c = '\x0b' || c = '\x0c' || c = '\r'

/-- The zero of each run of ten decimal digits. -/
def decimalZeros : List Nat := [
    0x30, 0x660, 0x6F0, 0x7C0, 0x966, 0x9E6, 0xA66, 0xAE6, 0xB66, 0xBE6, 0xC66, 0xCE6, 0xD66,
    0xDE6, 0xE50, 0xED0, 0xF20, 0x1040, 0x1090, 0x17E0, 0x1810, 0x1946, 0x19D0, 0x1A80, 0x1A90,
    0x1B50, 0x1BB0, 0x1C40, 0x1C50, 0xA620, 0xA8D0, 0xA900, 0xA9D0, 0xA9F0, 0xAA50, 0xABF0,
    0xFF10, 0x104A0, 0x10D30, 0x11066, 0x110F0, 0x11136, 0x111D0, 0x112F0, 0x11450, 0x114D0,
    0x11650, 0x116C0, 0x11730, 0x118E0, 0x11950, 0x11C50, 0x11D50, 0x11DA0, 0x16A60, 0x16AC0,
    0x16B50, 0x1D7CE, 0x1D7D8, 0x1D7E2, 0x1D7EC, 0x1D7F6, 0x1E140, 0x1E2F0, 0x1E950, 0x1FBF0]

/-- The value of a decimal digit of any script. -/
def decimalValue? (c : Char) : Option Nat :=
  (decimalZeros.find? fun first => first ≤ c.toNat && c.toNat ≤ first + 9).map (c.toNat - ·)

/-- Inclusive ranges of the digits that form no decimal numbers, such as superscripts. -/
def isolatedDigitRanges : List (Nat × Nat) := [
    (0xB2, 0xB3), (0xB9, 0xB9), (0x1369, 0x1371), (0x19DA, 0x19DA), (0x2070, 0x2070),
    (0x2074, 0x2079), (0x2080, 0x2089), (0x2460, 0x2468), (0x2474, 0x247C), (0x2488, 0x2490),
    (0x24EA, 0x24EA), (0x24F5, 0x24FD), (0x24FF, 0x24FF), (0x2776, 0x277E), (0x2780, 0x2788),
    (0x278A, 0x2792), (0x10A40, 0x10A43), (0x10E60, 0x10E68), (0x11052, 0x1105A),
    (0x1F100, 0x1F10A)]

/-- A digit in the wide sense: decimal, or one that stands alone such as a superscript. -/
def isDigit (c : Char) : Bool :=
  (decimalValue? c).isSome || within isolatedDigitRanges c.toNat

/-- A letter, a number or the underscore. -/
def isWord (c : Char) : Bool :=
  if c.toNat < 0x80 then c.isAlphanum || c = '_' else within wordRanges c.toNat

/-- A code point that is shown as it is, rather than by its number. -/
def isPrintableCode (code : Nat) : Bool :=
  if code < 0x7F then 0x20 ≤ code else !within unprintableRanges code

def isAsciiLetter (c : Char) : Bool := c.isAlpha

def hexValue? (c : Char) : Option Nat :=
  if '0' ≤ c ∧ c ≤ '9' then some (c.toNat - 0x30)
  else if 'a' ≤ c ∧ c ≤ 'f' then some (c.toNat - 0x61 + 10)
  else if 'A' ≤ c ∧ c ≤ 'F' then some (c.toNat - 0x41 + 10)
  else none

/-- The number that a run of hexadecimal digits writes. -/
def hexNumber (digits : List Char) : Nat :=
  digits.foldl (fun value c => 16 * value + (hexValue? c).getD 0) 0

end Phrasebook.Text

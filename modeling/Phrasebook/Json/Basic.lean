import Phrasebook.Dictionary
import Phrasebook.Number.Double
import Phrasebook.Number.Shortest
import Phrasebook.Text.CodePoints
import Phrasebook.Text.Quoted

set_option autoImplicit false

/-!
JSON values. Numbers keep the distinction between whole numbers and doubles, objects the order of
their keys, and strings may hold surrogates that stand alone. Their text has one entry or item a line,
each level two spaces further in. Characters are written as they are; quotation marks, backslashes
and controls are escaped.
-/
namespace Phrasebook

open Text (CodePoints)

inductive Json where
  | null
  | bool (value : Bool)
  | int (value : Int)
  | double (value : Number.Double)
  | string (text : CodePoints)
  | array (items : List Json)
  | object (entries : List (CodePoints × Json))
  deriving Repr, Inhabited

namespace Json

def ofString (text : String) : Json := string (CodePoints.ofString text)

def ofNat (n : Nat) : Json := int n

/-- An object with the given entries. -/
def ofEntries (entries : List (String × Json)) : Json :=
  object (entries.map fun entry => (CodePoints.ofString entry.1, entry.2))

/-- The value of a key of an object. -/
def field? (key : String) : Json → Option Json
  | object entries => Dictionary.get? (CodePoints.ofString key) entries
  | _ => none

end Json

end Phrasebook

namespace Phrasebook.Json

/-! ### Writing -/

open Text (CodePoints)

/-- One code point inside a string. -/
def writtenPoint (code : Nat) : CodePoints :=
  let escaped (c : Char) : CodePoints := [0x5C, c.toNat]
  if code = 0x22 then escaped '"'
  else if code = 0x5C then escaped '\\'
  else if code = 0xA then escaped 'n'
  else if code = 0xD then escaped 'r'
  else if code = 0x9 then escaped 't'
  else if code = 0xC then escaped 'f'
  else if code = 0x8 then escaped 'b'
  else if code < 0x20 then escaped 'u' ++ CodePoints.ofChars (Text.hexDigits 4 code)
  else [code]

def writtenString (text : CodePoints) : CodePoints := 0x22 :: text.flatMap writtenPoint ++ [0x22]

/-- A line end and the indent of a level. -/
def newLine (level : Nat) : CodePoints := 0xA :: List.replicate (2 * level) 0x20

def doubleText : Number.Double → String
  | .nan => "NaN"
  | .infinity negative => if negative then "-Infinity" else "Infinity"
  | d => d.text

mutual

/-- The text of a value at a level. -/
def written (level : Nat) : Json → CodePoints
  | null => CodePoints.ofString "null"
  | bool b => CodePoints.ofString (if b then "true" else "false")
  | int i => CodePoints.ofString (Number.intText i)
  | double d => CodePoints.ofString (doubleText d)
  | string text => writtenString text
  | array [] => CodePoints.ofString "[]"
  | array (item :: items) =>
    0x5B :: newLine (level + 1) ++ written (level + 1) item ++ writtenItems (level + 1) items ++
      newLine level ++ [0x5D]
  | object [] => [0x7B, 0x7D]
  | object ((key, value) :: entries) =>
    0x7B :: newLine (level + 1) ++ writtenString key ++ [0x3A, 0x20] ++ written (level + 1) value ++
      writtenEntries (level + 1) entries ++ newLine level ++ [0x7D]

/-- The items after the first. -/
def writtenItems (level : Nat) : List Json → CodePoints
  | [] => []
  | item :: items => 0x2C :: newLine level ++ written level item ++ writtenItems level items

/-- The entries after the first. -/
def writtenEntries (level : Nat) : List (CodePoints × Json) → CodePoints
  | [] => []
  | (key, value) :: entries =>
    0x2C :: newLine level ++ writtenString key ++ [0x3A, 0x20] ++ written level value ++
      writtenEntries level entries

end

/-- The text of a value. -/
def write (value : Json) : CodePoints := written 0 value

end Phrasebook.Json

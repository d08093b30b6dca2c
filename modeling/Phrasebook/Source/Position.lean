set_option autoImplicit false

/-!
Positions in a source text: lines from one, columns from zero, both counted in characters. Only
line feeds end lines. A position is found by the byte of the encoded text, which leads to a character,
and that to its line by bisection in the table of lines.
-/
namespace Phrasebook.Source

structure Position where
  line : Nat
  column : Int
  deriving DecidableEq, Repr, Inhabited

/-- The text of an error in a file: the file, if it has a name, and the position, if one is known,
stand in front. -/
def located (file : String) (position : Option Position) (text : String) : String :=
  if file.isEmpty then text
  else
    match position with
    | some p => file ++ ":" ++ toString p.line ++ ":" ++ toString p.column ++ ": " ++ text
    | none => file ++ ": " ++ text

/-- The numbers of the characters behind line feeds, where so many characters stand before the text. -/
def startsBehind (number : Nat) : List Char → List Nat
  | [] => []
  | c :: rest =>
    if c = '\n' then (number + 1) :: startsBehind (number + 1) rest
    else startsBehind (number + 1) rest

/-- The numbers of the characters with which the lines of a text start. -/
def lineStarts (text : List Char) : Array Nat := (0 :: startsBehind 0 text).toArray

/-- How many numbers of a table that grows are not greater than a number. The answer lies between two
bounds, which close in on it in so many steps at most. -/
def bisectRight (table : Array Nat) (number : Nat) : Nat → Nat → Nat → Nat
  | 0, low, _ => low
  | steps + 1, low, high =>
    if low < high then
      let middle := (low + high) / 2
      if number < table.getD middle 0 then bisectRight table number steps low middle
      else bisectRight table number steps (middle + 1) high
    else low

/-- The position of the character with a given number. Its line is the last one that starts with it or
before it. -/
def positionAt (text : List Char) (offset : Nat) : Position :=
  let starts := lineStarts text
  let line := bisectRight starts offset starts.size 0 starts.size
  ⟨line, (offset : Int) - starts.getD (line - 1) 0⟩

/-- Where positions in a fragment lie in the file. -/
abbrev Placement := Position → Position

/-- The fragment starts at a position of the file, with so many characters put before it. -/
def shifted (start : Position) (added : Nat) : Placement := fun p =>
  if p.line = 1 then ⟨start.line, start.column + p.column - added⟩
  else ⟨start.line + p.line - 1, p.column⟩

/-- The length of a text in the bytes of its encoding. -/
def byteLength : List Char → Nat
  | [] => 0
  | c :: rest => c.utf8Size + byteLength rest

/-- The character in which a byte of the encoded text lies. The end of the text counts as the
character after the last. -/
def characterOf? : List Char → Nat → Option Nat
  | [], 0 => some 0
  | [], _ + 1 => none
  | c :: rest, byte =>
    if byte < c.utf8Size then some 0 else (characterOf? rest (byte - c.utf8Size)).map (· + 1)

/-- The same, for a text in which every character is one byte any offset is its own character. -/
def characterAt? (text : List Char) (byte : Nat) : Option Nat :=
  if byteLength text = text.length then some byte else characterOf? text byte

/-- The position of the character in which a byte of the encoded text lies. -/
def positionOfByte? (text : List Char) (byte : Nat) : Option Position :=
  (characterAt? text byte).map (positionAt text)

end Phrasebook.Source

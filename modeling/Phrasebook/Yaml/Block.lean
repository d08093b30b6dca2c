import Phrasebook.Yaml.Cursor

set_option autoImplicit false

/-!
Scalars of several lines after a bar or an angle bracket. After a bar line breaks are kept, after
an angle bracket they are folded between lines that do not start with a blank.
-/
namespace Phrasebook.Yaml

/-- What becomes of the line breaks at the end. -/
inductive Ending where
  | strip
  | one
  | keep
  deriving DecidableEq, Repr

def ending? (c : Char) : Option Ending :=
  if c = '+' then some .keep else if c = '-' then some .strip else none

/-- A digit other than zero gives the indent. -/
def indentDigit? (c : Char) : Option Nat :=
  if '1' ≤ c ∧ c ≤ '9' then some (c.toNat - '0'.toNat) else none

/-- The marks after the first character: the ending and the indent, in any order. -/
def blockMarks (cursor : Cursor) : Ending × Option Nat × Cursor :=
  match cursor.rest with
  | c :: rest =>
    match ending? c, indentDigit? c with
    | some ending, _ =>
      match rest.head?.bind indentDigit? with
      | some digit => (ending, some digit, cursor.skip 2)
      | none => (ending, none, cursor.next)
    | none, some digit =>
      match rest.head?.bind ending? with
      | some ending => (ending, some digit, cursor.skip 2)
      | none => (.one, some digit, cursor.next)
    | none, none => (.one, none, cursor)
  | [] => (.one, none, cursor)

/-- Spaces and a comment up to the end of the line, and the line break. -/
def restOfLine? (cursor : Cursor) : Option Cursor :=
  let cursor := cursor.dropWhile (· = ' ')
  let cursor :=
    if cursor.rest.head? = some '#' then cursor.dropWhile fun c => !isBreak c else cursor
  if endsLine cursor.rest then
    some (match cursor.lineBreak? with
      | some (_, cursor) => cursor
      | none => cursor)
  else none

/-- Blank lines before the first line of text, the widest indent among them, and the place of the
text. -/
def leadingLines : Nat → Nat → Cursor → List Char × Nat × Cursor
  | 0, widest, cursor => ([], widest, cursor)
  | fuel + 1, widest, cursor =>
    match cursor.rest with
    | ' ' :: _ => leadingLines fuel (max widest cursor.next.column) cursor.next
    | _ =>
      match cursor.lineBreak? with
      | some (first, cursor) =>
        let (others, widest, cursor) := leadingLines fuel widest cursor
        (first :: others, widest, cursor)
      | none => ([], widest, cursor)

/-- Skips the spaces of an indent. -/
def skipIndent : Nat → Nat → Cursor → Cursor
  | 0, _, cursor => cursor
  | fuel + 1, indent, cursor =>
    if cursor.column < indent ∧ cursor.rest.head? = some ' ' then skipIndent fuel indent cursor.next
    else cursor

/-- Blank lines between lines of text, and the place at the indent of the next one. -/
def blankLines (indent : Nat) : Nat → Cursor → List Char × Cursor
  | 0, cursor => ([], cursor)
  | fuel + 1, cursor =>
    let cursor := skipIndent indent indent cursor
    match cursor.lineBreak? with
    | some (first, cursor) =>
      let (others, cursor) := blankLines indent fuel cursor
      (first :: others, cursor)
    | none => ([], cursor)

/-- The lines of a block from the place at its indent, the last line break, the blank lines at the
end, and where the block ends. `last` and `blanks` are those that came before. -/
def blockLines (isFolded : Bool) (indent : Nat) :
    Nat → List Char → List Char → Cursor → List Char × List Char × List Char × Cursor
  | 0, last, blanks, cursor => ([], last, blanks, cursor)
  | fuel + 1, last, blanks, cursor =>
    if cursor.column = indent ∧ cursor.rest ≠ [] then
      let startsBlank := cursor.rest.head?.any isSpaceOrTab
      let (line, cursor) := cursor.takeWhile fun c => !isBreak c
      let (ended, cursor) := match cursor.lineBreak? with
        | some (first, cursor) => ([first], cursor)
        | none => ([], cursor)
      let (after, cursor) := blankLines indent (cursor.rest.length + 1) cursor
      let goesOn := cursor.column = indent ∧ cursor.rest ≠ []
      let joint : List Char :=
        if ¬ goesOn then []
        else if isFolded ∧ ended = ['\n'] ∧ !startsBlank ∧ !cursor.rest.head?.any isSpaceOrTab then
          if after = [] then [' '] else after
        else ended ++ after
      let (more, last, blanks, cursor) := blockLines isFolded indent fuel ended after cursor
      (line ++ joint ++ more, last, blanks, cursor)
    else ([], last, blanks, cursor)

/-- The block scalar that comes next, inside an indent. -/
def block? (indent : Int) (cursor : Cursor) : Option (List Char × Cursor) := do
  let isFolded := cursor.rest.head? = some '>'
  let (ending, digit, cursor) := blockMarks cursor.next
  if !(endsLine cursor.rest || cursor.rest.head? = some ' ') then none
  let cursor ← restOfLine? cursor
  let least := (max (indent + 1) 1).toNat
  let size := cursor.rest.length + 1
  let (blanks, indent, cursor) := match digit with
    | some digit =>
      let indent := least + digit - 1
      let (blanks, cursor) := blankLines indent size cursor
      (blanks, indent, cursor)
    | none =>
      let (blanks, widest, cursor) := leadingLines size 0 cursor
      (blanks, max least widest, cursor)
  let (text, last, after, cursor) := blockLines isFolded indent size [] blanks cursor
  let first := if last = [] ∧ text = [] then [] else blanks
  let tail := match ending with
    | .strip => []
    | .one => last
    | .keep => last ++ after
  some (first ++ text ++ tail, cursor)

end Phrasebook.Yaml

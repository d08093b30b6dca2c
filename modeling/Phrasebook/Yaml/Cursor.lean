import Phrasebook.Text.Class

set_option autoImplicit false

/-!
A place in a text with the line and the column reached there, and the kinds of characters that
part the tokens of a settings file.
-/
namespace Phrasebook.Yaml

/-- A place in a text: what follows it, and how many characters, lines and columns lie before. -/
structure Cursor where
  rest : List Char
  index : Nat
  line : Nat
  column : Nat

def byteOrderMark : Char := '\ufeff'

def isBreak (c : Char) : Bool :=
  c = '\n' || c = '\r' || c = '\x85' || c = '\u2028' || c = '\u2029'

def isSpaceOrTab (c : Char) : Bool := c = ' ' || c = '\t'

/-- A character that may stand in the text at all. -/
def isAllowed (c : Char) : Bool :=
  c = '\t' || c = '\n' || c = '\r' || c = '\x85' || (' ' ≤ c && c ≤ '~') ||
    ('\xa0' ≤ c && c ≠ '\ufffe' && c ≠ '\uffff')

/-- The end of the text, a blank or a line break comes next. -/
def endsToken : List Char → Bool
  | [] => true
  | c :: _ => isSpaceOrTab c || isBreak c

/-- The end of the text or a line break comes next. -/
def endsLine : List Char → Bool
  | [] => true
  | c :: _ => isBreak c

namespace Cursor

def start (text : List Char) : Cursor := ⟨text, 0, 0, 0⟩

/-- The place after the next character. -/
def next (cursor : Cursor) : Cursor :=
  match cursor.rest with
  | [] => cursor
  | c :: rest =>
    if isBreak c ∧ ¬ (c = '\r' ∧ rest.head? = some '\n') then
      ⟨rest, cursor.index + 1, cursor.line + 1, 0⟩
    else if c = byteOrderMark then ⟨rest, cursor.index + 1, cursor.line, cursor.column⟩
    else ⟨rest, cursor.index + 1, cursor.line, cursor.column + 1⟩

/-- The place so many characters on. -/
def skip : Nat → Cursor → Cursor
  | 0, cursor => cursor
  | n + 1, cursor => skip n cursor.next

/-- The characters of a kind that come next, and the place after them. -/
def takeWhile (cursor : Cursor) (kind : Char → Bool) : List Char × Cursor :=
  let taken := cursor.rest.takeWhile kind
  (taken, cursor.skip taken.length)

def dropWhile (cursor : Cursor) (kind : Char → Bool) : Cursor := (cursor.takeWhile kind).2

/-- The line break that comes next, and the place after it. The usual breaks count as one. -/
def lineBreak? (cursor : Cursor) : Option (Char × Cursor) :=
  match cursor.rest with
  | '\r' :: '\n' :: _ => some ('\n', cursor.skip 2)
  | c :: _ =>
    if c = '\u2028' ∨ c = '\u2029' then some (c, cursor.next)
    else if isBreak c then some ('\n', cursor.next)
    else none
  | [] => none

/-- A mark of three characters that starts or ends a document comes next. -/
def atDocumentMark (cursor : Cursor) : Bool :=
  match cursor.rest with
  | a :: b :: c :: rest => (a = '-' || a = '.') && a = b && b = c && endsToken rest
  | _ => false

end Cursor

/-- What several line breaks after some text are read as: one is a space, and of more the first
does not count. -/
def folded (first : Char) (others : List Char) : List Char :=
  if first ≠ '\n' then first :: others else if others = [] then [' '] else others

end Phrasebook.Yaml

import Phrasebook.Yaml.Cursor

set_option autoImplicit false

/-!
Scalars between quotes. Between apostrophes only a doubled apostrophe is special; between
quotation marks a backslash starts an escape. Line breaks are folded in both.
-/
namespace Phrasebook.Yaml

/-- The character that one letter after a backslash stands for. -/
def escapeOf? (c : Char) : Option Char :=
  match c with
  | '0' => some '\x00'
  | 'a' => some '\x07'
  | 'b' => some '\x08'
  | 't' => some '\t'
  | '\t' => some '\t'
  | 'n' => some '\n'
  | 'v' => some '\x0b'
  | 'f' => some '\x0c'
  | 'r' => some '\r'
  | 'e' => some '\x1b'
  | ' ' => some ' '
  | '"' => some '"'
  | '\\' => some '\\'
  | '/' => some '/'
  | 'N' => some '\x85'
  | '_' => some '\xa0'
  | 'L' => some '\u2028'
  | 'P' => some '\u2029'
  | _ => none

/-- How many hexadecimal digits follow a letter after a backslash. -/
def escapeWidth? (c : Char) : Option Nat :=
  match c with
  | 'x' => some 2
  | 'u' => some 4
  | 'U' => some 8
  | _ => none

/-- A character by its number, if it is one. -/
def character? (code : Nat) : Option Char :=
  if code < 0xD800 ∨ (0xDFFF < code ∧ code < 0x110000) then some (Char.ofNat code) else none

/-- The line breaks that follow one inside quotes; blanks at the start of lines do not count. -/
def quotedBreaks : Nat → Cursor → Option (List Char × Cursor)
  | 0, _ => none
  | fuel + 1, cursor =>
    if cursor.atDocumentMark then none
    else
      let cursor := cursor.dropWhile isSpaceOrTab
      match cursor.lineBreak? with
      | some (first, cursor) => do
        let (others, cursor) ← quotedBreaks fuel cursor
        some (first :: others, cursor)
      | none => some ([], cursor)

/-- Blanks and line breaks inside quotes. -/
def quotedGap (fuel : Nat) (cursor : Cursor) : Option (List Char × Cursor) :=
  let (blanks, cursor) := cursor.takeWhile isSpaceOrTab
  match cursor.lineBreak? with
  | some (first, cursor) => do
    let (others, cursor) ← quotedBreaks fuel cursor
    some (folded first others, cursor)
  | none => if cursor.rest = [] then none else some (blanks, cursor)

/-- An escape after its backslash. -/
def escape (fuel : Nat) (cursor : Cursor) : Option (List Char × Cursor) :=
  match cursor.rest with
  | [] => none
  | c :: rest =>
    match escapeOf? c, escapeWidth? c with
    | some meant, _ => some ([meant], cursor.next)
    | none, some width =>
      let digits := rest.take width
      if digits.length = width ∧ digits.all (fun d => (Text.hexValue? d).isSome) then
        (character? (Text.hexNumber digits)).map fun meant => ([meant], cursor.skip (width + 1))
      else none
    | none, none => do
      let (_, cursor) ← cursor.lineBreak?
      quotedBreaks fuel cursor

/-- The rest of a quoted scalar up to its closing quote. -/
def quotedRest (mark : Char) : Nat → Cursor → Option (List Char × Cursor)
  | 0, _ => none
  | fuel + 1, cursor =>
    let goOn (text : List Char) (cursor : Cursor) : Option (List Char × Cursor) := do
      let (more, cursor) ← quotedRest mark fuel cursor
      some (text ++ more, cursor)
    match cursor.rest with
    | [] => none
    | c :: rest =>
      if isSpaceOrTab c ∨ isBreak c then do
        let (gap, cursor) ← quotedGap fuel cursor
        goOn gap cursor
      else if c = mark then
        if mark = '\'' ∧ rest.head? = some '\'' then goOn ['\''] (cursor.skip 2)
        else some ([], cursor.next)
      else if c = '\\' ∧ mark = '"' then do
        let (meant, cursor) ← escape fuel cursor.next
        goOn meant cursor
      else goOn [c] cursor.next

/-- The scalar between quotes that comes next. -/
def quoted? (cursor : Cursor) : Option (List Char × Cursor) :=
  match cursor.rest with
  | mark :: rest => quotedRest mark (rest.length + 2) cursor.next
  | [] => none

end Phrasebook.Yaml

import Phrasebook.Yaml.Cursor

set_option autoImplicit false

/-!
Scalars without quotes. They end at a comment, at a colon before a blank, inside brackets also at
a comma or a bracket, and at a line that is indented too little.
-/
namespace Phrasebook.Yaml

def isFlowMark (c : Char) : Bool := c = ',' || c = '[' || c = ']' || c = '{' || c = '}'

/-- Marks that no plain scalar starts with, unless more of it follows some of them. -/
def isIndicator (c : Char) : Bool :=
  "-?:,[]{}#&*!|>'\"%@`".toList.contains c

/-- A plain scalar may start here. -/
def startsPlain (inFlow : Bool) : List Char → Bool
  | [] => false
  | c :: rest =>
    !(isSpaceOrTab c || isBreak c || isIndicator c) ||
      (!endsToken rest && (c = '-' || (!inFlow && (c = '?' || c = ':'))))

/-- A plain scalar goes on with the next character. -/
def goesOn (inFlow : Bool) : List Char → Bool
  | [] => false
  | c :: rest =>
    !(isSpaceOrTab c || isBreak c) &&
      !(c = ':' && (endsToken rest || (inFlow && rest.head?.any isFlowMark))) &&
      !(inFlow && (isFlowMark c || c = '?'))

/-- The characters of a plain scalar up to the next blank or end. -/
def plainRun (inFlow : Bool) : List Char → List Char
  | [] => []
  | c :: rest => if goesOn inFlow (c :: rest) then c :: plainRun inFlow rest else []

/-- Line breaks and spaces after a first line break; none at the mark of a document. -/
def plainBreaks : Nat → Cursor → Option (List Char × Cursor)
  | 0, _ => none
  | fuel + 1, cursor =>
    match cursor.rest with
    | ' ' :: _ => plainBreaks fuel cursor.next
    | _ =>
      match cursor.lineBreak? with
      | some (first, cursor) =>
        if cursor.atDocumentMark then none
        else do
          let (others, cursor) ← plainBreaks fuel cursor
          some (first :: others, cursor)
      | none => some ([], cursor)

/-- What lies between two runs of a plain scalar, whether a line ended in it, and where it ends.
Nothing if the scalar ends here. -/
structure PlainGap where
  text : List Char
  endsLine : Bool
  cursor : Cursor

/-- The place of the next document mark after some line breaks. -/
def skipToMark : Nat → Cursor → Cursor
  | 0, cursor => cursor
  | fuel + 1, cursor =>
    if cursor.atDocumentMark ∧ cursor.column = 0 then cursor else skipToMark fuel cursor.next

def plainGap (cursor : Cursor) : PlainGap :=
  let (blanks, cursor) := cursor.takeWhile (· = ' ')
  match cursor.lineBreak? with
  | none => ⟨blanks, false, cursor⟩
  | some (first, cursor) =>
    if cursor.atDocumentMark then ⟨[], true, cursor⟩
    else
      match plainBreaks (cursor.rest.length + 1) cursor with
      | some (others, cursor) => ⟨folded first others, true, cursor⟩
      | none => ⟨[], true, skipToMark (cursor.rest.length + 1) cursor⟩

/-- A plain scalar: its text, whether a line ended after its last run, and where it ends. -/
structure PlainScalar where
  text : List Char
  endsLine : Bool
  cursor : Cursor

/-- The rest of a plain scalar after a gap. Lines below the indent end it outside of brackets. -/
def plainFrom (inFlow : Bool) (indent : Int) : Nat → List Char → Bool → Cursor → PlainScalar
  | 0, _, endsLine, cursor => ⟨[], endsLine, cursor⟩
  | fuel + 1, gap, endsLine, cursor =>
    let run := plainRun inFlow cursor.rest
    if cursor.rest.head? = some '#' ∨ run = [] then ⟨[], endsLine, cursor⟩
    else
      let after := plainGap (cursor.skip run.length)
      let text := gap ++ run
      if after.text = [] ∨ after.cursor.rest.head? = some '#' ∨
          (!inFlow && decide ((after.cursor.column : Int) < indent)) then
        ⟨text, after.endsLine, after.cursor⟩
      else
        let more := plainFrom inFlow indent fuel after.text after.endsLine after.cursor
        ⟨text ++ more.text, more.endsLine, more.cursor⟩

/-- The plain scalar that comes next. -/
def plain (inFlow : Bool) (indent : Int) (cursor : Cursor) : PlainScalar :=
  plainFrom inFlow indent (cursor.rest.length + 1) [] false cursor

end Phrasebook.Yaml

import Phrasebook.Script.Class

set_option autoImplicit false

/-!
Markup inside scripts: elements with attributes and children. The text in it is not kept.
-/
namespace Phrasebook.Script

/-- A character that text in markup can hold. -/
def isMarkupText (c : Char) : Bool := !"<>{}&".toList.contains c

/-- Passes a character given by a name or a number. -/
def characterReference? (text : List Char) : Option (List Char) :=
  let closed (digits : List Char → Nat) (most : Nat) (body : List Char) : Option (List Char) :=
    let count := digits body
    if 0 < count ∧ count ≤ most then Text.dropStart [';'] (body.drop count) else none
  let run (test : Char → Bool) (body : List Char) : Nat := (body.takeWhile test).length
  match text with
  | '&' :: '#' :: mark :: body =>
    if mark = 'x' ∨ mark = 'X' then closed (run isHex) 6 body
    else closed (run Char.isDigit) 5 (mark :: body)
  | '&' :: body => closed (run Char.isAlpha) 30 body
  | _ => none

/-- Passes text between elements. -/
def markupText? : Nat → List Char → Option (List Char)
  | 0, _ => none
  | _ + 1, [] => some []
  | fuel + 1, c :: rest =>
    if isMarkupText c then markupText? fuel rest
    else if c = '&' then (characterReference? (c :: rest)).bind (markupText? fuel)
    else some (c :: rest)

/-- A name in markup, in which hyphens may stand. -/
def markupName? : List Char → Option (Unit × List Char)
  | c :: rest =>
    if isNameStart c then some ((), rest.dropWhile fun c => isNamePart c || c = '-') else none
  | [] => none

namespace Grammar

open Reader

variable (g : Grammar)

/-- The name of an element, with dots or one colon. -/
def elementName : Reader Unit := do
  token markupName?
  let dotted ← many (do mark "."; let _ ← anyName)
  if dotted.isEmpty then
    let _ ← took (do mark ":"; token markupName?)

/-- A string in markup, in which nothing is escaped. -/
def markupString : Reader Tree := do
  let place ← here
  let spelling ← token fun text =>
    match text with
    | quote :: rest =>
      if quote = '"' ∨ quote = '\'' then
        match rest.dropWhile (· ≠ quote) with
        | _ :: after => some (text.take (text.length - after.length), after)
        | [] => none
      else none
    | [] => none
  pure (textLiteral place spelling)

/-- An expression in braces, which may be left out. -/
def braced : Reader (List Tree) :=
  between "\x7b" "\x7d" (orNone ((do
    mark "..."
    let value ← g.expression
    pure [value]) <|> (do
    let value ← g.expressions
    pure [value])))

/-- An attribute with its value. -/
def elementAttribute : Reader (List Tree) :=
  g.braced <|>
  (do
    token markupName?
    let _ ← took (do mark ":"; token markupName?)
    orNone (do
      mark "="
      (do let text ← markupString; pure [text]) <|>
      g.braced <|>
      (do let element ← g.read .element; pure [element])))

/-- Some text between two tags. -/
def elementText : Reader (List Tree) := fun text =>
  match markupText? (text.length + 1) text with
  | some rest => if rest.length < text.length then some ([], rest) else none
  | none => none

/-- What stands between two tags. -/
def elementChild : Reader (List Tree) :=
  elementText <|>
  (do
    absent (mark "</")
    let element ← g.read .element
    pure [element]) <|>
  g.braced

/-- An element, or a fragment, which has no name. -/
def element : Reader Tree := do
  let place ← here
  mark "<"
  let attributes ← orNone (do
    elementName
    many g.elementAttribute)
  (do
    mark "/>"
    pure (other place attributes.flatten)) <|>
  (do
    mark ">"
    let children ← many g.elementChild
    mark "</"
    let _ ← took elementName
    mark ">"
    pure (other place (attributes.flatten ++ children.flatten)))

end Grammar

end Phrasebook.Script

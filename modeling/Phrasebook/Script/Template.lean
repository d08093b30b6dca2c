import Phrasebook.Script.Grammar
import Phrasebook.Text.Split

set_option autoImplicit false

/-!
Literals. A template literal is cut at its substitutions: each piece between two of them keeps its
spelling, up to line ends, and its place.
-/
namespace Phrasebook.Script

open Text (CodePoints)

/-- A piece of a template literal with its value. -/
def piece (place : Nat) (spelling : List Char) : Source.Piece Nat :=
  let raw := Text.unifiedLines spelling
  ⟨place, cook true raw, raw⟩

/-- What stands in a template literal besides plain characters: the places of its start and of its
end, and what is put in. An escape puts in nothing. -/
structure Part where
  start : Nat
  stop : Nat
  expression : Option Tree

/-- The pieces of a template literal, of which the first one starts at a place. The text of the
literal has a place of its own. It is cut at its substitutions only. -/
def pieces (place : Nat) (text : List Char) (start : Nat) : List Part → Source.Pieces Nat
  | [] => ⟨piece start (text.drop (place - start)), []⟩
  | ⟨stop, next, some _⟩ :: parts =>
    let first := (text.take (place - stop)).drop (place - start)
    ⟨piece start first, (pieces place text next parts).all⟩
  | ⟨_, _, none⟩ :: parts => pieces place text start parts

/-- Reads up to the closing mark of a template literal. -/
def templateParts (expressions : Reader Tree) : Nat → List Char → Option (List Part × List Char)
  | 0, _ => none
  | _ + 1, [] => none
  | fuel + 1, c :: rest =>
    if c = '`' then some ([], c :: rest)
    else if c = '\\' then do
      let after ← escapeRest? rest
      let (others, after') ← templateParts expressions fuel after
      some (⟨rest.length + 1, after.length, none⟩ :: others, after')
    else
      match c, rest with
      | '$', '{' :: inner => do
        let (expression, after) ← (do let e ← expressions; Reader.mark "\x7d"; pure e) inner
        let (others, after') ← templateParts expressions fuel after
        some (⟨rest.length + 1, after.length, some expression⟩ :: others, after')
      | _, _ => templateParts expressions fuel rest

/-- The value of a string with its quotes. An escape without meaning leaves it as it is spelled. -/
def stringValue (spelling : List Char) : CodePoints :=
  let body := spelling.tail.dropLast
  (cook false body).getD (CodePoints.ofChars body)

namespace Grammar

open Reader

/-- A literal of text with its quotes. -/
def textLiteral (place : Nat) (spelling : List Char) : Tree :=
  .literal place (.text (stringValue spelling)) (String.ofList spelling)

def string : Reader Tree := do
  let place ← here
  let spelling ← token string?
  pure (textLiteral place spelling)

/-- A literal of a number as it is spelled. -/
def numberLiteral (place : Nat) (raw : String) : Tree :=
  match numberValue raw with
  | some n => .literal place (.number n) raw
  | none => .literal place .unreadable raw

def number : Reader Tree := do
  let place ← here
  let raw ← token number?
  pure (numberLiteral place raw)

def regex : Reader Tree := do
  let place ← here
  token fun text => (regexRest? text).map ((), ·)
  pure (other place [])

/-- What stands between the marks of a template literal. -/
def templateBody (expressions : Reader Tree) : Reader (Source.Pieces Nat × List Tree) := fun text =>
  match templateParts expressions (text.length + 1) text with
  | some (parts, rest) =>
    let body := text.take (text.length - rest.length)
    some ((pieces text.length body text.length parts, parts.filterMap Part.expression), rest)
  | none => none

/-- A template literal. -/
def template (g : Grammar) : Reader Tree := do
  let place ← here
  mark "`"
  let (pieces, expressions) ← templateBody g.expressions
  mark "`"
  pure (.template place pieces expressions)

/-- The name of a property, with whether it is computed. -/
def propertyName (g : Grammar) : Reader (Tree × Bool) := do
  let place ← here
  (do
    let name ← anyName
    pure (.identifier place name, false)) <|>
  (do
    let text ← string
    pure (text, false)) <|>
  (do
    let number ← number
    pure (number, false)) <|>
  (do
    mark "#"
    let _ ← name?
    pure (other place [], false)) <|>
  (do
    let inner ← between "[" "]" g.expression
    pure (other place [inner], true))

end Grammar

end Phrasebook.Script

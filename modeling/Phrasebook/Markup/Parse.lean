import Phrasebook.Markup.Error
import Phrasebook.Markup.Tag
import Phrasebook.Markup.TopLevel
import Phrasebook.Script.Parse

set_option autoImplicit false

/-!
Reading the markup of a component into a tree: elements, attributes, tags in braces and scripts.
Text between tags is not kept. Each function takes the characters that are left and returns those
that are left after it.
-/
namespace Phrasebook.Markup

open Source (Node Position positionAt)

/-- Why a text at a position is no expression. A break of the grammar has no position. -/
def ParseError.ofExpression (start : Position) : Script.ExpressionError → ParseError
  | .empty => ⟨.emptyExpression, some start⟩
  | .notSingle => ⟨.severalExpressions, some start⟩
  | .grammar => ⟨.grammar, none⟩

/-- A component that is read. -/
structure Component where
  source : List Char
  dialect : Script.Dialect

abbrev Tree := Node Position

/-- Something with the characters that are left after it. -/
abbrev Read (α : Type) := α × List Char

namespace Component

variable (component : Component)

/-- The number of the character at which a text that is left starts. -/
def offset (rest : List Char) : Nat := component.source.length - rest.length

def position (rest : List Char) : Position :=
  positionAt component.source (component.offset rest)

def fail {α : Type} (reason : Reason) (rest : List Char) : Except ParseError α :=
  .error ⟨reason, some (component.position rest)⟩

/-- The characters between two texts that are left. -/
def before (start stop : List Char) : List Char := start.take (start.length - stop.length)

/-! ### Expressions -/

/-- What is left from the closing brace on, for the opening brace at the start of a text. -/
def closing (opening : List Char) : Except ParseError (List Char) :=
  match toClosing (opening.length + 1) 0 opening.tail with
  | .ok rest => .ok rest
  | .error e => component.fail (.brace e) opening

/-- The expression between two texts that are left. -/
def expression (start stop : List Char) : Except ParseError Tree :=
  let place := component.position start
  (Script.parseExpression component.dialect place (before start stop)).mapError (.ofExpression place)

/-- The script between two texts that are left. -/
def script (start stop : List Char) : Except ParseError Tree :=
  let place := Source.shifted (component.position start) 0
  match Script.parse? component.dialect place (before start stop) with
  | some tree => .ok tree
  | none => .error ⟨.grammar, none⟩

/-- The sign and the word that a block or a special tag starts with, and what is left after the
word. -/
def blockWord? (inner : List Char) : Option (Char × List Char × List Char) :=
  match inner with
  | sign :: rest =>
    if "#:@/".toList.contains sign then
      let start := rest.dropWhile Text.isBlank
      let word := start.takeWhile Char.isAlpha
      if word.isEmpty then none else some (sign, start, start.dropWhile Char.isAlpha)
    else none
  | [] => none

/-- What is left from the first of the words on, outside all brackets; the closing brace, if none
of them is there. -/
def upTo (words : List String) (start close : List Char) : Except ParseError (List Char) :=
  match findTopLevel component.source (component.offset start) (component.offset close) words with
  | .ok (some found) => .ok (component.source.drop found)
  | .ok none => .ok close
  | .error e => .error ⟨.brace e, none⟩

/-- The expression of a block or of a special tag, with its kind. -/
def blockParts (sign : Char) (word start close : List Char) (rest : List Char) :
    Except ParseError (String × Option Tree) := do
  let kind := String.ofList (sign :: word)
  match kind with
  | ":else" =>
    if startsWithWord ["if"] rest then
      let condition := (rest.dropWhile Text.isBlank).drop 2
      return (":else if", some (← component.expression condition close))
    else return (kind, none)
  | "#each" =>
    let stop ← component.upTo ["as"] rest close
    return (kind, some (← component.expression rest stop))
  | "#await" =>
    let stop ← component.upTo ["then", "catch"] rest close
    return (kind, some (← component.expression rest stop))
  | "@const" => return (kind, some (← component.script start close))
  | _ =>
    if ["#if", "#key", "@html", "@render"].contains kind then
      return (kind, some (← component.expression rest close))
    else return (kind, none)

/-- A tag in braces. -/
def mustache (opening : List Char) : Except ParseError (Read Tree) := do
  let close ← component.closing opening
  let place := component.position opening
  let inner := opening.tail.dropWhile Text.isBlank
  match blockWord? inner with
  | none =>
    let expression ← component.expression inner close
    return (.mustache place "expression" (some expression), close.tail)
  | some (sign, start, rest) =>
    let (kind, expression) ← component.blockParts sign (before start rest) start close rest
    return (.mustache place kind expression, close.tail)

/-! ### Attributes -/

/-- Text in the value of an attribute, unless it is empty. -/
def textChunk (start stop : List Char) : List Tree :=
  match before start stop with
  | [] => []
  | data => [.text (component.position start) (String.ofList data)]

/-- The value of an attribute up to its closing quote. -/
def quotedValue (quote : Char) : Nat → List Char → List Char → Except ParseError (Read (List Tree))
  | 0, _, rest => component.fail .openAttributeValue rest
  | _ + 1, _, [] => component.fail .openAttributeValue []
  | fuel + 1, start, c :: rest =>
    if c = quote then .ok (component.textChunk start (c :: rest), rest)
    else if c = '{' then do
      let (tag, after) ← component.mustache (c :: rest)
      let (chunks, after') ← quotedValue quote fuel after after
      return (component.textChunk start (c :: rest) ++ tag :: chunks, after')
    else quotedValue quote fuel start rest

/-- A character that ends a value without quotes. -/
def endsValue : List Char → Bool
  | '/' :: '>' :: _ => true
  | c :: _ => Text.isBlank c || c = '>'
  | [] => true

/-- The value of an attribute without quotes, which ends with a tag in braces. -/
def plainValue (start : List Char) : List Char → Except ParseError (Read (List Tree))
  | [] => .ok (component.textChunk start [], [])
  | c :: rest =>
    if endsValue (c :: rest) then .ok (component.textChunk start (c :: rest), c :: rest)
    else if c = '{' then do
      let (tag, after) ← component.mustache (c :: rest)
      return (component.textChunk start (c :: rest) ++ [tag], after)
    else plainValue start rest

/-- The value of an attribute after the equals sign. -/
def attributeValue (text : List Char) : Except ParseError (Read (List Tree)) :=
  match text with
  | [] => component.fail .openAttribute []
  | c :: rest =>
    if isQuote c then component.quotedValue c (rest.length + 1) rest rest
    else component.plainValue text text

/-- An attribute in braces: its name is its value, or several attributes are spread. -/
def bracedAttribute (opening : List Char) : Except ParseError (Read Tree) := do
  let close ← component.closing opening
  let place := component.position opening
  let inner := opening.tail
  match Text.dropStart "...".toList (inner.dropWhile Text.isBlank) with
  | some start =>
    let expression ← component.expression start close
    return (.spread place expression, close.tail)
  | none =>
    let expression ← component.expression inner close
    let name := String.ofList (Text.stripped (before inner close))
    return (.attr place name (some [.mustache place "expression" (some expression)]), close.tail)

/-- An attribute with its name. -/
def namedAttribute (text : List Char) : Except ParseError (Read Tree) := do
  let place := component.position text
  let name := String.ofList (text.takeWhile isAttributeNamePart)
  match text.dropWhile isAttributeNamePart with
  | '=' :: rest =>
    let (value, after) ← component.attributeValue rest
    return (.attr place name (some value), after)
  | rest => return (.attr place name none, rest)

/-- The attributes of a tag up to its end, with whether the tag closes itself. -/
def attributes : Nat → List Char → Except ParseError (Read (List Tree × Bool))
  | 0, text => component.fail .openTag text
  | fuel + 1, text =>
    match text.dropWhile Text.isBlank with
    | [] => component.fail .openTag []
    | '/' :: '>' :: rest => .ok (([], true), rest)
    | '>' :: rest => .ok (([], false), rest)
    | c :: rest => do
      let (first, after) ←
        if c = '{' then component.bracedAttribute (c :: rest)
        else if isAttributeNamePart c then component.namedAttribute (c :: rest)
        else component.fail (.unexpectedInTag c) (c :: rest)
      let ((others, closed), after') ← attributes fuel after
      return ((first :: others, closed), after')

/-! ### Elements -/

/-- An element that is open, with its children so far, the last one first. -/
structure Frame where
  place : Position
  name : String
  attributes : List Tree
  children : List Tree

/-- The node of an element or a component. -/
def elementNode (place : Position) (name : String) (attributes children : List Tree) : Tree :=
  if isComponent name then .component place name attributes children
  else .element place name attributes children

/-- The elements that are open, the inner ones first, and the nodes outside all of them, the last
one first. -/
structure Open where
  frames : List Frame
  outside : List Tree

/-- Adds a node to the innermost element. -/
def Open.append (state : Open) (node : Tree) : Open :=
  match state.frames with
  | frame :: frames => ⟨⟨frame.place, frame.name, frame.attributes, node :: frame.children⟩ :: frames,
      state.outside⟩
  | [] => ⟨[], node :: state.outside⟩

/-- Closes the innermost element. -/
def Open.close (state : Open) : Open :=
  match state.frames with
  | frame :: frames =>
    Open.append ⟨frames, state.outside⟩
      (elementNode frame.place frame.name frame.attributes frame.children.reverse)
  | [] => state

/-- Closes so many elements. -/
def Open.closeMany (state : Open) : Nat → Open
  | 0 => state
  | count + 1 => state.close.closeMany count

/-- A script with its content. -/
def scriptContent (place : Position) (attributes : List Tree) (text : List Char) : Except ParseError (Read Tree) :=
  match findFirst (fun t => (afterClosingTag? "script".toList t).isSome) text with
  | none => component.fail .openScript text
  | some (_, close) => do
    let content ← component.script text close
    return (.script place attributes (some content),
      (afterClosingTag? "script".toList close).getD [])

/-- An opening tag, whose name was read. -/
def openTag (state : Open) (tag : List Char) (name rest : List Char) : Except ParseError (Read Open) := do
  let place := component.position tag
  let name := String.ofList name
  let ((attributes, closed), after) ← component.attributes (rest.length + 1) rest
  if isScript name then
    if closed then return (state.append (.script place attributes none), after)
    else
      let (node, after') ← component.scriptContent place attributes after
      return (state.append node, after')
  else if closed || isVoid name then
    return (state.append (elementNode place name attributes []), after)
  else return (⟨⟨place, name, attributes, []⟩ :: state.frames, state.outside⟩, after)

/-- A closing tag. It closes the innermost element of its name with all that is open in it. -/
def closeTag (state : Open) (tag : List Char) : Except ParseError (Read Open) :=
  match tag.dropWhile (· ≠ '>') with
  | [] => component.fail .openClosingTag tag
  | close =>
    let name := String.ofList (Text.stripped ((before tag close).drop 2))
    match state.frames.findIdx? (·.name = name) with
    | some depth => .ok (state.closeMany (depth + 1), close.tail)
    | none => component.fail (.notOpened name) tag

/-- Reads to the end of the component. -/
def content : Nat → Open → List Char → Except ParseError Open
  | 0, state, _ => .ok state
  | _ + 1, state, [] => .ok state
  | fuel + 1, state, c :: rest =>
    if c = '<' then
      match rest with
      | '/' :: _ => do
        let (state, after) ← component.closeTag state (c :: rest)
        content fuel state after
      | '!' :: _ => content fuel state (rest.dropWhile (· ≠ '>')).tail
      | _ =>
        match tagName? rest with
        | some (name, after) => do
          let (state, after') ← component.openTag state (c :: rest) name after
          content fuel state after'
        | none => content fuel state rest
    else if c = '{' then do
      let (node, after) ← component.mustache (c :: rest)
      content fuel (state.append node) after
    else content fuel state rest

/-- The tree of the whole component. -/
def tree : Except ParseError Tree := do
  let state ← component.content (component.source.length + 1) ⟨[], []⟩ component.source
  match state.frames with
  | frame :: _ => .error ⟨.notClosed frame.name, some frame.place⟩
  | [] => return .fragment ⟨1, 0⟩ state.outside.reverse

end Component

/-- The tree of a component's markup. -/
def parse (source : List Char) : Except ParseError Tree :=
  Component.tree ⟨source, dialect source⟩

end Phrasebook.Markup

import Phrasebook.Script.Object

set_option autoImplicit false

/-!
Functions and classes.
-/
namespace Phrasebook.Script.Grammar

open Reader

variable (g : Grammar)

/-! ### Functions -/

/-- A function after its first word; one that has a type only, where that is allowed. -/
def functionRest (place : Nat) (bodiless : Bool) : Reader Tree := do
  let _ ← took (mark "*")
  let name ← maybe boundName
  let signature ← g.signature
  let body ← (do let body ← g.block; pure [body]) <|>
    (do
      if bodiless then
        endStatement true false
        pure []
      else failure)
  pure (other place (name.toList ++ signature ++ body))

/-- A function, which may be asynchronous. -/
def function : Reader Tree := do
  let place ← start
  let _ ← took (word "async")
  word "function"
  g.functionRest place false

/-- What an arrow function does. -/
def arrowBody (noIn inChoice : Bool) : Reader Tree :=
  g.block <|> g.read (.expression noIn inChoice)

/-- The parameters of an arrow function. Inside a choice the type of a result is told from what is
chosen else by the colon that has to follow. -/
def arrow (noIn inChoice : Bool) : Reader Tree := do
  let place ← start
  let plain : Reader (List Tree) := do
    let name ← boundName
    mark "=>"
    pure [name]
  let full : Reader (List Tree × Bool) := do
    let types ← g.typeParameters
    let parameters ← g.parameters
    let result ← g.resultAnnotation
    mark "=>"
    pure (types ++ parameters ++ result, !result.isEmpty)
  let head : Reader (List Tree × Bool) := (do let name ← plain; pure (name, false)) <|> full
  let (parts, ambiguous) ← (do word "async"; head) <|> head
  let body ← g.arrowBody noIn inChoice
  if inChoice && ambiguous then present (mark ":")
  pure (other place (parts ++ [body]))

/-! ### Classes -/

/-- Words that may stand in front of a member of a class. -/
def classWords : List String :=
  ["static", "get", "set", "async", "accessor"]

/-- The same, where types can be written. -/
def typedClassWords : List String :=
  ["public", "private", "protected", "abstract", "override", "readonly", "declare"]

/-- A word in front of a member of a class. -/
def classWord : Reader Unit :=
  (do
    let _ ← oneOf (if g.typed then classWords ++ typedClassWords else classWords)
    present (nameAhead <|> mark "*")) <|>
  mark "*"

/-- A member of a class after its words. -/
def classMemberRest : Reader (List Tree) := do
  let (key, _) ← g.propertyName
  let _ ← took (g.ifTyped (mark "?" <|> mark "!"))
  (do
    let signature ← g.signature
    let body ← (do let body ← g.block; pure [body]) <|>
      g.ifTyped (do
        (do mark ",") <|> endStatement true false
        pure [])
    pure (key :: signature ++ body)) <|>
  (do
    let type ← g.annotation
    let initial ← g.initial false
    (g.ifTyped (mark ",")) <|> endStatement g.typed (!initial.isEmpty)
    pure (key :: type ++ initial))

/-- A member of a class. -/
def classMember : Reader (List Tree) :=
  (do
    mark ";"
    pure []) <|>
  (do
    word "static"
    let body ← g.block
    pure [body]) <|>
  (do
    let decorators ← many g.decorator
    let _ ← many g.classWord
    let rest ← g.ifTyped (do
      let index ← g.indexMember
      (do mark ",") <|> endStatement true false
      pure index) <|> g.classMemberRest
    pure (decorators ++ rest))

/-- What a class extends and implements. -/
def heritage (superclass : Reader Tree) : Reader (List Tree) := do
  let extended ← orNone (do
    word "extends"
    let first ← superclass
    let types ← orNone (g.ifTyped do
      let types ← g.typeArguments
      pure [types])
    pure (first :: types))
  let implemented ← orNone (g.ifTyped do
    word "implements"
    separated "," g.type)
  pure (extended ++ implemented)

/-- A class after its first word. -/
def classRest (superclass : Reader Tree) (place : Nat) : Reader Tree := do
  let name ← maybe (do
    if ← ahead (word "implements") then failure
    boundName)
  let types ← g.typeParameters
  let heritage ← g.heritage superclass
  let members ← between "\x7b" "\x7d" (many g.classMember)
  pure (other place (name.toList ++ types ++ heritage ++ members.flatten))

end Phrasebook.Script.Grammar

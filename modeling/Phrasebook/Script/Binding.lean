import Phrasebook.Script.Template

set_option autoImplicit false

/-!
What declarations bind: names, patterns that take values apart, type parameters and parameters.
-/
namespace Phrasebook.Script.Grammar

open Reader

variable (g : Grammar)

/-- A name that is bound. -/
def boundName : Reader Tree := do
  let place ← here
  let name ← freeName
  pure (.identifier place name)

/-- An item of a pattern with its default. -/
def bindingItem : Reader (List Tree) := do
  let target ← g.read .binding
  let initial ← g.initial false
  pure (target :: initial)

/-- The rest of what is taken apart. -/
def bindingRest : Reader (List Tree) := do
  mark "..."
  let target ← g.read .binding
  pure [target]

/-- A member of a pattern in braces. -/
def bindingMember : Reader (List Tree) :=
  g.bindingRest <|>
  (do
    let (key, _) ← g.propertyName
    mark ":"
    let item ← g.bindingItem
    pure (key :: item)) <|>
  (do
    let name ← boundName
    let initial ← g.initial false
    pure (name :: initial))

/-- A name or a pattern. -/
def binding : Reader Tree := do
  let place ← here
  boundName <|>
  (do
    let members ← between "\x7b" "\x7d" (sparseList g.bindingMember)
    pure (other place members)) <|>
  (do
    let items ← between "[" "]" (sparseList (g.bindingRest <|> g.bindingItem))
    pure (other place items))

/-! ### Decorators -/

/-- The arguments of a call. -/
def argument : Reader (List Tree) := do
  let place ← start
  (do
    mark "..."
    let value ← g.expression
    pure [.group place .spread [value]]) <|>
  (do
    let value ← g.expression
    pure [value])

def arguments : Reader (List Tree) := between "(" ")" (sparseList g.argument)

/-- Types in angle brackets. -/
def typeArguments : Reader Tree := do
  let place ← here
  let types ← between "<" ">" (separated "," g.type)
  pure (other place types)

/-- Goes on from the name of a decorator. -/
def decoratorStep (callee : Tree) : Reader Tree :=
  (do
    mark "."
    let _ ← anyName
    pure (other callee.place [callee])) <|>
  (do
    let types ← orNone (g.ifTyped do
      let types ← g.typeArguments
      pure [types])
    let args ← g.arguments
    pure (.call callee.place callee (types ++ args)))

def decorator : Reader Tree := do
  let place ← here
  mark "@"
  let inner ← (do grow g.decoratorStep (← boundName)) <|> between "(" ")" g.expressions
  pure (other place [inner])

/-! ### Parameters -/

/-- Type parameters in angle brackets. -/
def typeParameters : Reader (List Tree) :=
  let parameter : Reader (List Tree) := do
    let _ ← many (do
      let _ ← oneOf ["const", "in", "out"]
      present freeName)
    let _ ← freeName
    let bound ← orNone (do
      word "extends"
      let type ← g.type
      pure [type])
    let preset ← orNone (do
      mark "="
      let type ← g.type
      pure [type])
    pure (bound ++ preset)
  orNone (g.ifTyped do
    mark "<"
    let parameters ← separated "," parameter
    let _ ← took (mark ",")
    mark ">"
    pure parameters.flatten)

/-- Words that may stand in front of a parameter. -/
def parameterWords : List String := ["public", "private", "protected", "override", "readonly"]

/-- The start of what a parameter binds. -/
def parameterTarget : Reader Unit :=
  (do let _ ← freeName) <|> mark "\x7b" <|> mark "[" <|> mark "..."

/-- A parameter with its decorators, its type and its default. -/
def parameter : Reader (List Tree) := do
  let decorators ← many g.decorator
  let _ ← orNone (g.ifTyped (many (do
    let _ ← oneOf parameterWords
    present parameterTarget)))
  let place ← here
  let target ← g.bindingRest <|>
    (do let target ← g.read .binding; pure [target]) <|>
    g.ifTyped (do word "this"; pure [other place []])
  let _ ← took (g.ifTyped (mark "?"))
  let type ← g.annotation
  let initial ← g.initial false
  pure (decorators ++ target ++ type ++ initial)

def parameters : Reader (List Tree) := do
  let all ← between "(" ")" (commaList g.parameter)
  pure all.flatten

/-- What a function promises about its parameters, or else the type of its result. -/
def resultType : Reader (List Tree) :=
  (do
    word "asserts"
    let _ ← freeName <|> (do word "this"; pure "this")
    orNone (do
      word "is"
      let type ← g.type
      pure [type])) <|>
  (do
    let _ ← freeName <|> (do word "this"; pure "this")
    sameLine
    word "is"
    let type ← g.type
    pure [type]) <|>
  (do
    let type ← g.type
    pure [type])

/-- The type of the result behind a colon. -/
def resultAnnotation : Reader (List Tree) :=
  orNone (g.ifTyped do
    mark ":"
    g.resultType)

/-- Type parameters, parameters and the type of the result. -/
def signature : Reader (List Tree) := do
  let types ← g.typeParameters
  let parameters ← g.parameters
  let result ← g.resultAnnotation
  pure (types ++ parameters ++ result)

end Phrasebook.Script.Grammar

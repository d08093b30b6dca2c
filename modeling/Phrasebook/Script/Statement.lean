import Phrasebook.Script.Expression

set_option autoImplicit false

/-!
Statements and declarations, except for those that tie modules together.
-/
namespace Phrasebook.Script.Grammar

open Reader

variable (g : Grammar)

/-- The end of a statement; `operand` tells that an operator could follow. -/
def closed (operand : Bool) : Reader Unit := endStatement g.typed operand

def inParentheses : Reader Tree := do
  let place ← here
  let inner ← between "(" ")" g.expressions
  pure (other place [inner])

def statement : Reader Tree := g.read .statement

/-! ### Declarations -/

/-- A name or a pattern with its type and its value. -/
def declared (noIn : Bool) : Reader (List Tree) := do
  let target ← g.read .binding
  let _ ← took (g.ifTyped (do mark "!"; present (mark ":")))
  let type ← g.annotation
  let initial ← g.initial noIn
  pure (target :: type ++ initial)

/-- The variables that a declaration lists. -/
def declarators : Reader (List Tree × Bool) := do
  let found ← separated "," (do
    let target ← g.read .binding
    let _ ← took (g.ifTyped (do mark "!"; present (mark ":")))
    let type ← g.annotation
    let initial ← g.initial false
    pure (target :: type ++ initial, !initial.isEmpty))
  pure ((found.map (·.1)).flatten, (found.getLast?.map (·.2)).getD false)

/-- A declaration of variables after its first word. -/
def variableRest (place : Nat) : Reader Tree := do
  let (parts, valued) ← g.declarators
  g.closed valued
  pure (other place parts)

/-- A declared function or class, which has a name. -/
def namedRest (rest : Nat → Reader Tree) (place : Nat) : Reader Tree := do
  present (do let _ ← took (mark "*"); freeName)
  rest place

/-- What a class extends, in a declaration or elsewhere. -/
def superclass : Reader Tree := do
  grow g.chainStep (← g.read .primary)

/-- The constants of an enumeration. -/
def enumRest (place : Nat) : Reader Tree := do
  let _ ← freeName
  let members ← between "\x7b" "\x7d" (commaList (do
    let (key, _) ← g.propertyName
    let initial ← g.initial false
    pure (key :: initial)))
  pure (other place members.flatten)

/-- The names of a module with its statements, if they are given. -/
def moduleRest (place : Nat) : Reader Tree := do
  sameLine
  let name ← (do let text ← string; pure [text]) <|>
    (do
      let _ ← separated "." freeName
      pure [])
  let body ← (do let body ← g.block; pure [body]) <|> (do g.closed false; pure [])
  pure (other place (name ++ body))

def interfaceRest (place : Nat) : Reader Tree := do
  sameLine
  let _ ← freeName
  let types ← g.typeParameters
  let extended ← orNone (do
    word "extends"
    separated "," g.type)
  let members ← g.objectType
  pure (other place (types ++ extended ++ members))

/-- The name of a type with what it stands for. -/
def typeRest (place : Nat) : Reader Tree := do
  sameLine
  let _ ← freeName
  let types ← g.typeParameters
  mark "="
  let type ← g.type
  g.closed false
  pure (other place (types ++ [type]))

/-- A declaration of the typed dialect after its first word. -/
def typedDeclaration (decorators : List Tree) (name : String) (place : Nat) : Reader Tree :=
  match name with
  | "abstract" => do
    sameLine
    word "class"
    let class_ ← namedRest (g.classRest g.superclass) place
    pure (other place (decorators ++ [class_]))
  | "interface" => g.interfaceRest place
  | "type" => g.typeRest place
  | "enum" => g.enumRest place
  | "namespace" => g.moduleRest place
  | "module" => g.moduleRest place
  | "declare" => do
    sameLine
    (do
      word "global"
      g.block) <|> g.statement
  | _ => failure

/-- A declaration that stands by itself or is exported. -/
def declaration : Reader Tree := do
  let place ← start
  let decorators ← many g.decorator
  match ← anyName with
  | "var" => g.variableRest place
  | "let" => g.variableRest place
  | "const" =>
    (g.ifTyped do
      word "enum"
      g.enumRest place) <|> g.variableRest place
  | "function" => namedRest (fun p => g.functionRest p g.typed) place
  | "async" => do
    word "function"
    namedRest (fun p => g.functionRest p g.typed) place
  | "class" => do
    let class_ ← namedRest (g.classRest g.superclass) place
    pure (other place (decorators ++ [class_]))
  | name => g.ifTyped (g.typedDeclaration decorators name place)

/-! ### Statements with parts -/

/-- What a loop goes over, with the word between. -/
def loopRange : Reader (List Tree) := do
  let target ←
    (do
      let _ ← oneOf ["var", "let", "const"]
      g.declared true) <|>
    (do
      let first ← g.read .primary
      let operand ← grow g.chainStep first
      match assigned? operand with
      | some target => pure [target]
      | none => failure)
  let _ ← oneOf ["in", "of"]
  let range ← g.expressions
  pure (target ++ [range])

/-- Expressions that may be left out. -/
def someExpressions : Reader (List Tree) := orNone do
  let inner ← g.expressions
  pure [inner]

/-- The start, the condition and the step of a loop. -/
def loopSteps : Reader (List Tree) := do
  let first ←
    (do
      let _ ← oneOf ["var", "let", "const"]
      let (parts, _) ← g.declarators
      pure parts) <|> g.someExpressions
  mark ";"
  let condition ← g.someExpressions
  mark ";"
  let step ← g.someExpressions
  pure (first ++ condition ++ step)

def loopRest (place : Nat) : Reader Tree := do
  let _ ← took (word "await")
  let head ← between "(" ")" g.loopRange <|> between "(" ")" g.loopSteps
  let body ← g.statement
  pure (other place (head ++ [body]))

/-- A case of a switch with its statements. -/
def switchCase : Reader (List Tree) := do
  let value ←
    (do
      word "case"
      let value ← g.expressions
      pure [value]) <|>
    (do
      word "default"
      pure [])
  mark ":"
  let body ← many g.statement
  pure (value ++ body)

/-- What is done about an error. -/
def catchClause : Reader (List Tree) := do
  word "catch"
  let bound ← orNone (between "(" ")" (do
    let target ← g.read .binding
    let type ← g.annotation
    pure (target :: type)))
  let body ← g.block
  pure (bound ++ [body])

/-- The name of a labelled statement that is left or gone on with. -/
def jumpRest (place : Nat) : Reader Tree := do
  let _ ← maybe (do sameLine; freeName)
  g.closed false
  pure (other place [])

/-- A statement after its first word, for the words that start one always. -/
def wordStatement (name : String) (place : Nat) : Reader Tree :=
  match name with
  | "if" => do
    let condition ← g.inParentheses
    let yes ← g.statement
    let no ← orNone (do
      word "else"
      let no ← g.statement
      pure [no])
    pure (other place (condition :: yes :: no))
  | "for" => g.loopRest place
  | "while" => do
    let condition ← g.inParentheses
    let body ← g.statement
    pure (other place [condition, body])
  | "do" => do
    let body ← g.statement
    word "while"
    let condition ← g.inParentheses
    let _ ← took (mark ";")
    pure (other place [body, condition])
  | "switch" => do
    let value ← g.inParentheses
    let cases ← between "\x7b" "\x7d" (many g.switchCase)
    pure (other place (value :: cases.flatten))
  | "try" => do
    let body ← g.block
    let caught ← orNone g.catchClause
    let last ← orNone (do
      word "finally"
      let last ← g.block
      pure [last])
    pure (other place (body :: caught ++ last))
  | "with" => do
    let object ← g.inParentheses
    let body ← g.statement
    pure (other place [object, body])
  | "return" => do
    let value ← orNone (do
      sameLine
      let value ← g.expressions
      pure [value])
    g.closed (!value.isEmpty)
    pure (other place value)
  | "throw" => do
    let value ← g.expressions
    g.closed true
    pure (other place [value])
  | "break" => g.jumpRest place
  | "continue" => g.jumpRest place
  | "debugger" => do
    g.closed false
    pure (other place [])
  | _ => failure

/-- A statement with a label. -/
def labelled : Reader Tree := do
  let place ← start
  let _ ← freeName
  mark ":"
  let body ← g.statement
  pure (other place [body])

/-- Expressions as a statement. -/
def expressionStatement : Reader Tree := do
  let place ← start
  let inner ← g.expressions
  g.closed true
  pure (.group place .expressionStatement [inner])

/-- A block, or an object where the braces hold members rather than statements. -/
def braces : Reader Tree := do
  let memberFirst ← ahead (do
    mark "\x7b"
    let _ ← g.propertyName
    mark ":")
  if memberFirst then g.expressionStatement <|> g.block
  else g.block <|> g.expressionStatement

end Phrasebook.Script.Grammar

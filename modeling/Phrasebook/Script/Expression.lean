import Phrasebook.Script.Element

set_option autoImplicit false

/-!
Expressions. A chain of operators is kept as one list of operands, since how operators bind makes
no difference to what stands in the tree.
-/
namespace Phrasebook.Script.Grammar

open Reader

variable (g : Grammar)

/-- The character that comes next. -/
def next : Reader Char := fun text =>
  match (afterBlanksAtStart text).rest with
  | c :: rest => some (c, c :: rest)
  | [] => none

/-! ### Operands -/

/-- Expressions in parentheses; the typed dialect can give them a type. -/
def parenthesized : Reader Tree := do
  let place ← start
  mark "("
  let inner ← g.expressions
  let type ← g.annotation
  mark ")"
  pure (.group place .parenthesized (inner :: type))

/-- A member by name. -/
def memberName (object : Tree) : Reader Tree := do
  let place ← here
  let _ ← took (mark "#")
  let name ← anyName
  pure (.group object.place .member [object, .identifier place name])

/-- A member by an expression in brackets. -/
def memberIndex (object : Tree) : Reader Tree := do
  let index ← between "[" "]" g.expressions
  pure (.group object.place .member [object, index])

/-- Type arguments in front of what is called. -/
def callTypes : Reader (List Tree) := orNone (g.ifTyped do
  let types ← g.typeArguments
  pure [types])

/-- A call. -/
def call (callee : Tree) : Reader Tree := do
  let _ ← g.callTypes
  let args ← g.arguments
  pure (.call callee.place callee args)

/-- A template literal with a tag. -/
def taggedTemplate (tag : Tree) : Reader Tree := do
  let _ ← g.callTypes
  let body ← g.template
  pure (.tagged tag.place tag body)

/-- The mark of a link that may be missing. -/
def optionalMark : Reader Unit := do
  mark "?."
  fun text =>
    match text with
    | c :: _ => if c.isDigit then none else some ((), text)
    | [] => none

/-- The mark that says a value is there. -/
def presentMark : Reader Unit := do
  sameLine
  absent (mark "!=")
  mark "!"

/-- Goes on from an operand without calling it. -/
def linkStep (operand : Tree) : Reader Tree :=
  (do
    mark "."
    memberName operand) <|>
  (do
    optionalMark
    memberName operand <|> g.memberIndex operand) <|>
  g.memberIndex operand <|>
  g.taggedTemplate operand <|>
  g.ifTyped (do
    presentMark
    pure (.group operand.place .member [operand]))

/-- Goes on from an operand. -/
def chainStep (operand : Tree) : Reader Tree :=
  g.linkStep operand <|>
  (do
    let _ ← took optionalMark
    g.call operand)

/-- What `new` makes an object of, with its arguments. -/
def newObject (place : Nat) : Reader Tree :=
  (do
    mark "."
    word "target"
    pure (other place [])) <|>
  (do
    let class_ ← g.read .primary
    let class_ ← grow g.linkStep class_
    let _ ← g.callTypes
    let args ← orNone g.arguments
    pure (other place (class_ :: args)))

/-- What follows `import` inside an expression. -/
def importOperand (place : Nat) : Reader Tree :=
  (do
    mark "."
    word "meta"
    pure (other place [])) <|>
  (do
    present (mark "(")
    pure (other place []))

/-- An operand that starts with a word. -/
def wordOperand : Reader Tree := do
  let place ← start
  let name ← anyName
  match name with
  | "function" => g.functionRest place false
  | "class" => g.classRest (do grow g.chainStep (← g.read .primary)) place
  | "new" => g.newObject place
  | "import" => importOperand place
  | "undefined" => pure (.group place .reservedName [])
  | "async" =>
    (do
      word "function"
      g.functionRest place false) <|> pure (.identifier place name)
  | _ =>
    if ["this", "super", "null", "true", "false"].contains name then pure (other place [])
    else if reservedWords.contains name then failure
    else pure (.identifier place name)

/-- A class with decorators. -/
def decoratedClass : Reader Tree := do
  let place ← start
  let decorators ← many g.decorator
  word "class"
  let class_ ← g.classRest (do grow g.chainStep (← g.read .primary)) place
  pure (other place (decorators ++ [class_]))

/-- A private name, of which it is asked whether an object has it. -/
def privateName : Reader Tree := do
  let place ← start
  mark "#"
  let _ ← name?
  present (word "in")
  pure (other place [])

/-- An operand without what may follow it. -/
def primaryRule : Reader Tree := do
  let c ← next
  let _ ← start
  match c with
  | '(' => g.parenthesized
  | '[' => g.array
  | '\x7b' => g.object
  | '`' => g.template
  | '"' => string
  | '\'' => string
  | '/' => regex
  | '@' => g.decoratedClass
  | '#' => privateName
  | '<' => if g.typed then failure else g.element
  | _ => if c.isDigit || c = '.' then number else g.wordOperand

/-! ### Assignments -/

/-- The marks that assign after an operation. -/
def updateMarks : List String := [
    "+=", "-=", "*=", "/=", "%=", "**=", "<<=", ">>=", ">>>=", "&=", "^=", "|=", "&&=", "||=",
    "??="]

/-- One of several marks. -/
def markOf : List String → Reader Unit
  | [] => failure
  | first :: others => mark first <|> markOf others

/-- What can be assigned to. -/
def assigned? : Tree → Option Tree
  | .group place .parenthesized children => some (.group place .parenthesized children)
  | tree => target? tree

/-- What can be updated in place. -/
def isUpdated : Tree → Bool
  | .identifier _ _ => true
  | .group _ .parenthesized _ => true
  | .group _ .member _ => true
  | .group _ .reservedName _ => true
  | _ => false

/-- An assignment to an operand that was read. -/
def assignment (noIn inChoice : Bool) (operand : Tree) : Reader Tree := do
  let target ←
    (do
      absent (mark "==" <|> mark "=>")
      mark "="
      match assigned? operand with
      | some target => pure target
      | none => failure) <|>
    (do
      markOf updateMarks
      if isUpdated operand then pure operand else failure)
  let value ← g.read (.expression noIn inChoice)
  pure (.group operand.place .assignment [target, value])

/-- Whether what follows cannot be an operand, so that types in angle brackets stand alone. -/
def endsTypes : Reader Unit := fun text =>
  let passed := afterBlanks text
  match passed.rest with
  | [] => some ((), text)
  | c :: _ =>
    if passed.newLine || ",;:)]\x7d.?=|&^*%".toList.contains c then some ((), text) else none

/-- Type arguments that nothing is called with. -/
def instantiated (operand : Tree) : Reader Tree := g.ifTyped do
  let types ← g.typeArguments
  endsTypes
  pure (other operand.place [operand, types])

/-- A step up or down behind an operand. -/
def stepped (operand : Tree) : Reader Tree := do
  sameLine
  mark "++" <|> mark "--"
  pure (other operand.place [operand])

/-- An operand with its links and calls, and what is assigned to it. -/
def chain (noIn inChoice : Bool) (first : Tree) : Reader Tree := do
  let operand ← grow g.chainStep first
  g.assignment noIn inChoice operand <|> stepped operand <|> g.instantiated operand <|>
    pure operand

/-! ### Operators in front -/

/-- Marks in front of an operand. -/
def signMark : Reader Unit :=
  mark "++" <|> mark "--" <|> mark "!" <|> mark "~" <|> mark "+" <|> mark "-"

/-- An operand with an operator in front. -/
def prefixed (noIn inChoice : Bool) : Reader Tree := do
  let place ← start
  (do
    signMark <|> (do let _ ← oneOf ["typeof", "void", "delete", "await"])
    let operand ← g.read (.operand noIn inChoice)
    pure (other place [operand])) <|>
  g.ifTyped (do
    let types ← g.typeArguments
    let operand ← g.read (.operand noIn inChoice)
    pure (other place [types, operand]))

/-- What a generator hands out. -/
def yielded (noIn inChoice : Bool) : Reader Tree := do
  let place ← start
  word "yield"
  let all ← took (mark "*")
  if all then
    let value ← g.read (.operand noIn inChoice)
    pure (other place [value])
  else
    let value ← orNone (do
      sameLine
      let value ← g.read (.operand noIn inChoice)
      pure [value])
    pure (other place value)

/-- What an operator applies to. -/
def operandRule (noIn inChoice : Bool) : Reader Tree :=
  (do
    let function ← g.arrow noIn inChoice
    grow g.chainStep function) <|>
  g.yielded noIn inChoice <|>
  g.prefixed noIn inChoice <|>
  (do
    absent (oneOf ["typeof", "void", "delete", "await", "yield"])
    let first ← g.read .primary
    g.chain noIn inChoice first)

/-! ### Operators between -/

/-- Marks between operands, longer ones first. -/
def operatorMarks : List String := [
    "===", "!==", "==", "!=", ">>>", "<<", ">>", "<=", ">=", "**", "&&", "||", "??", "<", ">", "*",
    "/", "%", "&", "|", "^"]

/-- An operator between two operands. -/
def operator (noIn : Bool) : Reader Unit :=
  markOf operatorMarks <|>
  (do
    absent (mark "++" <|> mark "--")
    mark "+" <|> mark "-") <|>
  word "instanceof" <|>
  (do
    if noIn then failure
    word "in")

/-- The mark of a choice. -/
def choiceMark : Reader Unit := do
  absent (mark "??" <|> optionalMark)
  mark "?"

/-- What goes on an expression. -/
def continuation (noIn inChoice : Bool) : Reader (List Tree) :=
  (do
    operator noIn
    let operand ← g.read (.operand noIn inChoice)
    pure [operand]) <|>
  (do
    choiceMark
    let yes ← g.read (.expression false true)
    mark ":"
    let no ← g.read (.expression noIn inChoice)
    pure [yes, no]) <|>
  g.ifTyped (do
    sameLine
    let _ ← oneOf ["as", "satisfies"]
    (do word "const"; pure []) <|> g.someType)

/-- An expression without commas outside brackets. -/
def expressionRule (noIn inChoice : Bool) : Reader Tree := do
  let place ← start
  let first ← g.read (.operand noIn inChoice)
  let others ← many (g.continuation noIn inChoice)
  if others.isEmpty then pure first else pure (other place (first :: others.flatten))

end Phrasebook.Script.Grammar

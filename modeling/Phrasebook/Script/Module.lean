import Phrasebook.Script.Statement

set_option autoImplicit false

/-!
Imports and exports, and with them all statements.
-/
namespace Phrasebook.Script.Grammar

open Reader

variable (g : Grammar)

/-- A name that a module has for its readers. -/
def moduleName : Reader (List Tree) :=
  (do
    let text ← string
    pure [text]) <|>
  (do
    let _ ← anyName
    pure [])

/-- A name with another one for the importing module or for readers. -/
def specifier : Reader (List Tree) :=
  let plain : Reader (List Tree) := do
    let name ← moduleName
    let second ← orNone (do
      word "as"
      moduleName)
    present (mark "," <|> mark "\x7d")
    pure (name ++ second)
  (g.ifTyped do
    let _ ← oneOf ["type", "typeof"]
    plain) <|> plain

def specifiers : Reader (List Tree) := do
  let found ← between "\x7b" "\x7d" (commaList g.specifier)
  pure found.flatten

/-- What a module is imported as: its kind by the words after its path. -/
def importAttributes : Reader (List Tree) := orNone do
  let _ ← oneOf ["with", "assert"]
  let object ← g.object
  pure [object]

/-- The path of a module, to the end of the statement. -/
def pathRest : Reader (List Tree) := do
  let path ← string
  let attributes ← g.importAttributes
  g.closed false
  pure (path :: attributes)

/-- The path of a module behind its word. -/
def fromPath : Reader (List Tree) := do
  word "from"
  g.pathRest

/-- Everything in a module under one name. -/
def wholeModule : Reader (List Tree) := do
  mark "*"
  word "as"
  let _ ← freeName
  pure []

/-- The names that are imported. -/
def importNames : Reader (List Tree) :=
  wholeModule <|> g.specifiers <|>
  (do
    let _ ← freeName
    orNone (do
      mark ","
      wholeModule <|> g.specifiers))

/-- An import after its first word. -/
def importRest (place : Nat) : Reader Tree :=
  let named : Reader Tree := do
    let names ← g.importNames
    let path ← g.fromPath
    pure (other place (names ++ path))
  (do
    let path ← g.pathRest
    pure (other place path)) <|>
  (g.ifTyped do
    let _ ← oneOf ["type", "typeof"]
    named) <|>
  named <|>
  (g.ifTyped do
    let _ ← took (do word "type"; present freeName)
    let _ ← freeName
    mark "="
    (do
      word "require"
      let path ← between "(" ")" string
      g.closed false
      pure (other place [path])) <|>
    (do
      let _ ← separated "." freeName
      g.closed false
      pure (other place [])))

/-- What a module is without a name. -/
def defaultRest (place : Nat) : Reader Tree :=
  (do
    let _ ← took (word "async")
    word "function"
    let function ← g.functionRest place g.typed
    absent (mark "(" <|> mark ".")
    pure function) <|>
  g.declaration <|>
  (do
    let decorators ← many g.decorator
    word "class"
    let class_ ← g.classRest g.superclass place
    pure (other place (decorators ++ [class_]))) <|>
  (do
    let value ← g.expressions
    g.closed true
    pure (other place [value]))

/-- An export after its first word. -/
def exportRest (place : Nat) : Reader Tree :=
  (do
    mark "*"
    let name ← orNone (do
      word "as"
      moduleName)
    let path ← g.fromPath
    pure (other place (name ++ path))) <|>
  (do
    let _ ← took (g.ifTyped (word "type"))
    let names ← g.specifiers
    let path ← g.fromPath <|> (do g.closed false; pure [])
    pure (other place (names ++ path))) <|>
  (do
    word "default"
    g.defaultRest place) <|>
  (g.ifTyped do
    mark "="
    let value ← g.expression
    g.closed true
    pure (other place [value])) <|>
  (g.ifTyped do
    word "as"
    word "namespace"
    let _ ← freeName
    g.closed false
    pure (other place [])) <|>
  (g.ifTyped do
    word "import"
    g.importRest place) <|>
  g.declaration

/-- A declaration with decorators, which may be exported. -/
def decorated : Reader Tree := do
  let place ← start
  (do
    let decorators ← many g.decorator
    word "export"
    let exported ← g.exportRest place
    pure (other place (decorators ++ [exported]))) <|> g.declaration

/-- Words that start a declaration in the typed dialect, if it goes on as one. -/
def typedWords : List String :=
  ["abstract", "interface", "type", "enum", "namespace", "module", "declare"]

/-- A statement that starts with a word. -/
def statementFromWord (name : String) (place : Nat) : Reader Tree :=
  let plain := g.labelled <|> g.expressionStatement
  if ["if", "for", "while", "do", "switch", "try", "with", "return", "throw", "break", "continue",
      "debugger"].contains name then do
    let _ ← anyName
    g.wordStatement name place
  else if ["var", "const", "class", "function", "let", "async"].contains name then
    g.declaration <|> plain
  else if name = "import" then
    (do
      word "import"
      g.importRest place) <|> plain
  else if name = "export" then do
    word "export"
    g.exportRest place
  else if g.typed && typedWords.contains name then g.declaration <|> plain
  else plain

def statementRule : Reader Tree := do
  let place ← start
  let c ← next
  match c with
  | ';' => do
    mark ";"
    pure (other place [])
  | '\x7b' => g.braces
  | '@' => g.decorated <|> g.expressionStatement
  | _ =>
    match ← maybe (fun text => (anyName text).map fun (name, _) => (name, text)) with
    | some name => g.statementFromWord name place
    | none => g.expressionStatement

end Phrasebook.Script.Grammar

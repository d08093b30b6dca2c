import Phrasebook.Script.Binding

set_option autoImplicit false

/-!
Types. They mean nothing to messages, but the literals in them are in the tree, and where a type
ends decides how the text after it is read.
-/
namespace Phrasebook.Script.Grammar

open Reader

variable (g : Grammar)

/-- A type inside a type. -/
def someType : Reader (List Tree) := do
  let type ← g.type
  pure [type]

/-- The types that are put in between the pieces of a template literal type. -/
def templateTypes (type : Reader Tree) : Nat → List Char → Option (List Tree × List Char)
  | 0, _ => none
  | _ + 1, [] => none
  | fuel + 1, c :: rest =>
    if c = '`' then some ([], rest)
    else if c = '\\' then (escapeRest? rest).bind (templateTypes type fuel)
    else
      match c, rest with
      | '$', '{' :: inner => do
        let (found, after) ← (do let t ← type; mark "\x7d"; pure t) inner
        let (others, after') ← templateTypes type fuel after
        some (found :: others, after')
      | _, _ => templateTypes type fuel rest

/-- A name with dots and type arguments. -/
def typeName : Reader (List Tree) := do
  let _ ← freeName
  let _ ← many (do mark "."; anyName)
  orNone (do
    let types ← g.typeArguments
    pure [types])

/-- A type behind an arrow. -/
def functionType : Reader (List Tree) := do
  let types ← g.typeParameters
  let parameters ← g.parameters
  mark "=>"
  let result ← g.resultType
  pure (types ++ parameters ++ result)

/-- The type of what `new` makes. -/
def constructorType : Reader (List Tree) := do
  let _ ← took (word "abstract")
  word "new"
  g.functionType

/-! ### Members -/

/-- The condition on which a member is there or is read only. -/
def sign : Reader Unit := do
  let _ ← took (mark "+" <|> mark "-")

/-- The type of a member, behind a colon with its sign. -/
def memberType : Reader (List Tree) := do
  let _ ← took (do sign; mark "?")
  g.annotation

/-- Members by the type of their names. -/
def indexMember : Reader (List Tree) := do
  let _ ← took (do sign; word "readonly"; present (mark "["))
  mark "["
  let _ ← freeName
  let keys ←
    (do
      mark ":"
      g.someType) <|>
    (do
      word "in"
      let keys ← g.someType
      let names ← orNone (do word "as"; g.someType)
      pure (keys ++ names))
  mark "]"
  let type ← g.memberType
  pure (keys ++ type)

/-- Words that may stand in front of the name of a member. -/
def memberWords : List String :=
  ["public", "private", "protected", "static", "override", "readonly", "get", "set", "async"]

/-- The start of a property's name. -/
def nameAhead : Reader Unit := do
  present ((do let _ ← anyName) <|> (do let _ ← token string?) <|> (do let _ ← token number?) <|>
    mark "[" <|> mark "#")

/-- A member of an object type. -/
def typeMember : Reader (List Tree) :=
  g.indexMember <|>
  (do
    present (mark "(" <|> mark "<")
    g.signature) <|>
  (do
    word "new"
    present (mark "(" <|> mark "<")
    g.signature) <|>
  (do
    let _ ← many (do
      let _ ← oneOf memberWords
      nameAhead)
    let (key, _) ← g.propertyName
    let _ ← took (mark "?")
    let type ← (do present (mark "(" <|> mark "<"); g.signature) <|> g.annotation
    pure (key :: type))

/-- Members in braces, parted by commas, semicolons or line ends. -/
def objectType : Reader (List Tree) := do
  mark "\x7b"
  let _ ← took (mark "," <|> mark ";")
  let members ← many (do
    let member ← g.typeMember
    (do mark ",") <|> endStatement true false
    pure member)
  mark "\x7d"
  pure members.flatten

/-- An item of a tuple. -/
def tupleItem : Reader (List Tree) := do
  let _ ← took (mark "...")
  (do
    let _ ← freeName
    let _ ← took (mark "?")
    mark ":"
    g.someType) <|>
  (do
    let type ← g.someType
    let _ ← took (mark "?")
    pure type)

/-! ### Types with operators -/

/-- A type that no operator stands in front of. -/
def simpleType : Reader (List Tree) := do
  let place ← here
  (do
    let _ ← oneOf ["this", "null", "true", "false", "void"]
    pure []) <|>
  (do
    word "typeof"
    let argument ← (do
      word "import"
      g.arguments) <|> (do let _ ← freeName <|> (do word "this"; pure "this"); pure [])
    let _ ← many (do mark "."; let _ ← took (mark "#"); anyName)
    let types ← orNone (do sameLine; let types ← g.typeArguments; pure [types])
    pure (argument ++ types)) <|>
  g.typeName <|>
  (do
    let text ← string
    pure [text]) <|>
  (do
    let number ← number
    pure [number]) <|>
  (do
    mark "-"
    let number ← number
    pure [number]) <|>
  (do
    mark "`"
    fun text => templateTypes g.type (text.length + 1) text) <|>
  between "(" ")" g.someType <|>
  (do
    let items ← between "[" "]" (commaList g.tupleItem)
    pure items.flatten) <|>
  (do
    let members ← g.objectType
    pure [other place members])

/-- A type with the marks of arrays and look-ups behind it. -/
def suffixedType : Reader (List Tree) := do
  let type ← g.simpleType
  let suffixes ← many (do
    sameLine
    between "[" "]" (orNone g.someType))
  pure (type ++ suffixes.flatten)

/-- The words in front of a type. -/
def typeWord : Reader Unit :=
  (do
    let _ ← oneOf ["keyof", "readonly", "unique"]
    absent ((do let _ ← mark ".") <|> mark "<" <|> mark "=" <|> mark ";" <|> mark ")" <|>
      mark "," <|> mark "|" <|> mark "&" <|> mark ">" <|> mark "\x7d" <|> mark "]"))

/-- A type between the marks of unions and intersections. -/
def unaryType : Reader (List Tree) :=
  (do
    word "infer"
    let _ ← freeName
    orNone (do
      word "extends"
      let bound ← g.read (.type true)
      absent (mark "?")
      pure [bound])) <|>
  g.constructorType <|>
  g.functionType <|>
  (do
    let _ ← many typeWord
    g.suffixedType)

/-- The mark between two types of a union or an intersection. -/
def unionMark : Reader Unit :=
  (do absent (mark "||"); mark "|") <|> (do absent (mark "&&"); mark "&")

/-- A type; a plain one is no condition. -/
def typeRule (plain : Bool) : Reader Tree := do
  let place ← here
  let _ ← took unionMark
  let first ← g.unaryType
  let others ← many (do unionMark; g.unaryType)
  let choice ← if plain then pure [] else orNone (do
    sameLine
    word "extends"
    let bound ← g.read (.type true)
    mark "?"
    let yes ← g.type
    mark ":"
    let no ← g.type
    pure [bound, yes, no])
  pure (other place (first ++ others.flatten ++ choice))

end Phrasebook.Script.Grammar

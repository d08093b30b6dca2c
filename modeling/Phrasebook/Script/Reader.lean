import Phrasebook.Script.NumberLiteral
import Phrasebook.Script.Token
import Phrasebook.Source.Node
import Phrasebook.Text.Split

set_option autoImplicit false

/-!
Readers of scripts. A reader takes something from the start of the characters that are left, or
fails; a choice goes back to where it began. The place of a node is the number of characters that
are left where it starts.
-/
namespace Phrasebook.Script

/-- The tree of a script while it is read. -/
abbrev Tree := Source.Node Nat

/-- Takes something from the start of a text. -/
abbrev Reader := StateT (List Char) Option

namespace Reader

variable {α β : Type}

/-- Passes blanks and gives the place after them. -/
def here : Reader Nat := fun text =>
  let rest := (afterBlanks text).rest
  some (rest.length, rest)

/-- The same in front of an operand or a statement. -/
def start : Reader Nat := fun text =>
  let rest := (afterBlanksAtStart text).rest
  some (rest.length, rest)

/-- Passes blanks and then the characters of a mark. -/
def mark (chars : String) : Reader Unit := fun text =>
  (Text.dropStart chars.toList (afterBlanks text).rest).map ((), ·)

/-- Passes blanks and reads a token. -/
def token (read? : List Char → Option (α × List Char)) : Reader α := fun text =>
  read? (afterBlanks text).rest

/-- A name of any kind, words of the language among them. -/
def anyName : Reader String := token name?

/-- A word that stands by itself. -/
def word (text : String) : Reader Unit := do
  let name ← anyName
  if name = text then pure () else failure

/-- One of several words. -/
def oneOf (words : List String) : Reader String := do
  let name ← anyName
  if words.contains name then pure name else failure

/-- Whether a reader succeeds here; nothing is taken. -/
def ahead (reader : Reader α) : Reader Bool := fun text => some ((reader text).isSome, text)

/-- Fails where the other reader would succeed. -/
def absent (reader : Reader α) : Reader Unit := do
  if ← ahead reader then failure

/-- Fails where the other reader would fail; nothing is taken. -/
def present (reader : Reader α) : Reader Unit := do
  if ← ahead reader then pure () else failure

def maybe (reader : Reader α) : Reader (Option α) := (some <$> reader) <|> pure none

/-- Whether something was there to be taken. -/
def took (reader : Reader α) : Reader Bool := (do let _ ← reader; pure true) <|> pure false

/-- What a list of nodes reads if it is there, and else nothing. -/
def orNone (reader : Reader (List α)) : Reader (List α) := reader <|> pure []

/-- At most so many of a kind. -/
def atMost (reader : Reader α) : Nat → Reader (List α)
  | 0 => pure []
  | fuel + 1 => fun text =>
    match reader text with
    | some (first, rest) =>
      match atMost reader fuel rest with
      | some (others, rest) => some (first :: others, rest)
      | none => none
    | none => some ([], text)

/-- As many of a kind as there are; each takes a character at least. -/
def many (reader : Reader α) : Reader (List α) := fun text => atMost reader text.length text

/-- Goes on from a value as long as a step succeeds, at most so often. -/
def growAtMost (step : α → Reader α) : Nat → α → Reader α
  | 0, value => pure value
  | fuel + 1, value => fun text =>
    match step value text with
    | some (next, rest) => growAtMost step fuel next rest
    | none => some (value, text)

/-- Goes on from a value as long as a step succeeds; each takes a character at least. -/
def grow (step : α → Reader α) (value : α) : Reader α := fun text =>
  growAtMost step text.length value text

/-- One or more of a kind with a mark between each two. -/
def separated (by_ : String) (reader : Reader α) : Reader (List α) := do
  let first ← reader
  let others ← many (do mark by_; reader)
  pure (first :: others)

/-- Any number of a kind with commas between them, the last one allowed at the end. -/
def commaList (reader : Reader α) : Reader (List α) :=
  (do
    let items ← separated "," reader
    let _ ← took (mark ",")
    pure items) <|> pure []

/-- Any number of a kind with commas between them, where each may be left out. -/
def sparseList (reader : Reader (List α)) : Reader (List α) := do
  let first ← orNone reader
  let others ← many (do mark ","; orNone reader)
  pure (first ++ others.flatten)

/-- What stands between two marks. -/
def between (opening closing : String) (reader : Reader α) : Reader α := do
  mark opening
  let inner ← reader
  mark closing
  pure inner

/-- Succeeds if nothing but blanks and comments is left. -/
def ending : Reader Unit := fun text =>
  match (afterBlanks text).rest with
  | [] => some ((), [])
  | _ => none

/-- Whether the next token stands on a new line. -/
def onNewLine : Reader Bool := fun text => some ((afterBlanks text).newLine, text)

/-- Succeeds if the next token stands on the same line. -/
def sameLine : Reader Unit := do
  if ← onNewLine then failure

end Reader

/-! ### Words of the language -/

/-- Words that name nothing. -/
def reservedWords : List String := [
    "break", "case", "catch", "class", "const", "continue", "debugger", "default", "delete", "do",
    "else", "export", "extends", "false", "finally", "for", "function", "if", "import", "in",
    "instanceof", "new", "null", "return", "super", "switch", "this", "throw", "true", "try",
    "typeof", "var", "void", "while", "with"]

/-- A name that the language does not reserve. -/
def freeName : Reader String := do
  let name ← Reader.anyName
  if reservedWords.contains name then failure else pure name

/-- Syntax that is nothing but what stands in it. -/
def other (place : Nat) (children : List Tree) : Tree := .group place .other children

/-! ### How statements end -/

/-- A letter that goes on a word, for the words that go on an expression. -/
def goesOnWord : List Char → Bool
  | c :: _ => if c.toNat < 0x80 then c.isAlpha else Text.isWord c
  | [] => false

/-- Whether an expression goes on with the given text although it stands on a new line. -/
def goesOn (typed operand : Bool) (text : List Char) : Bool :=
  match text with
  | '.' :: c :: _ => !c.isDigit
  | '+' :: c :: _ => c ≠ '+'
  | '-' :: c :: _ => c ≠ '-'
  | '!' :: c :: _ => c = '='
  | '[' :: _ => !typed || operand
  | '(' :: _ => !typed || operand
  | 'i' :: 'n' :: rest =>
    match Text.dropStart "stanceof".toList rest with
    | some after => !goesOnWord after
    | none => !goesOnWord rest
  | c :: _ => "`,:;*%><=?^|&/.+-".toList.contains c
  | [] => false

/-- The end of a statement: a semicolon, or a place where none is needed. `operand` tells that an
operator could follow. -/
def endStatement (typed operand : Bool) : Reader Unit := fun text =>
  let passed := afterBlanks text
  match passed.rest with
  | [] => some ((), [])
  | ';' :: rest => some ((), rest)
  | '}' :: rest => some ((), '}' :: rest)
  | rest =>
    if (passed.newLine || (!operand && passed.commentLine)) && !goesOn typed operand rest then
      some ((), rest)
    else none

end Phrasebook.Script

import Phrasebook.Number.Digits
import Phrasebook.Text.Quoted

set_option autoImplicit false

/-!
Patterns, the meaning of a message text, and reading a text. A pattern is a sequence of literal
texts, arguments, choices by plural category and choices by value, and, inside plural choices,
places for the number.

Each reading function takes the characters that are left and returns those that are left after it; a
failure says how many were left where it arose.

An apostrophe is literal unless it stands before a special character, which starts a quotation that
ends at the next single apostrophe. Two apostrophes always stand for one.
-/
namespace Phrasebook.Message

/-! ### Patterns -/

/-- One part of a pattern. The `source` of an argument is its own text, braces included. -/
inductive Part where
  | literal (text : String)
  | pound
  | argument (name source : String)
  | plural (name source : String) (options : List (String × List Part)) (offset : Nat)
      (ordinal : Bool)
  | select (name source : String) (options : List (String × List Part))
  deriving Repr, Inhabited

/-- A parsed message. -/
abbrev Pattern := List Part

namespace Pattern

/-- Puts a text in front of a pattern; it joins the literal that stands there. -/
def prepend (text : List Char) : Pattern → Pattern
  | .literal next :: rest => .literal (String.ofList text ++ next) :: rest
  | rest => .literal (String.ofList text) :: rest

end Pattern

/-! ### Reading -/

/-- Why a text is no message. -/
inductive Reason where
  | unexpectedClose
  | expected (wanted : Char) (found : Option Char)
  | emptyName
  | missingType
  | invalidOffset
  | expectedSelector
  | noOption
  | unexpectedEnd
  /-- The offset has digits that form no decimal number. -/
  | offsetNotDecimal
  deriving DecidableEq, Repr

/-- A failure with the number of characters that were left. -/
structure Stuck where
  reason : Reason
  remaining : Nat
  deriving DecidableEq, Repr

/-- The characters at which a name ends. -/
def endsName (c : Char) : Bool :=
  c = ' ' || c = '\t' || c = '\r' || c = '\n' || c = ',' || c = '{' || c = '}' || c = '#' ||
    c = '\''

def skipBlanks (text : List Char) : List Char := text.dropWhile Text.isBlank

/-- A name and what follows it. -/
def readName (text : List Char) : List Char × List Char :=
  (text.takeWhile (!endsName ·), text.dropWhile (!endsName ·))

def fail {α : Type} (reason : Reason) (rest : List Char) : Except Stuck α :=
  .error ⟨reason, rest.length⟩

/-- Passes one given character. -/
def expect (wanted : Char) : List Char → Except Stuck (List Char)
  | [] => fail (.expected wanted none) []
  | c :: rest => if c = wanted then .ok rest else fail (.expected wanted (some c)) (c :: rest)

/-- The characters that a quotation can start with. -/
def isSpecial (inPlural : Bool) (c : Char) : Bool := c = '{' || c = '}' || (c = '#' && inPlural)

/-- The rest of a quotation, up to its closing apostrophe or the end. -/
def quotation : List Char → List Char × List Char
  | '\'' :: '\'' :: rest =>
    let (text, after) := quotation rest
    ('\'' :: text, after)
  | '\'' :: rest => ([], rest)
  | c :: rest =>
    let (text, after) := quotation rest
    (c :: text, after)
  | [] => ([], [])

/-- What an apostrophe stands for, given the characters after it. -/
def apostrophe (inPlural : Bool) : List Char → List Char × List Char
  | [] => (['\''], [])
  | c :: rest =>
    if c = '\'' then (['\''], rest)
    else if isSpecial inPlural c then quotation (c :: rest)
    else (['\''], c :: rest)

/-- Passes the style of an argument, up to the brace that closes the argument. -/
def skipStyle : Nat → List Char → Except Stuck (List Char)
  | _, [] => fail .unexpectedEnd []
  | depth, '{' :: rest => skipStyle (depth + 1) rest
  | 0, '}' :: rest => .ok ('}' :: rest)
  | depth + 1, '}' :: rest => skipStyle depth rest
  | depth, _ :: rest => skipStyle depth rest

/-- Drops a given beginning. -/
def dropBeginning : List Char → List Char → Option (List Char)
  | [], rest => some rest
  | _ :: _, [] => none
  | w :: ws, c :: cs => if w = c then dropBeginning ws cs else none

/-- The offset of a plural choice, zero where none is written. -/
def readOffset (text : List Char) : Except Stuck (Nat × List Char) :=
  let text := skipBlanks text
  match dropBeginning "offset:".toList text with
  | none => .ok (0, text)
  | some rest =>
    let rest := skipBlanks rest
    let digits := rest.takeWhile Text.isDigit
    let after := rest.dropWhile Text.isDigit
    if digits = [] then fail .invalidOffset rest
    else if digits.all (fun c => (Text.decimalValue? c).isSome) ∧
        digits.length ≤ Number.digitLimit then
      .ok (Number.ofDigits digits, after)
    else fail .offsetNotDecimal after

/-- The text between two places, the later of which has `after` left. -/
def between (start after : List Char) : String :=
  String.ofList (start.take (start.length - after.length))

/-- The opening brace of an argument and its name, with the blanks around it. -/
def argumentName (start : List Char) : Except Stuck (String × List Char) := do
  let rest ← expect '{' start
  let (name, rest) := readName (skipBlanks rest)
  if name = [] then fail .emptyName rest else .ok (String.ofList name, skipBlanks rest)

/-- The comma after the name of an argument and its type, with the blanks around it. -/
def argumentKind (text : List Char) : Except Stuck (String × List Char) := do
  let rest ← expect ',' text
  let (kind, rest) := readName (skipBlanks rest)
  .ok (String.ofList kind, skipBlanks rest)

/-- The comma before the options of a choice, and its offset where it can have one. -/
def choiceStart (hasOffset : Bool) (text : List Char) : Except Stuck (Nat × List Char) := do
  let rest ← expect ',' text
  if hasOffset then readOffset rest else .ok (0, rest)

/-- The closing brace of a choice, which has at least one option. -/
def choiceEnd (choices : List (String × Pattern)) (text : List Char) : Except Stuck (List Char) :=
  if choices.isEmpty then fail .noOption text else expect '}' text

/-- The style of an argument of some other type, and its closing brace. -/
def styleEnd (kind : String) (text : List Char) : Except Stuck (List Char) :=
  if kind.isEmpty then fail .missingType text
  else do
    let rest ← match text with
      | ',' :: _ => skipStyle 0 text
      | _ => .ok text
    expect '}' rest

/-- The selector of an option and the opening brace of its body. -/
def optionStart (text : List Char) : Except Stuck (String × List Char) :=
  let (selector, rest) := readName text
  if selector = [] then fail .expectedSelector rest
  else do
    let rest ← expect '{' (skipBlanks rest)
    .ok (String.ofList selector, rest)

mutual

/-- A pattern up to a closing brace or the end. -/
def parts : Nat → Bool → List Char → Except Stuck (Pattern × List Char)
  | 0, _, rest => fail .unexpectedEnd rest
  | _ + 1, _, [] => .ok ([], [])
  | fuel + 1, inPlural, c :: rest =>
    if c = '{' then do
      let (part, after) ← argument fuel inPlural (c :: rest)
      let (more, after) ← parts fuel inPlural after
      .ok (part :: more, after)
    else if c = '}' then .ok ([], c :: rest)
    else if c = '#' ∧ inPlural then do
      let (more, after) ← parts fuel inPlural rest
      .ok (.pound :: more, after)
    else if c = '\'' then do
      let (text, after) := apostrophe inPlural rest
      let (more, after) ← parts fuel inPlural after
      .ok (more.prepend text, after)
    else do
      let (more, after) ← parts fuel inPlural rest
      .ok (more.prepend [c], after)

/-- An argument, from its opening to its closing brace. -/
def argument : Nat → Bool → List Char → Except Stuck (Part × List Char)
  | 0, _, rest => fail .unexpectedEnd rest
  | fuel + 1, inPlural, start => do
    let (name, rest) ← argumentName start
    match rest with
    | '}' :: after => .ok (.argument name (between start after), after)
    | _ =>
      let (kind, rest) ← argumentKind rest
      if kind = "plural" ∨ kind = "selectordinal" then
        let (offset, rest) ← choiceStart (kind == "plural") rest
        let (choices, rest) ← options fuel true rest
        let after ← choiceEnd choices rest
        .ok (.plural name (between start after) choices offset (kind == "selectordinal"), after)
      else if kind = "select" then
        let (_, rest) ← choiceStart false rest
        let (choices, rest) ← options fuel inPlural rest
        let after ← choiceEnd choices rest
        .ok (.select name (between start after) choices, after)
      else
        let after ← styleEnd kind rest
        .ok (.argument name (between start after), after)

/-- The options of a choice, up to a closing brace or the end. -/
def options : Nat → Bool → List Char → Except Stuck (List (String × Pattern) × List Char)
  | 0, _, rest => fail .unexpectedEnd rest
  | fuel + 1, inPlural, text =>
    match skipBlanks text with
    | [] => .ok ([], [])
    | '}' :: rest => .ok ([], '}' :: rest)
    | text => do
      let (selector, rest) ← optionStart text
      let (body, rest) ← parts fuel inPlural rest
      let rest ← expect '}' rest
      let (more, rest) ← options fuel inPlural rest
      .ok ((selector, body) :: more, rest)

end

/-- Enough steps for a text of any shape. -/
def stepsFor (text : List Char) : Nat := 2 * text.length + 2

/-- The pattern that a text is. -/
def parseChars (text : List Char) : Except Stuck Pattern := do
  let (pattern, rest) ← parts (stepsFor text) false text
  if rest.isEmpty then .ok pattern else fail .unexpectedClose rest

/-- A failure of reading with its place in the text. -/
structure SyntaxError where
  reason : Reason
  position : Nat
  deriving DecidableEq, Repr

namespace Reason

def text : Reason → String
  | unexpectedClose => "unexpected '\x7d'"
  | expected wanted found =>
    let shown := match found with
      | some c => Text.quoted (String.singleton c)
      | none => "end of message"
    "expected " ++ Text.quoted (String.singleton wanted) ++ ", found " ++ shown
  | emptyName => "empty argument name"
  | missingType => "missing argument type"
  | invalidOffset => "invalid plural offset"
  | expectedSelector => "expected selector"
  | noOption => "expected at least one option"
  | unexpectedEnd => "unexpected end of message"
  | offsetNotDecimal => "offset is not a decimal number"

end Reason

namespace SyntaxError

def text (e : SyntaxError) : String := e.reason.text ++ " at position " ++ toString e.position

/-- An offset that is no decimal number is not reported as a fault of the message. -/
def isReported (e : SyntaxError) : Bool := e.reason != .offsetNotDecimal

end SyntaxError

/-- Reads a message text. -/
def parse (text : String) : Except SyntaxError Pattern :=
  match parseChars text.toList with
  | .ok pattern => .ok pattern
  | .error stuck => .error ⟨stuck.reason, text.toList.length - stuck.remaining⟩

end Phrasebook.Message

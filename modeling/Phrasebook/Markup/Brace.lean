import Phrasebook.Text.Quoted

set_option autoImplicit false

/-!
The closing brace of an expression inside markup. Strings, template literals with their nested
expressions, and comments are passed whole; brackets of any kind nest.

Each function takes the characters that are left and returns those that are left after it.
-/
namespace Phrasebook.Markup

/-- Why no closing brace is found. -/
inductive BraceError where
  | openString
  | openTemplate
  | openExpression
  | unexpected (c : Char)
  deriving DecidableEq, Repr

def BraceError.text : BraceError → String
  | openString => "unterminated string literal"
  | openTemplate => "unterminated template literal"
  | openExpression => "unterminated expression"
  | unexpected c => "unexpected " ++ Text.quoted (String.singleton c)

def isQuote (c : Char) : Bool := c = '\'' || c = '"'

def opensBracket (c : Char) : Bool := c = '{' || c = '(' || c = '['

def closesBracket (c : Char) : Bool := c = '}' || c = ')' || c = ']'

/-- Passes a string after its opening quote. A backslash takes the next character with it. -/
def skipString (quote : Char) : List Char → Except BraceError (List Char)
  | [] => .error .openString
  | '\\' :: [] => .error .openString
  | '\\' :: _ :: rest => skipString quote rest
  | c :: rest => if c = quote then .ok rest else skipString quote rest

/-- A line comment lasts up to the line feed. -/
def skipLine (text : List Char) : List Char := text.dropWhile (· ≠ '\n')

/-- Passes a block comment after its opening; none if it does not end. -/
def skipBlock? : List Char → Option (List Char)
  | [] => none
  | '*' :: '/' :: rest => some rest
  | _ :: rest => skipBlock? rest

mutual

/-- Passes a template literal after its opening mark. -/
def skipTemplate : Nat → List Char → Except BraceError (List Char)
  | 0, _ => .error .openTemplate
  | _ + 1, [] => .error .openTemplate
  | fuel + 1, c :: rest =>
    if c = '\\' then skipTemplate fuel rest.tail
    else if c = '`' then .ok rest
    else
      match c, rest with
      | '$', '{' :: inner => do
        let close ← toClosing fuel 0 inner
        skipTemplate fuel close.tail
      | _, _ => skipTemplate fuel rest

/-- The characters from the closing brace of an expression on, where `depth` brackets are open. -/
def toClosing : Nat → Nat → List Char → Except BraceError (List Char)
  | 0, _, _ => .error .openExpression
  | _ + 1, _, [] => .error .openExpression
  | fuel + 1, depth, c :: rest =>
    if isQuote c then do toClosing fuel depth (← skipString c rest)
    else if c = '`' then do toClosing fuel depth (← skipTemplate fuel rest)
    else
      match c, rest with
      | '/', '/' :: more => toClosing fuel depth (skipLine more)
      | '/', '*' :: more =>
        match skipBlock? more with
        | some after => toClosing fuel depth after
        | none => .error .openExpression
      | _, _ =>
        if opensBracket c then toClosing fuel (depth + 1) rest
        else if closesBracket c then
          match depth with
          | 0 => if c = '}' then .ok (c :: rest) else .error (.unexpected c)
          | depth + 1 => toClosing fuel depth rest
        else toClosing fuel depth rest

end

/-- The number of the closing brace of the expression that starts at an offset. -/
def closingBrace (source : List Char) (start : Nat) : Except BraceError Nat := do
  let rest ← toClosing (source.length + 1) 0 (source.drop start)
  return source.length - rest.length

end Phrasebook.Markup

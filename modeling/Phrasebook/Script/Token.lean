import Phrasebook.Script.Escape

set_option autoImplicit false

/-!
The tokens of scripts. Each function takes the characters that are left and returns a token with
those that are left after it. Which token is read where is for the grammar to say, as a slash
divides in one place and opens a regular expression in another.
-/
namespace Phrasebook.Script

/-- Spaces of any width and line ends; also the characters of no width that part nothing. -/
def isScriptBlank (c : Char) : Bool :=
  c = ' ' || c = '\t' || c = '\n' || c = '\x0b' || c = '\x0c' || c = '\r' || c = '\u00A0' ||
    c = '\u1680' || ('\u2000' ≤ c && c ≤ '\u200B') || c = '\u2028' || c = '\u2029' ||
    c = '\u202F' || c = '\u205F' || c = '\u2060' || c = '\u3000' || c = '\uFEFF'

/-- The line ends at which a statement may end by itself. -/
def endsLine (c : Char) : Bool := c = '\n' || c = '\u2028' || c = '\u2029'

/-- The characters that stand for themselves as punctuation. -/
def isPunctuation (c : Char) : Bool :=
  ":;`\"'@#.,|^&<=>+-*/\\%?!~()[]\x7b\x7d".toList.contains c

/-- A character that a name can hold after its first one. -/
def isNamePart (c : Char) : Bool :=
  !(c.toNat < 0x20 || isScriptBlank c || isPunctuation c)

/-- A character that a name can start with. -/
def isNameStart (c : Char) : Bool := isNamePart c && !c.isDigit

/-- An escaped character of a name. -/
def nameEscape? (text : List Char) : Option (List Char × List Char) :=
  match text with
  | '\\' :: 'u' :: rest =>
    match (bracedHex? rest).or (hexRun? 4 rest) with
    | some (_, after) => some (text.take (text.length - after.length), after)
    | none => none
  | _ => none

/-- The rest of a name, as it is written. -/
def nameRest : Nat → List Char → List Char × List Char
  | 0, text => ([], text)
  | _ + 1, [] => ([], [])
  | fuel + 1, c :: rest =>
    if isNamePart c then
      let (name, after) := nameRest fuel rest
      (c :: name, after)
    else
      match nameEscape? (c :: rest) with
      | some (written, after) =>
        let (name, after) := nameRest fuel after
        (written ++ name, after)
      | none => ([], c :: rest)

/-- A name, as it is written. -/
def name? (text : List Char) : Option (String × List Char) :=
  match text with
  | [] => none
  | c :: rest =>
    if isNameStart c then
      let (name, after) := nameRest rest.length rest
      some (String.ofList (c :: name), after)
    else
      match nameEscape? text with
      | some (written, after) =>
        let (name, after) := nameRest after.length after
        some (String.ofList (written ++ name), after)
      | none => none

/-- The characters after an escape's backslash and what follows them. Numbers need their digits. -/
def escapeRest? (text : List Char) : Option (List Char) :=
  match text with
  | [] => none
  | c :: rest =>
    if c = 'u' then ((bracedHex? rest).or (hexRun? 4 rest)).map (·.2)
    else if c = 'x' then (hexRun? 2 rest).map (·.2)
    else if isOctal c then some (octalRun 2 rest).2
    else if c = '\r' then
      match rest with
      | '\n' :: after => some after
      | _ => some rest
    else some rest

/-- Passes the rest of a string after its opening quote. -/
def stringRest? (quote : Char) : Nat → List Char → Option (List Char)
  | 0, _ => none
  | _ + 1, [] => none
  | fuel + 1, c :: rest =>
    if c = quote then some rest
    else if c = '\\' then
      match escapeRest? rest with
      | some after => stringRest? quote fuel after
      | none => none
    else if c = '\n' ∨ c = '\r' then none
    else stringRest? quote fuel rest

/-- A string with its quotes, and what follows it. -/
def string? (text : List Char) : Option (List Char × List Char) :=
  match text with
  | c :: rest =>
    if c = '"' ∨ c = '\'' then
      (stringRest? c text.length rest).map fun after =>
        (text.take (text.length - after.length), after)
    else none
  | [] => none

/-- Digits with single underscores between them. -/
def digitRun (isDigit : Char → Bool) : List Char → List Char × List Char
  | [] => ([], [])
  | '_' :: rest => ([], '_' :: rest)
  | c :: '_' :: d :: more =>
    if isDigit c then
      if isDigit d then
        let (ds, after) := digitRun isDigit (d :: more)
        (c :: '_' :: ds, after)
      else ([c], '_' :: d :: more)
    else ([], c :: '_' :: d :: more)
  | c :: rest =>
    if isDigit c then
      let (ds, after) := digitRun isDigit rest
      (c :: ds, after)
    else ([], c :: rest)

/-- Passes the mark of a big integer. -/
def passBigMark (text : List Char) : List Char :=
  match text with
  | 'n' :: rest => rest
  | _ => text

/-- Passes an exponent, if one stands there. -/
def passExponent (text : List Char) : List Char :=
  match text with
  | mark :: rest =>
    if mark = 'e' ∨ mark = 'E' then
      let ds := match rest with
        | '+' :: ds => ds
        | '-' :: ds => ds
        | ds => ds
      match digitRun Char.isDigit ds with
      | ([], _) => text
      | (_, after) => after
    else text
  | [] => []

/-- A run of digits that a point may follow. -/
def takesPoint (digits : List Char) : Bool :=
  match digits with
  | ['0'] => true
  | '0' :: d :: _ => d ≠ '0' && d ≠ '_'
  | _ => true

/-- What follows a number. -/
def numberRest? (text : List Char) : Option (List Char) :=
  let based (isDigit : Char → Bool) (digits : List Char) : Option (List Char) :=
    match digitRun isDigit digits with
    | ([], _) => some (text.drop 1)
    | (_, after) => some (passBigMark after)
  match text with
  | '0' :: 'x' :: ds => based isHex ds
  | '0' :: 'X' :: ds => based isHex ds
  | '0' :: 'o' :: ds => based isOctal ds
  | '0' :: 'O' :: ds => based isOctal ds
  | '0' :: 'b' :: ds => based (fun c => c = '0' || c = '1') ds
  | '0' :: 'B' :: ds => based (fun c => c = '0' || c = '1') ds
  | '.' :: ds =>
    match digitRun Char.isDigit ds with
    | ([], _) => none
    | (_, after) => some (passExponent after)
  | _ =>
    match digitRun Char.isDigit text with
    | ([], _) => none
    | (digits, after) =>
      match after with
      | 'n' :: rest => some rest
      | '.' :: rest =>
        if takesPoint digits then some (passExponent (digitRun Char.isDigit rest).2)
        else some after
      | _ => some (if takesPoint digits then passExponent after else after)

/-- A number as it is written, and what follows it. -/
def number? (text : List Char) : Option (String × List Char) :=
  (numberRest? text).map fun after =>
    (String.ofList (text.take (text.length - after.length)), after)

/-- Passes the pattern of a regular expression up to its closing slash; `inClass` inside brackets. -/
def patternRest? (inClass : Bool) : List Char → Option (List Char)
  | [] => none
  | '\\' :: c :: rest => if c = '\n' then none else patternRest? inClass rest
  | '\\' :: [] => none
  | c :: rest =>
    if c = '\n' then none
    else if inClass then patternRest? (c ≠ ']') rest
    else if c = '/' then some rest
    else patternRest? (c = '[') rest

def isFlag (c : Char) : Bool := c.isAlphanum || c = '_'

/-- What follows a regular expression. -/
def regexRest? (text : List Char) : Option (List Char) :=
  match text with
  | '/' :: c :: rest =>
    if c = '/' ∨ c = '*' then none
    else (patternRest? false (c :: rest)).map (List.dropWhile isFlag)
  | _ => none

/-! ### What stands between tokens -/

/-- A line comment ends at line ends of every kind. -/
def isCommentEnd (c : Char) : Bool := c = '\r' || endsLine c

/-- What was passed between two tokens. -/
structure Passed where
  rest : List Char
  /-- A line ended outside block comments. -/
  newLine : Bool
  /-- A line ended inside a block comment. -/
  commentLine : Bool

/-- Where between two tokens a reader is. -/
inductive Between where
  | blanks
  | lineComment
  /-- In a comment that markup opens. -/
  | markupComment
  /-- In a block comment that starts at the given text. -/
  | blockComment (start : List Char)
  /-- After the asterisk of a block comment. -/
  | blockAsterisk (start : List Char)

/-- Passes blanks and comments. Where no operator can stand, the comment marks of markup open a
comment as well, which lasts to the end of the line. A block comment that does not end is none. -/
def passBetween (markupComments : Bool) : Between → Bool → Bool → List Char → Passed
  | .blockComment start, newLine, commentLine, [] => ⟨start, newLine, commentLine⟩
  | .blockAsterisk start, newLine, commentLine, [] => ⟨start, newLine, commentLine⟩
  | _, newLine, commentLine, [] => ⟨[], newLine, commentLine⟩
  | .lineComment, newLine, commentLine, c :: rest =>
    if isCommentEnd c then
      passBetween markupComments .blanks (newLine || endsLine c) commentLine rest
    else passBetween markupComments .lineComment newLine commentLine rest
  | .markupComment, newLine, commentLine, c :: rest =>
    if endsLine c then passBetween markupComments .blanks true commentLine rest
    else passBetween markupComments .markupComment newLine commentLine rest
  | .blockComment start, newLine, commentLine, c :: rest =>
    if c = '*' then passBetween markupComments (.blockAsterisk start) newLine commentLine rest
    else passBetween markupComments (.blockComment start) newLine (commentLine || endsLine c) rest
  | .blockAsterisk start, newLine, commentLine, c :: rest =>
    if c = '/' then passBetween markupComments .blanks newLine commentLine rest
    else if c = '*' then passBetween markupComments (.blockAsterisk start) newLine commentLine rest
    else passBetween markupComments (.blockComment start) newLine (commentLine || endsLine c) rest
  | .blanks, newLine, commentLine, '/' :: '/' :: rest =>
    passBetween markupComments .lineComment newLine commentLine rest
  | .blanks, newLine, commentLine, '/' :: '*' :: rest =>
    passBetween markupComments (.blockComment ('/' :: '*' :: rest)) newLine commentLine rest
  | .blanks, newLine, commentLine, '<' :: '!' :: '-' :: '-' :: rest =>
    if markupComments then passBetween markupComments .markupComment newLine commentLine rest
    else ⟨'<' :: '!' :: '-' :: '-' :: rest, newLine, commentLine⟩
  | .blanks, newLine, commentLine, '-' :: '-' :: '>' :: rest =>
    if markupComments then passBetween markupComments .markupComment newLine commentLine rest
    else ⟨'-' :: '-' :: '>' :: rest, newLine, commentLine⟩
  | .blanks, newLine, commentLine, c :: rest =>
    if isScriptBlank c then
      passBetween markupComments .blanks (newLine || endsLine c) commentLine rest
    else ⟨c :: rest, newLine, commentLine⟩

/-- What follows the blanks and comments in front of an operator or other mark. -/
def afterBlanks (text : List Char) : Passed := passBetween false .blanks false false text

/-- What follows the blanks and comments in front of an operand or a statement. -/
def afterBlanksAtStart (text : List Char) : Passed := passBetween true .blanks false false text

end Phrasebook.Script

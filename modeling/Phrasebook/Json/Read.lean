import Phrasebook.Json.Basic
import Phrasebook.Number.Digits
import Phrasebook.Text.Class

set_option autoImplicit false

/-!
Reading JSON text. Besides the values of the standard, the names of infinity and of the value that
is not a number are read. Of two entries with one key the last value counts.
-/
namespace Phrasebook.Json

open Text (CodePoints)
open Number (Double)

/-- Why a text is no JSON value. -/
inductive ReadFailure where
  | malformed
  /-- A whole number with more digits than are read. -/
  | tooManyDigits
  deriving DecidableEq, Repr

def isJsonBlank (c : Char) : Bool := c = ' ' || c = '\t' || c = '\n' || c = '\r'

def skipBlanks (text : List Char) : List Char := text.dropWhile isJsonBlank

/-- Four hexadecimal digits and what follows them. -/
def readHex4? : List Char → Option (Nat × List Char)
  | a :: b :: c :: d :: rest =>
    if [a, b, c, d].all fun x => (Text.hexValue? x).isSome then
      some (Text.hexNumber [a, b, c, d], rest)
    else none
  | _ => none

/-- What a letter after a backslash stands for. -/
def escapeOf? (c : Char) : Option Nat :=
  match c with
  | '"' => some 0x22
  | '\\' => some 0x5C
  | '/' => some 0x2F
  | 'b' => some 0x8
  | 'f' => some 0xC
  | 'n' => some 0xA
  | 'r' => some 0xD
  | 't' => some 0x9
  | _ => none

/-- The code points of a string after its opening mark, and what follows its closing mark. A high
surrogate joins a low one that is written right after it. -/
def readString : Nat → List Char → Except ReadFailure (CodePoints × List Char)
  | 0, _ => .error .malformed
  | _ + 1, [] => .error .malformed
  | fuel + 1, c :: rest =>
    if c = '"' then .ok ([], rest)
    else if c = '\\' then
      match rest with
      | 'u' :: rest =>
        match readHex4? rest with
        | none => .error .malformed
        | some (code, rest) => do
          let (code, rest) := match rest with
            | '\\' :: 'u' :: low =>
              match readHex4? low with
              | some (second, after) =>
                if Text.isHighSurrogate code ∧ Text.isLowSurrogate second then
                  (0x10000 + (code - 0xD800) * 0x400 + (second - 0xDC00), after)
                else (code, rest)
              | none => (code, rest)
            | _ => (code, rest)
          let (more, after) ← readString fuel rest
          .ok (code :: more, after)
      | e :: rest =>
        match escapeOf? e with
        | some code => do
          let (more, after) ← readString fuel rest
          .ok (code :: more, after)
        | none => .error .malformed
      | [] => .error .malformed
    else if c.toNat < 0x20 then .error .malformed
    else do
      let (more, after) ← readString fuel rest
      .ok (c.toNat :: more, after)

/-- A given word, and what follows it. -/
def word? : List Char → List Char → Option (List Char)
  | [], rest => some rest
  | _ :: _, [] => none
  | w :: ws, c :: cs => if w = c then word? ws cs else none

/-- The exponent of a number, if a whole one stands there. -/
def readExponent (text : List Char) : Option Int × List Char :=
  match text with
  | mark :: rest =>
    if mark = 'e' ∨ mark = 'E' then
      let (negative, ds) := match rest with
        | '-' :: ds => (true, ds)
        | '+' :: ds => (false, ds)
        | ds => (false, ds)
      let digits := ds.takeWhile Char.isDigit
      if digits = [] then (none, text)
      else
        let power : Int := Number.ofDigits digits
        (some (if negative then -power else power), ds.dropWhile Char.isDigit)
    else (none, text)
  | [] => (none, [])

/-- The fraction digits of a number, if a point and one digit at least stand there. -/
def readFraction (text : List Char) : List Char × List Char :=
  match text with
  | '.' :: rest =>
    let digits := rest.takeWhile Char.isDigit
    if digits = [] then ([], text) else (digits, rest.dropWhile Char.isDigit)
  | _ => ([], text)

/-- A number: whole unless it has a fraction or an exponent. -/
def readNumber (negative : Bool) (text : List Char) : Except ReadFailure (Json × List Char) :=
  let whole := match text with
    | '0' :: _ => ['0']
    | _ => text.takeWhile Char.isDigit
  if whole = [] then .error .malformed
  else
    let rest := text.drop whole.length
    let (fraction, afterFraction) := readFraction rest
    let (power, after) := readExponent afterFraction
    if fraction = [] ∧ power = none then
      if Number.digitLimit < whole.length then .error .tooManyDigits
      else .ok (int (Number.Decimal.signed negative (Number.ofDigits whole)), after)
    else
      let exponent := power.getD 0 - fraction.length
      .ok (double (Double.ofDecimal negative (Number.ofDigits (whole ++ fraction)) exponent), after)

mutual

/-- A value at the start of a text, and what follows it. -/
def readValue : Nat → List Char → Except ReadFailure (Json × List Char)
  | 0, _ => .error .malformed
  | _ + 1, [] => .error .malformed
  | fuel + 1, c :: rest =>
    if c = '"' then do
      let (text, after) ← readString (rest.length + 1) rest
      .ok (string text, after)
    else if c = '{' then
      match skipBlanks rest with
      | '}' :: after => .ok (object [], after)
      | inner => do
        let (entries, after) ← readEntries fuel inner
        .ok (object (Dictionary.ofPairs entries), after)
    else if c = '[' then
      match skipBlanks rest with
      | ']' :: after => .ok (array [], after)
      | inner => do
        let (items, after) ← readItems fuel inner
        .ok (array items, after)
    else if c = '-' then
      match word? "Infinity".toList rest with
      | some after => .ok (double (.infinity true), after)
      | none => readNumber true rest
    else if c.isDigit then readNumber false (c :: rest)
    else
      match word? "null".toList (c :: rest), word? "true".toList (c :: rest),
        word? "false".toList (c :: rest) with
      | some after, _, _ => .ok (null, after)
      | _, some after, _ => .ok (bool true, after)
      | _, _, some after => .ok (bool false, after)
      | _, _, _ =>
        match word? "NaN".toList (c :: rest), word? "Infinity".toList (c :: rest) with
        | some after, _ => .ok (double .nan, after)
        | _, some after => .ok (double (.infinity false), after)
        | _, _ => .error .malformed

/-- The items of an array up to its closing bracket. -/
def readItems : Nat → List Char → Except ReadFailure (List Json × List Char)
  | 0, _ => .error .malformed
  | fuel + 1, text => do
    let (item, rest) ← readValue fuel text
    match skipBlanks rest with
    | ',' :: rest => do
      let (items, after) ← readItems fuel (skipBlanks rest)
      .ok (item :: items, after)
    | ']' :: after => .ok ([item], after)
    | _ => .error .malformed

/-- The entries of an object up to its closing brace. -/
def readEntries : Nat → List Char → Except ReadFailure (List (CodePoints × Json) × List Char)
  | 0, _ => .error .malformed
  | fuel + 1, text =>
    match text with
    | '"' :: rest => do
      let (key, rest) ← readString (rest.length + 1) rest
      match skipBlanks rest with
      | ':' :: rest => do
        let (value, rest) ← readValue fuel (skipBlanks rest)
        match skipBlanks rest with
        | ',' :: rest => do
          let (entries, after) ← readEntries fuel (skipBlanks rest)
          .ok ((key, value) :: entries, after)
        | '}' :: after => .ok ([(key, value)], after)
        | _ => .error .malformed
      | _ => .error .malformed
    | _ => .error .malformed

end

/-- The value that a whole text is. -/
def read (text : List Char) : Except ReadFailure Json := do
  let (value, rest) ← readValue (2 * text.length + 2) (skipBlanks text)
  if (skipBlanks rest).isEmpty then .ok value else .error .malformed

end Phrasebook.Json

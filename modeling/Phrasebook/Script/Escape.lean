import Phrasebook.Text.Class
import Phrasebook.Text.CodePoints

set_option autoImplicit false

/-!
Escapes in string and template literals, and the text that a literal's spelling stands for. Octal
escapes belong to string literals only; an escape that has no meaning leaves a template without a
value.
-/
namespace Phrasebook.Script

open Text (CodePoints)

/-- What a backslash and the characters after it are. -/
inductive Escape where
  /-- A code point by its number. -/
  | number (code : Nat)
  /-- Up to three octal digits. -/
  | octal (digits : List Char)
  /-- A line end that is left out. -/
  | continuation
  /-- Any other character. -/
  | plain (c : Char)
  deriving DecidableEq, Repr

def isHex (c : Char) : Bool := (Text.hexValue? c).isSome

def isOctal (c : Char) : Bool := '0' ≤ c && c ≤ '7'

def isLineEnd (c : Char) : Bool := c = '\n' || c = '\r' || c = '\u2028' || c = '\u2029'

/-- A fixed number of hexadecimal digits and what follows them. -/
def hexRun? (count : Nat) (text : List Char) : Option (Nat × List Char) :=
  let run := text.take count
  if run.length = count ∧ run.all isHex then some (Text.hexNumber run, text.drop count) else none

/-- Hexadecimal digits in braces and what follows them. -/
def bracedHex? (text : List Char) : Option (Nat × List Char) :=
  match text with
  | '{' :: rest =>
    let run := rest.takeWhile isHex
    match rest.dropWhile isHex with
    | '}' :: after => if run = [] then none else some (Text.hexNumber run, after)
    | _ => none
  | _ => none

/-- At most so many octal digits and what follows them. -/
def octalRun (count : Nat) (text : List Char) : List Char × List Char :=
  let run := (text.take count).takeWhile isOctal
  (run, text.drop run.length)

/-- The escape that starts with a character, and what follows it. -/
def readEscape (c : Char) (rest : List Char) : Escape × List Char :=
  if c = 'u' then
    match (bracedHex? rest).or (hexRun? 4 rest) with
    | some (code, after) => (.number code, after)
    | none => (.plain c, rest)
  else if c = 'x' then
    match hexRun? 2 rest with
    | some (code, after) => (.number code, after)
    | none => (.plain c, rest)
  else if isOctal c then
    let (more, after) := octalRun (if c ≤ '3' then 2 else 1) rest
    (.octal (c :: more), after)
  else if c = '\r' then
    match rest with
    | '\n' :: after => (.continuation, after)
    | _ => (.continuation, rest)
  else if isLineEnd c then (.continuation, rest)
  else (.plain c, rest)

/-- The letters that stand for a control character. -/
def controlOf? (c : Char) : Option Nat :=
  match c with
  | 'n' => some 0xA
  | 't' => some 0x9
  | 'r' => some 0xD
  | 'b' => some 0x8
  | 'f' => some 0xC
  | 'v' => some 0xB
  | _ => none

def octalNumber (digits : List Char) : Nat :=
  digits.foldl (fun value c => 8 * value + (c.toNat - 0x30)) 0

/-- The text that an escape stands for; none if it has no meaning. -/
def Escape.meaning (inTemplate : Bool) : Escape → Option CodePoints
  | number code => if code ≤ 0x10FFFF then some [code] else none
  | octal digits =>
    if digits = ['0'] then some [0]
    else if inTemplate then none
    else some [octalNumber digits]
  | continuation => some []
  | plain c =>
    if c = 'u' ∨ c = 'x' then none
    else if inTemplate ∧ (c = '8' ∨ c = '9') then none
    else some [(controlOf? c).getD c.toNat]

/-- The text that a spelling stands for, surrogates as they are escaped. -/
def cookFrom (inTemplate : Bool) : Nat → List Char → Option CodePoints
  | _, [] => some []
  | 0, _ => none
  | fuel + 1, c :: rest =>
    match c, rest with
    | '\\', e :: more =>
      let (escape, after) := readEscape e more
      match escape.meaning inTemplate, cookFrom inTemplate fuel after with
      | some points, some others => some (points ++ others)
      | _, _ => none
    | _, _ => (cookFrom inTemplate fuel rest).map (c.toNat :: ·)

/-- Surrogates are joined if each has its partner, else all are left alone. -/
def joinSurrogates (text : CodePoints) : CodePoints := text.joinPairs.getD text

/-- The text that a spelling stands for; none if it has an escape without meaning. -/
def cook (inTemplate : Bool) (spelling : List Char) : Option CodePoints :=
  (cookFrom inTemplate spelling.length spelling).map joinSurrogates

end Phrasebook.Script

import Phrasebook.Text.Class
import Phrasebook.Text.Split
import Phrasebook.Text.Upper

set_option autoImplicit false

/-!
Blanking out comments and styles. Each character of them becomes a space, line feeds stay, so that
all other characters keep their positions.
-/
namespace Phrasebook.Markup

def blanked (c : Char) : Char := if c = '\n' then '\n' else ' '

/-- Blanks out the leftmost matches that do not overlap. `matchLength` is the length of the match
at the start of a text, zero if there is none; `pending` characters of a match are left. -/
def blankMatches (matchLength : List Char → Nat) : Nat → List Char → List Char
  | _, [] => []
  | pending + 1, c :: rest => blanked c :: blankMatches matchLength pending rest
  | 0, c :: rest =>
    match matchLength (c :: rest) with
    | 0 => c :: blankMatches matchLength 0 rest
    | more + 1 => blanked c :: blankMatches matchLength more rest

/-- How many characters stand before the first place where a test holds of what follows, and what
follows there. -/
def findFirst (test : List Char → Bool) : List Char → Option (Nat × List Char)
  | [] => if test [] then some (0, []) else none
  | c :: rest =>
    if test (c :: rest) then some (0, c :: rest)
    else (findFirst test rest).map fun (n, after) => (n + 1, after)

/-- The text after a word that is compared without regard to case. -/
def dropFolded : List Char → List Char → Option (List Char)
  | [], rest => some rest
  | _ :: _, [] => none
  | w :: ws, c :: cs => if w = Text.foldLetter c then dropFolded ws cs else none

/-- The length of the comment at the start of a text. -/
def commentLength (text : List Char) : Nat :=
  if Text.startsWith "<!--".toList text then
    match findFirst (Text.startsWith "-->".toList) (text.drop 4) with
    | some (inner, _) => 4 + inner + 3
    | none => 0
  else 0

/-- What follows a closing tag of the given name at the start of a text. -/
def afterClosingTag? (name : List Char) (text : List Char) : Option (List Char) :=
  match dropFolded ('<' :: '/' :: name) text with
  | some rest =>
    match rest.dropWhile Text.isBlank with
    | '>' :: after => some after
    | _ => none
  | none => none

/-- The length of the style element at the start of a text. -/
def styleLength (text : List Char) : Nat :=
  match dropFolded "<style".toList text with
  | none => 0
  | some rest =>
    match Text.endsWord rest, rest.dropWhile (· ≠ '>') with
    | true, '>' :: inner =>
      match findFirst (fun t => (afterClosingTag? "style".toList t).isSome) inner with
      | some (_, close) =>
        match afterClosingTag? "style".toList close with
        | some after => text.length - after.length
        | none => 0
      | none => 0
    | _, _ => 0

/-- Blanks out comments, then styles. -/
def preprocess (source : List Char) : List Char :=
  blankMatches styleLength 0 (blankMatches commentLength 0 source)

end Phrasebook.Markup

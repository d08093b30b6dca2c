import Phrasebook.Text.Class

set_option autoImplicit false

/-!
How a text starts and ends; cutting it at marks, at blanks and at line ends, and replacing a piece of
it.
-/
namespace Phrasebook.Text

/-- Drops a given beginning; none if the text does not start so. -/
def dropStart : List Char → List Char → Option (List Char)
  | [], rest => some rest
  | _ :: _, [] => none
  | w :: ws, c :: cs => if w = c then dropStart ws cs else none

/-- The text has the given beginning. -/
def startsWith (start text : List Char) : Bool := (dropStart start text).isSome

/-- A word ends where the text goes on with no letter, digit or underscore. -/
def endsWord : List Char → Bool
  | c :: _ => !isWord c
  | [] => true

/-- Removes the characters of a kind at both ends. -/
def trimmed (removed : Char → Bool) (text : List Char) : List Char :=
  ((text.dropWhile removed).reverse.dropWhile removed).reverse

/-- Removes blanks at both ends. -/
def stripped (text : List Char) : List Char := trimmed isBlank text

/-! ### Pieces -/

/-- The pieces of a text between marks. A text without a mark is one piece. -/
def pieces (mark : Char) : List Char → List (List Char)
  | [] => [[]]
  | c :: rest =>
    if c = mark then [] :: pieces mark rest
    else
      match pieces mark rest with
      | first :: more => (c :: first) :: more
      | [] => [[c]]

/-- The pieces of a text before and after its first mark; the second is none without a mark. -/
def cutFirst (mark : Char) : List Char → List Char × Option (List Char)
  | [] => ([], none)
  | c :: rest =>
    if c = mark then ([], some rest)
    else
      let (before, after) := cutFirst mark rest
      (c :: before, after)

/-- The maximal runs of characters that are no blanks. -/
def wordsFrom (word : List Char) : List Char → List (List Char)
  | [] => if word = [] then [] else [word.reverse]
  | c :: rest =>
    if isBlank c then (if word = [] then wordsFrom [] rest else word.reverse :: wordsFrom [] rest)
    else wordsFrom (c :: word) rest

def words (text : List Char) : List (List Char) := wordsFrom [] text

/-- Every way to end a line becomes a line feed. -/
def unifiedLines : List Char → List Char
  | [] => []
  | '\r' :: '\n' :: rest => '\n' :: unifiedLines rest
  | c :: rest => (if c = '\r' then '\n' else c) :: unifiedLines rest

/-- Replaces every occurrence of a piece, from the left on; `skip` characters of the last one are
still to be dropped. -/
def replaceFrom (piece new : List Char) : Nat → List Char → List Char
  | _, [] => []
  | skip + 1, _ :: rest => replaceFrom piece new skip rest
  | 0, c :: rest =>
    if piece ≠ [] ∧ piece.isPrefixOf (c :: rest) then
      new ++ replaceFrom piece new (piece.length - 1) rest
    else c :: replaceFrom piece new 0 rest

def replaceAll (piece new text : List Char) : List Char := replaceFrom piece new 0 text

/-- A piece of text occurs in a text. -/
def occurs (piece text : List Char) : Bool :=
  piece.isPrefixOf text ||
    match text with
    | [] => false
    | _ :: rest => occurs piece rest

/-- What stands before and after the first occurrence of a piece. -/
def cutPiece? (piece : List Char) : List Char → Option (List Char × List Char)
  | [] => if piece = [] then some ([], []) else none
  | c :: rest =>
    if piece.isPrefixOf (c :: rest) then some ([], (c :: rest).drop piece.length)
    else (cutPiece? piece rest).map fun (before, after) => (c :: before, after)

end Phrasebook.Text

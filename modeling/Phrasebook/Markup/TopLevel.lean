import Phrasebook.Markup.Brace
import Phrasebook.Text.Class
import Phrasebook.Text.Split

set_option autoImplicit false

/-!
The first place outside all brackets and literals where a word stands after blanks.
-/
namespace Phrasebook.Markup

/-- Blanks and then one of the words, which ends there. -/
def startsWithWord (words : List String) (text : List Char) : Bool :=
  match text with
  | c :: _ =>
    Text.isBlank c && words.any fun word =>
      match Text.dropStart word.toList (text.dropWhile Text.isBlank) with
      | some after => Text.endsWord after
      | none => false
  | [] => false

/-- Goes on over the characters that are left, of which the first `reach` are searched. The result
is how many are left at the place found. -/
def searchTopLevel (words : List String) :
    Nat → Nat → Int → List Char → Except BraceError (Option Nat)
  | 0, _, _, _ => .ok none
  | _ + 1, _, _, [] => .ok none
  | fuel + 1, reach, depth, c :: rest =>
    if reach = 0 then .ok none
    else
      let goOn (depth : Int) (after : List Char) :=
        searchTopLevel words fuel (reach - (rest.length + 1 - after.length)) depth after
      if isQuote c then do goOn depth (← skipString c rest)
      else if c = '`' then do goOn depth (← skipTemplate (rest.length + 1) rest)
      else if opensBracket c then goOn (depth + 1) rest
      else if closesBracket c then goOn (depth - 1) rest
      else if depth = 0 ∧ startsWithWord words ((c :: rest).take reach) then
        .ok (some (rest.length + 1))
      else goOn depth rest

/-- The first offset between two others at which one of the words stands after blanks, outside all
brackets and literals. -/
def findTopLevel (source : List Char) (start stop : Nat) (words : List String) :
    Except BraceError (Option Nat) := do
  let rest := source.drop start
  let found ← searchTopLevel words (rest.length + 1) (stop - start) 0 rest
  return found.map (source.length - ·)

end Phrasebook.Markup

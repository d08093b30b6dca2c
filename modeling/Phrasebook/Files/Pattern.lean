import Phrasebook.Text.Split

set_option autoImplicit false

/-!
Patterns for the names of files: a star stands for any characters, a question mark for one, and
brackets for one of the characters in them.
-/
namespace Phrasebook.Files

/-- One step of a pattern. -/
inductive PatternStep where
  | many
  | any
  /-- One of the characters in ranges, or none of them. -/
  | oneOf (isNegated : Bool) (ranges : List (Char × Char))
  | literal (c : Char)
  deriving DecidableEq, Repr

/-- The ranges between brackets. A hyphen at either end is itself. -/
def rangesOf : List Char → List (Char × Char)
  | a :: '-' :: b :: rest => (a, b) :: rangesOf rest
  | a :: rest => (a, a) :: rangesOf rest
  | [] => []

/-- The characters up to a closing bracket, which may be the first of them, and what follows it. -/
def bracketed? (text : List Char) : Option (List Char × List Char) :=
  let (negation, rest) := match text with
    | '!' :: rest => (['!'], rest)
    | rest => ([], rest)
  let (first, rest) := match rest with
    | ']' :: rest => ([']'], rest)
    | rest => ([], rest)
  match rest.dropWhile (· ≠ ']') with
  | _ :: after => some (negation ++ first ++ rest.takeWhile (· ≠ ']'), after)
  | [] => none

/-- The steps of a pattern. A bracket that is not closed is itself. -/
def patternSteps : Nat → List Char → List PatternStep
  | 0, _ => []
  | _ + 1, [] => []
  | fuel + 1, c :: rest =>
    if c = '*' then .many :: patternSteps fuel rest
    else if c = '?' then .any :: patternSteps fuel rest
    else if c = '[' then
      match bracketed? rest with
      | some ('!' :: inside, after) => .oneOf true (rangesOf inside) :: patternSteps fuel after
      | some (inside, after) => .oneOf false (rangesOf inside) :: patternSteps fuel after
      | none => .literal c :: patternSteps fuel rest
    else .literal c :: patternSteps fuel rest

/-- A character fits a step that stands for one. -/
def fits (c : Char) : PatternStep → Bool
  | .many => false
  | .any => true
  | .oneOf isNegated ranges => isNegated != ranges.any fun range => range.1 ≤ c && c ≤ range.2
  | .literal d => c = d

/-- A text fits the steps of a pattern. -/
def fitsSteps : List PatternStep → List Char → Bool
  | [], text => text.isEmpty
  | .many :: steps, text => fitsSteps steps text || fitsLater steps text
  | _ :: _, [] => false
  | step :: steps, c :: text => fits c step && fitsSteps steps text
where
  /-- Some end of a text fits the steps. -/
  fitsLater (steps : List PatternStep) : List Char → Bool
    | [] => false
    | _ :: text => fitsSteps steps text || fitsLater steps text

/-- A name fits a pattern. -/
def fitsPattern (pattern name : List Char) : Bool :=
  fitsSteps (patternSteps (pattern.length + 1) pattern) name

end Phrasebook.Files

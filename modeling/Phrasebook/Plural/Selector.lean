import Phrasebook.Dictionary
import Phrasebook.Number.Basic
import Phrasebook.Plural.Rule
import Phrasebook.Value

set_option autoImplicit false

/-!
Plural selectors and variations. An exact selector is an equals sign and a number, which select that
number in any spelling. Variations have a text for each selector, and one message text stands for all
of them.
-/
namespace Phrasebook.Plural

open Number (Fault Decimal)

/-- The number that an exact selector is about. -/
def exactNumber? (selector : String) : Option Decimal :=
  match selector.toList with
  | '=' :: written => Decimal.read? written
  | _ => none

def isExact (selector : String) : Bool := (exactNumber? selector).isSome

/-- Equality of numbers as exact selectors test it. A signaling value cannot be compared. -/
def compare (a b : Decimal) : Except Fault Bool :=
  if a.isSignaling || b.isSignaling then .error .invalidOperation else .ok (a.sameNumber b)

/-- Whether a selector is exact and names the number that a text writes. -/
def matchesText (selector : String) (written : String) : Except Fault Bool :=
  match exactNumber? selector with
  | none => .ok false
  | some wanted =>
    match Decimal.read? written.toList with
    | none => .error .invalidOperation
    | some actual => compare wanted actual

/-- Whether a selector is exact and names a number. Only an exact one has the number written. -/
def matchesExact (selector : String) (number : Number) : Except Fault Bool :=
  if isExact selector then do matchesText selector (← number.written) else .ok false

/-! ### Variations -/

/-- Texts by selector, in the order in which they were given. -/
abbrev Variations := Dictionary Value Value

/-- The name of the argument that carries the number. -/
def argumentName : String := "num"

/-- One selector and its text in braces, after one space. -/
def writtenOption (selector text : String) : String := " " ++ selector ++ " \x7b" ++ text ++ "\x7d"

/-- The message text of pairs of selector and text. -/
def written (pairs : List (String × String)) : String :=
  "\x7b" ++ argumentName ++ ", plural," ++
    String.join (pairs.map fun pair => writtenOption pair.1 pair.2) ++ "\x7d"

/-- The message text of variations. -/
def Variations.message (variations : Variations) : String :=
  written (variations.map fun pair => (pair.1.shown, pair.2.shown))

end Phrasebook.Plural

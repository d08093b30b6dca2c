import Phrasebook.Dictionary
import Phrasebook.Message.Parse
import Phrasebook.Plural.Rule
import Phrasebook.Plural.Selector
import Phrasebook.Value

set_option autoImplicit false

/-!
Rendering a pattern with values. Values are inserted as text and never read as patterns. An
argument without a value is shown as it was written.
-/
namespace Phrasebook.Message

open Number (Fault)

/-- The values of arguments by name. -/
abbrev Values := Dictionary String Value

/-- Why a pattern cannot be rendered. -/
inductive RenderFailure where
  /-- A plural choice was given a value that is no number. -/
  | notANumber (name : String) (value : Value)
  /-- A number cannot be written, or the arithmetic of a plural choice has no result. -/
  | fault (fault : Fault)
  deriving DecidableEq, Repr

/-- The number that a value stands for in a plural choice; texts are read as decimals. -/
def numberOf (name : String) (value : Value) : Except RenderFailure Number :=
  match value.number? with
  | some n => .ok n
  | none =>
    match Number.Decimal.read? value.shown.toList with
    | some d => .ok (.decimal d)
    | none => .error (.notANumber name value)

def orFault {α : Type} (result : Except Fault α) : Except RenderFailure α :=
  result.mapError .fault

/-- The place of the first exact selector that names the number. -/
def exactPlace (number : Number) : List String → Except Fault (Option Nat)
  | [] => .ok none
  | selector :: rest => do
    if ← Plural.matchesExact selector number then return some 0
    else return (← exactPlace number rest).map (· + 1)

/-- The place of the first selector that is a given one. -/
def place (key : String) (selectors : List String) : Option Nat := selectors.idxOf? key

/-- The number less the offset. No offset leaves it as it is. -/
def shift (number : Number) (offset : Nat) : Except Fault Number :=
  if offset = 0 then .ok number else number.subtract offset

/-- The place of the category of a number, else that of the last category. -/
def categoryPlace [Plural.Rules] (selectors : List String) (number : Number)
    (locale : Option String) (ordinal : Bool) : Except Fault (Option Nat) := do
  let category ← Plural.category number locale ordinal
  return (place category.text selectors).or (place Plural.Category.other.text selectors)

/-- Which option a plural choice takes, and the number that it shows: an exact selector is for the
number itself, a category for the number less the offset. -/
def pluralChoice [Plural.Rules] (selectors : List String) (number : Number) (offset : Nat)
    (locale : Option String) (ordinal : Bool) : Except Fault (Option Nat × Number) := do
  let exact ← exactPlace number selectors
  let shifted ← shift number offset
  match exact with
  | some index => return (some index, shifted)
  | none => return (← categoryPlace selectors shifted locale ordinal, shifted)

/-- Which option a choice by value takes, by the text of the value. -/
def selectPlace (selectors : List String) (shown : String) : Option Nat :=
  (place shown selectors).or (place Plural.Category.other.text selectors)

mutual

/-- The text of a pattern. `pound` is the number of the plural choice around it. -/
def renderParts [Plural.Rules] (values : Values) (locale : Option String) (pound : Option Number) :
    List Part → Except RenderFailure String
  | [] => .ok ""
  | part :: rest => do
    let text ← renderPart values locale pound part
    return text ++ (← renderParts values locale pound rest)

def renderPart [Plural.Rules] (values : Values) (locale : Option String) (pound : Option Number) :
    Part → Except RenderFailure String
  | .literal text => .ok text
  | .pound =>
    match pound with
    | some number => orFault number.plainWritten
    | none => .ok "#"
  | .argument name source =>
    match values.get? name with
    | some value => orFault value.written
    | none => .ok source
  | .select name source options =>
    match values.get? name with
    | none => .ok source
    | some value => do
      let shown ← orFault value.written
      match selectPlace (options.map (·.1)) shown with
      | some index => renderOption values locale pound index options
      | none => .ok ""
  | .plural name source options offset ordinal =>
    match values.get? name with
    | none => .ok source
    | some value => do
      let number ← numberOf name value
      let (index, shown) ←
        orFault (pluralChoice (options.map (·.1)) number offset locale ordinal)
      match index with
      | some index => renderOption values locale (some shown) index options
      | none => .ok ""

/-- The text of the option at a place. -/
def renderOption [Plural.Rules] (values : Values) (locale : Option String) (pound : Option Number) :
    Nat → List (String × List Part) → Except RenderFailure String
  | _, [] => .ok ""
  | 0, (_, body) :: _ => renderParts values locale pound body
  | index + 1, _ :: rest => renderOption values locale pound index rest

end

end Phrasebook.Message

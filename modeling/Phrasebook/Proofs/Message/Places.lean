import Mathlib.Logic.Relation
import Phrasebook.Proofs.Message.Local

set_option autoImplicit false

/-!
Places in a message. Reading comes from the beginning of a text to each place in it, one step after
another; the places between tokens are those at the names that are read.
-/
namespace Phrasebook.Message

/-- What is being read at a place. -/
inductive Level where
  | pattern (inPlural : Bool)
  | argument (inPlural : Bool)
  /-- An argument from the end of its name. -/
  | tail (inPlural : Bool) (name : String)
  /-- A choice from the comma before its options. -/
  | choice (kind : Kind) (inPlural : Bool) (name : String)
  | options (inPlural : Bool)

def Level.isOptions : Level → Bool
  | .options _ => true
  | _ => false

/-- How reading comes from one place to the next, inside of it or behind a part of it. -/
inductive Step : Level × List Char → Level × List Char → Prop
  | argument {inPlural rest} :
      Step (.pattern inPlural, '{' :: rest) (.argument inPlural, '{' :: rest)
  | pastArgument {inPlural rest part after}
      (read : readArgument inPlural ('{' :: rest) = .ok (part, after)) :
      Step (.pattern inPlural, '{' :: rest) (.pattern inPlural, after)
  | pastPound {rest} : Step (.pattern true, '#' :: rest) (.pattern true, rest)
  | pastApostrophe {inPlural rest} :
      Step (.pattern inPlural, '\'' :: rest) (.pattern inPlural, (apostrophe inPlural rest).2)
  | pastPlain {inPlural c rest} (plain : isSpecial inPlural c = false) (unquoted : c ≠ '\'') :
      Step (.pattern inPlural, c :: rest) (.pattern inPlural, rest)
  | name {inPlural text name rest} (named : argumentName text = .ok (name, rest)) :
      Step (.argument inPlural, text) (.tail inPlural name, rest)
  | kind {inPlural name text rest} {kind : Kind}
      (typed : argumentKind text = .ok (kind.text, rest)) :
      Step (.tail inPlural name, text) (.choice kind inPlural name, rest)
  | options {inPlural name text offset rest} {kind : Kind}
      (begun : choiceStart kind.hasOffset text = .ok (offset, rest)) :
      Step (.choice kind inPlural name, text) (.options (kind.inPlural inPlural), rest)
  | body {inPlural text selector inside}
      (begun : optionStart (skipBlanks text) = .ok (selector, inside)) :
      Step (.options inPlural, text) (.pattern inPlural, inside)
  | pastOption {inPlural text selector inside body rest}
      (begun : optionStart (skipBlanks text) = .ok (selector, inside))
      (read : readParts inPlural inside = .ok (body, '}' :: rest)) :
      Step (.options inPlural, text) (.options inPlural, rest)

/-- The places that reading a message comes to, with what is left there. -/
def Reaches (text : String) (level : Level) (rest : List Char) : Prop :=
  Relation.ReflTransGen Step (.pattern false, text.toList) (level, rest)

/-- A place at the next name, in the blanks before it or in those behind it. It touches the name
where it is directly behind it. -/
inductive Beside (known : String → Prop) : List Char → List Char → Bool → Prop
  | before {front tail} (blank : ∀ c ∈ front, Text.isBlank c = true) :
      Beside known front tail false
  | behind {front name blanks tail} (given : known name) (named : isName name = true)
      (blank : ∀ c ∈ front ++ blanks, Text.isBlank c = true)
      (ends : ∀ c ∈ (blanks ++ tail).head?, endsName c = true) :
      Beside known (front ++ (name.toList ++ blanks)) tail blanks.isEmpty

/-- A place between tokens: at the name of an argument, at the type of a choice, before its options
or at a selector. -/
inductive Border : Level → List Char → List Char → Bool → Prop
  | name {inPlural front tail touches} (beside : Beside (fun _ => True) front tail touches) :
      Border (.argument inPlural) ('{' :: front) tail touches
  | kind {inPlural name front tail touches}
      (beside : Beside (fun letters => (Kind.of? letters).isSome) front tail touches) :
      Border (.tail inPlural name) (',' :: front) tail touches
  | choice {kind inPlural name front tail} (blank : ∀ c ∈ front, Text.isBlank c = true) :
      Border (.choice kind inPlural name) (',' :: front) tail false
  | selector {inPlural front tail touches} (beside : Beside (fun _ => True) front tail touches) :
      Border (.options inPlural) front tail touches

/-- Characters that do not continue a name that they touch. -/
def Fits (touches : Bool) (run : List Char) : Prop :=
  touches = true → ∀ c ∈ run.head?, endsName c = true

namespace Step

variable {level inner : Level} {text rest middle tail : List Char}

/-- Each step passes a part of the text, but for the one into an argument. -/
theorem passed (step : Step (level, text) (inner, rest)) :
    Passed text rest ∨ rest = text ∧ ∃ inPlural, inner = .argument inPlural := by
  cases step with
  | argument => exact .inr ⟨rfl, _, rfl⟩
  | pastArgument read => exact .inl (readArgument_eq_ok.mp read).passed
  | pastPound => exact .inl (passed_cons _ _)
  | pastApostrophe => exact .inl ((passed_cons _ _).trans (apostrophe_suffix _ _))
  | pastPlain => exact .inl (passed_cons _ _)
  | name named => exact .inl (argumentName_passed named)
  | kind typed => exact .inl (argumentKind_passed typed)
  | options begun => exact .inl (choiceStart_passed begun)
  | body begun => exact .inl ((optionStart_passed begun).of_suffix (skipBlanks_suffix _))
  | pastOption begun read =>
    have inside := (optionStart_passed begun).of_suffix (skipBlanks_suffix _)
    have body := (readParts_eq_ok.mp read).suffix
    exact .inl (inside.trans ((List.suffix_cons _ _).trans body))

theorem suffix (step : Step (level, text) (inner, rest)) : rest <:+ text := by
  rcases step.passed with passed | ⟨rfl, -⟩
  · exact passed.suffix
  · exact List.suffix_refl _

/-- A place that comes later leaves the characters before it to the places that come before. -/
theorem exists_front (step : Step (level, text) (inner, middle ++ tail))
    (room : inner.isOptions = false → middle ≠ []) :
    ∃ front, front ≠ [] ∧ text = front ++ tail := by
  obtain ⟨between, whole⟩ := step.suffix
  refine ⟨between ++ middle, ?_, by rw [List.append_assoc, whole]⟩
  intro missing
  obtain ⟨rfl, rfl⟩ := List.append_eq_nil_iff.mp missing
  rcases step.passed with passed | ⟨-, inPlural, rfl⟩
  · exact absurd passed.shorter (whole ▸ Nat.lt_irrefl _)
  · exact absurd rfl (room rfl)

end Step

/-- Only options can begin right at a place. -/
theorem Border.room {level : Level} {front tail : List Char} {touches : Bool}
    (border : Border level front tail touches) : level.isOptions = false → front ≠ [] := by
  cases border with
  | name => exact fun _ => List.cons_ne_nil _ _
  | kind => exact fun _ => List.cons_ne_nil _ _
  | choice => exact fun _ => List.cons_ne_nil _ _
  | selector => exact nofun

end Phrasebook.Message

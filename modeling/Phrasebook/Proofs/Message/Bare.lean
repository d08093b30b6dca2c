import Phrasebook.Proofs.Message.RoundTrip
import Phrasebook.Proofs.Message.Sources

set_option autoImplicit false

/-!
Reading without sources. Apart from the texts that arguments were read from, what is read depends
only on what the readers of names, types, offsets and options take, one after another.
-/
namespace Phrasebook.Message

open Outcome (ok_bind bind_eq_ok)

mutual

/-- A part without the texts that arguments were read from. -/
def Part.bare : Part → Part
  | .literal text => .literal text
  | .pound => .pound
  | .argument name _ => .argument name ""
  | .plural name _ options offset ordinal => .plural name "" (bareOptions options) offset ordinal
  | .select name _ options => .select name "" (bareOptions options)

def Pattern.bare : List Part → Pattern
  | [] => []
  | part :: rest => part.bare :: Pattern.bare rest

def bareOptions : List (String × List Part) → List (String × Pattern)
  | [] => []
  | (selector, body) :: rest => (selector, Pattern.bare body) :: bareOptions rest

end

theorem bare_prepend (text : List Char) (pattern : Pattern) :
    Pattern.bare (pattern.prepend text) = (Pattern.bare pattern).prepend text := by
  cases pattern with
  | nil => rfl
  | cons part rest => cases part <;> rfl

/-! ### The stages of reading -/

/-- The types of choices. -/
inductive Kind where
  | plural
  | ordinal
  | select
  deriving DecidableEq

namespace Kind

def text : Kind → String
  | plural => "plural"
  | ordinal => "selectordinal"
  | select => "select"

def of? (text : String) : Option Kind := [plural, ordinal, select].find? (·.text = text)

def hasOffset (kind : Kind) : Bool := kind = plural

/-- Whether pounds stand for a number in the options of a choice, by whether they do around it. -/
def inPlural (kind : Kind) (around : Bool) : Bool := kind ≠ select || around

def part (kind : Kind) (name : String) (offset : Nat) (options : List (String × Pattern)) : Part :=
  match kind with
  | plural => .plural name "" options offset false
  | ordinal => .plural name "" options offset true
  | select => .select name "" options

theorem of?_text (kind : Kind) : of? kind.text = some kind := by
  cases kind <;> decide

theorem text_of_of? {text : String} {kind : Kind} (found : of? text = some kind) :
    text = kind.text := by
  have same := List.find?_some found
  exact (of_decide_eq_true same).symm

theorem part_inj {kind : Kind} {name : String} {offset : Nat}
    {options others : List (String × Pattern)}
    (same : kind.part name offset options = kind.part name offset others) : options = others := by
  cases kind <;> simpa [part] using same

end Kind

/-- A pattern without sources, and what follows it. -/
def patternAt (inPlural : Bool) (text : List Char) : Option (Pattern × List Char) :=
  (readParts inPlural text).toOption.map fun read => (Pattern.bare read.1, read.2)

/-- An argument without sources. -/
def argumentAt (inPlural : Bool) (text : List Char) : Option (Part × List Char) :=
  (readArgument inPlural text).toOption.map fun read => (read.1.bare, read.2)

/-- Options without sources. -/
def optionsAt (inPlural : Bool) (text : List Char) :
    Option (List (String × Pattern) × List Char) :=
  (readOptions inPlural text).toOption.map fun read => (bareOptions read.1, read.2)

/-- An option, from its body, and the options behind it. -/
def optionAt (inPlural : Bool) (selector : String) (text : List Char) :
    Option (List (String × Pattern) × List Char) :=
  (patternAt inPlural text).bind fun body =>
    (expect '}' body.2).toOption.bind fun rest =>
      (optionsAt inPlural rest).map fun more => ((selector, body.1) :: more.1, more.2)

/-- A choice, from the comma before its options. -/
def choiceAt (kind : Kind) (inPlural : Bool) (name : String) (text : List Char) :
    Option (Part × List Char) :=
  (choiceStart kind.hasOffset text).toOption.bind fun begun =>
    (optionsAt (kind.inPlural inPlural) begun.2).bind fun chosen =>
      (choiceEnd chosen.1 chosen.2).toOption.map fun after =>
        (kind.part name begun.1 chosen.1, after)

/-- An argument, from its type. -/
def kindAt (inPlural : Bool) (name kind : String) (text : List Char) : Option (Part × List Char) :=
  match Kind.of? kind with
  | some kind => choiceAt kind inPlural name text
  | none => (styleEnd kind text).toOption.map fun after => (.argument name "", after)

/-- An argument, from the brace that closes it or the comma before its type. -/
def tailAt (inPlural : Bool) (name : String) (text : List Char) : Option (Part × List Char) :=
  match text with
  | '}' :: after => some (.argument name "", after)
  | _ => (argumentKind text).toOption.bind fun typed => kindAt inPlural name typed.1 typed.2

/-! ### The equations of patterns -/

/-- What a character can mean outside of a quotation. -/
theorem meaning_cases (inPlural : Bool) (c : Char) :
    c = '{' ∨ c = '}' ∨ c = '\'' ∨ (c = '#' ∧ inPlural = true) ∨
      (isSpecial inPlural c = false ∧ c ≠ '\'') := by
  by_cases mark : c = '\''
  · exact .inr (.inr (.inl mark))
  · cases special : isSpecial inPlural c with
    | false => exact .inr (.inr (.inr (.inr ⟨rfl, mark⟩)))
    | true =>
      simp only [isSpecial, Bool.or_eq_true, decide_eq_true_eq, Bool.and_eq_true] at special
      rcases special with (opened | closed) | pound
      · exact .inl opened
      · exact .inr (.inl closed)
      · exact .inr (.inr (.inr (.inl pound)))

theorem toOption_bind {ε α β : Type} (first : Except ε α) (next : α → Except ε β) :
    (first >>= next).toOption = first.toOption.bind fun value => (next value).toOption := by
  cases first <;> rfl

section Pattern

variable (inPlural : Bool) (rest : List Char)

theorem patternAt_close : patternAt inPlural ('}' :: rest) = some ([], '}' :: rest) := by
  rw [patternAt, readParts_close]
  rfl

theorem patternAt_open :
    patternAt inPlural ('{' :: rest) =
      (argumentAt inPlural ('{' :: rest)).bind fun read =>
        (patternAt inPlural read.2).map fun more => (read.1 :: more.1, more.2) := by
  rw [patternAt, readParts_open, toOption_bind, argumentAt, Option.map_bind, Option.bind_map]
  refine Option.bind_congr fun read _ => ?_
  simp only [Function.comp_apply, patternAt]
  cases readParts inPlural read.2 <;> rfl

theorem patternAt_pound :
    patternAt true ('#' :: rest) =
      (patternAt true rest).map fun more => (.pound :: more.1, more.2) := by
  rw [patternAt, readParts_pound, patternAt]
  cases readParts true rest <;> rfl

theorem patternAt_apostrophe :
    patternAt inPlural ('\'' :: rest) =
      (patternAt inPlural (apostrophe inPlural rest).2).map fun more =>
        (more.1.prepend (apostrophe inPlural rest).1, more.2) := by
  rw [patternAt, readParts_apostrophe, patternAt]
  cases readParts inPlural (apostrophe inPlural rest).2 with
  | error stuck => rfl
  | ok read =>
    simp only [ok_bind, Except.toOption, Option.map_some, bare_prepend]

theorem patternAt_plain {inPlural : Bool} {c : Char} (plain : isSpecial inPlural c = false)
    (unquoted : c ≠ '\'') :
    patternAt inPlural (c :: rest) =
      (patternAt inPlural rest).map fun more => (more.1.prepend [c], more.2) := by
  rw [patternAt, readParts_plain rest plain unquoted, patternAt]
  cases readParts inPlural rest with
  | error stuck => rfl
  | ok read => simp only [ok_bind, Except.toOption, Option.map_some, bare_prepend]

end Pattern

/-! ### The equations of arguments -/

theorem choiceEnd_bare (choices : List (String × Pattern)) (text : List Char) :
    choiceEnd (bareOptions choices) text = choiceEnd choices text := by
  cases choices with
  | nil => rfl
  | cons choice choices => rfl

/-- A choice is read as its stages say, whatever sources it is given. -/
theorem choiceAt_of_read (kind : Kind) (name : String)
    (make : Nat → List (String × Pattern) → List Char → Part)
    (bare : ∀ offset choices after,
      (make offset choices after).bare = kind.part name offset (bareOptions choices))
    (inPlural : Bool) (text : List Char) :
    (choiceStart kind.hasOffset text >>= fun begun =>
      readOptions (kind.inPlural inPlural) begun.2 >>= fun chosen =>
        choiceEnd chosen.1 chosen.2 >>= fun after =>
          .ok (make begun.1 chosen.1 after, after)).toOption.map
        (fun read : Part × List Char => (read.1.bare, read.2)) =
      choiceAt kind inPlural name text := by
  rw [choiceAt]
  cases choiceStart kind.hasOffset text with
  | error stuck => rfl
  | ok begun =>
    simp only [ok_bind, Except.toOption, Option.bind_some, optionsAt]
    cases readOptions (kind.inPlural inPlural) begun.2 with
    | error stuck => rfl
    | ok chosen =>
      simp only [ok_bind, Option.map_some, Option.bind_some, choiceEnd_bare]
      cases choiceEnd chosen.1 chosen.2 with
      | error stuck => rfl
      | ok after => simp only [ok_bind, Option.map_some, bare]

theorem tailAt_typed (inPlural : Bool) (name : String) {text : List Char}
    (unclosed : ∀ after, text ≠ '}' :: after) :
    tailAt inPlural name text =
      (argumentKind text).toOption.bind fun typed => kindAt inPlural name typed.1 typed.2 := by
  rw [tailAt]
  exact fun after same => unclosed after same

theorem argumentAt_of_typed {inPlural : Bool} {text rest : List Char} {name : String}
    (named : argumentName text = .ok (name, ',' :: rest)) :
    argumentAt inPlural text = tailAt inPlural name (',' :: rest) := by
  rw [argumentAt, readArgument_of_typed named, toOption_bind, Option.map_bind,
    tailAt_typed inPlural name (by simp)]
  refine Option.bind_congr fun typed _ => ?_
  obtain ⟨kind, rest⟩ := typed
  simp only [Function.comp_apply, kindAt]
  cases found : Kind.of? kind with
  | some known =>
    have spelled := Kind.text_of_of? found
    subst spelled
    cases known
    · exact choiceAt_of_read .plural name
        (fun offset choices after => .plural name (between text after) choices offset false)
        (fun _ _ _ => rfl) inPlural rest
    · exact choiceAt_of_read .ordinal name
        (fun offset choices after => .plural name (between text after) choices offset true)
        (fun _ _ _ => rfl) inPlural rest
    · exact choiceAt_of_read .select name
        (fun _ choices after => .select name (between text after) choices)
        (fun _ _ _ => rfl) inPlural rest
  | none =>
    have apart : ∀ known : Kind, kind ≠ known.text := by
      rintro known rfl
      rw [Kind.of?_text] at found
      cases found
    have noPlural : ¬ (kind = "plural" ∨ kind = "selectordinal") :=
      not_or.mpr ⟨apart .plural, apart .ordinal⟩
    have noSelect : ¬ kind = "select" := apart .select
    rw [if_neg noPlural, if_neg noSelect]
    cases styleEnd kind rest <;> rfl

/-- What follows a name closes the argument or is a comma before its type. -/
theorem argumentAt_of_named {inPlural : Bool} {text rest : List Char} {name : String}
    (named : argumentName text = .ok (name, rest)) :
    argumentAt inPlural text = tailAt inPlural name rest := by
  by_cases closed : ∃ after, rest = '}' :: after
  · obtain ⟨after, rfl⟩ := closed
    rw [argumentAt, readArgument_of_closed named]
    rfl
  · by_cases typed : ∃ inner, rest = ',' :: inner
    · obtain ⟨inner, rfl⟩ := typed
      exact argumentAt_of_typed named
    · have stuck : (argumentKind rest).toOption = none := by
        cases rest with
        | nil => rfl
        | cons c inner =>
          have other : c ≠ ',' := fun comma => typed ⟨inner, by rw [comma]⟩
          simp [argumentKind, expect, other, fail, Except.toOption]
      have bare : tailAt inPlural name rest = none := by
        rw [tailAt_typed inPlural name fun after same => closed ⟨after, same⟩, stuck]
        rfl
      obtain ⟨fuel, steps, -⟩ := argument_fuel named
      rw [bare, argumentAt, readArgument, steps, argument, named, ok_bind]
      dsimp only
      split
      · rename_i after
        exact absurd ⟨after, rfl⟩ closed
      · rw [toOption_bind, stuck]
        rfl

theorem argumentAt_eq (inPlural : Bool) (text : List Char) :
    argumentAt inPlural text =
      (argumentName text).toOption.bind fun named => tailAt inPlural named.1 named.2 := by
  cases named : argumentName text with
  | ok found => exact argumentAt_of_named named
  | error stuck =>
    rw [argumentAt, readArgument]
    cases 2 * text.length with
    | zero => rfl
    | succ fuel =>
      rw [argument, named]
      rfl

/-! ### The equations of options -/

section Options

variable (inPlural : Bool)

theorem optionsAt_skipBlanks (text : List Char) :
    optionsAt inPlural (skipBlanks text) = optionsAt inPlural text := by
  rw [optionsAt, optionsAt, readOptions_skipBlanks]

theorem optionsAt_close (rest : List Char) :
    optionsAt inPlural ('}' :: rest) = some ([], '}' :: rest) := by
  rw [optionsAt, readOptions_close]
  rfl

theorem optionsAt_start {text inner : List Char} {c : Char} (shown : skipBlanks text = c :: inner)
    (unclosed : c ≠ '}') :
    optionsAt inPlural text =
      (optionStart (skipBlanks text)).toOption.bind fun begun =>
        optionAt inPlural begun.1 begun.2 := by
  rw [optionsAt, readOptions_of_start inPlural shown unclosed, shown]
  cases optionStart (c :: inner) with
  | error stuck => rfl
  | ok begun =>
    simp only [ok_bind, Except.toOption, Option.bind_some, optionAt, patternAt]
    cases readParts inPlural begun.2 with
    | error stuck => rfl
    | ok body =>
      simp only [ok_bind, Option.map_some, Option.bind_some]
      cases expect '}' body.2 with
      | error stuck => rfl
      | ok rest =>
        simp only [ok_bind, Option.bind_some, optionsAt]
        cases readOptions inPlural rest <;> rfl

end Options

end Phrasebook.Message

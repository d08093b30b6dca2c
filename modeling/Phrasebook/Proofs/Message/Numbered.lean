import Phrasebook.Message.Format
import Phrasebook.Plural.Locale
import Phrasebook.Proofs.Message.RoundTrip

set_option autoImplicit false

/-!
The numbers of pound signs. What a text is read as is in normal form, so that pound signs stand in
plural choices only. Rendering comes to such a sign with the number of the innermost plural choice
around it, whatever choices by value lie between.
-/
namespace Phrasebook.Message

open Number (Fault)
open Outcome (bind_eq_ok)

/-! ### What is read is in normal form -/

/-- An ordinal choice is not of the kind that can have an offset. -/
theorem offset_of_ordinal {kind : String} {text rest : List Char} {offset : Nat}
    (read : choiceStart (kind == "plural") text = .ok (offset, rest)) :
    kind ≠ "selectordinal" ∨ offset = 0 := by
  by_cases ordinal : kind = "selectordinal"
  · subst ordinal
    obtain ⟨inner, -, done⟩ := bind_eq_ok.mp read
    cases done
    exact .inr rfl
  · exact .inl ordinal

theorem isEmpty_of_choiceEnd {choices : List (String × Pattern)} {text rest : List Char}
    (read : choiceEnd choices text = .ok rest) : choices.isEmpty = false := by
  rw [choiceEnd] at read
  split at read
  · simp [fail] at read
  · rename_i given
    simpa using given

/-- A text in front of a normal pattern joins its first literal. -/
theorem isNormal_prepend {inPlural : Bool} {text : List Char} {pattern : Pattern} (given : text ≠ [])
    (normal : Pattern.isNormal inPlural pattern = true) :
    Pattern.isNormal inPlural (pattern.prepend text) = true := by
  have literal : ∀ behind : String,
      Part.isNormal inPlural (.literal (String.ofList text ++ behind)) = true := by
    intro behind
    simp [Part.isNormal, given]
  cases pattern with
  | nil =>
    have alone := literal ""
    rw [String.append_empty] at alone
    simp [Pattern.prepend, Pattern.isNormal, alone, startsWithLiteral]
  | cons part rest =>
    cases part with
    | literal next =>
      simp only [Pattern.isNormal, Bool.and_eq_true] at normal
      simp only [Pattern.prepend, Pattern.isNormal, literal, Bool.true_and, Bool.and_eq_true]
      exact ⟨normal.1.2, normal.2⟩
    | _ =>
      have alone := literal ""
      rw [String.append_empty] at alone
      simp [Pattern.prepend, Pattern.isNormal, alone, startsWithLiteral] at normal ⊢
      exact normal

mutual

/-- What is read is normal. -/
theorem ReadsParts.isNormal {inPlural : Bool} {text rest : List Char} {pattern : Pattern}
    (read : ReadsParts inPlural text pattern rest) : Pattern.isNormal inPlural pattern = true := by
  match read with
  | .ends => rfl
  | .close => rfl
  | .argument first later =>
    obtain ⟨normal, noLiteral⟩ := first.isNormal
    simp [Pattern.isNormal, normal, noLiteral, later.isNormal]
  | .pound later => simp [Pattern.isNormal, Part.isNormal, startsWithLiteral, later.isNormal]
  | .apostrophe later => exact isNormal_prepend (apostrophe_ne_nil inPlural _) later.isNormal
  | .plain _ _ later => exact isNormal_prepend (List.cons_ne_nil _ []) later.isNormal

/-- An argument is normal, and it is no literal. -/
theorem ReadsArgument.isNormal {inPlural : Bool} {text rest : List Char} {part : Part}
    (read : ReadsArgument inPlural text part rest) :
    part.isNormal inPlural = true ∧ startsWithLiteral [part] = false := by
  match read with
  | .closed named => exact ⟨isName_of_argumentName named, rfl⟩
  | .plural named _ _ begun chosen ended =>
    simp [Part.isNormal, isName_of_argumentName named, offset_of_ordinal begun,
      isEmpty_of_choiceEnd ended, chosen.isNormal, startsWithLiteral]
  | .select named _ _ chosen ended =>
    simp [Part.isNormal, isName_of_argumentName named, isEmpty_of_choiceEnd ended,
      chosen.isNormal, startsWithLiteral]
  | .styled named _ _ _ _ => exact ⟨isName_of_argumentName named, rfl⟩

theorem ReadsOptions.isNormal {inPlural : Bool} {text rest : List Char}
    {choices : List (String × Pattern)} (read : ReadsOptions inPlural text choices rest) :
    normalOptions inPlural choices = true := by
  match read with
  | .ends _ => rfl
  | .option begun first later =>
    simp [normalOptions, isName_of_optionStart begun, first.isNormal, later.isNormal]

end

/-- Whatever a text is read as is in normal form. -/
theorem isNormal_of_parse {text : String} {pattern : Pattern} (read : parse text = .ok pattern) :
    Pattern.isNormal false pattern = true :=
  (readParts_eq_ok.mp (parse_eq_ok.mp read)).isNormal

/-! ### Pound signs that rendering comes to -/

/-- A pound sign, with the innermost plural choice around it, the number that it is rendered with, and
what is shown in its place. -/
structure Sign where
  around : Option Part
  number : Option Number
  shown : Except RenderFailure String

/-- The number of a sign is that of the choice around it, less the offset of the choice, and it is this
number that is written in its place. -/
inductive Sign.IsNumbered (values : Values) : Sign → Prop where
  | intro {name source : String} {options : List (String × Pattern)} {offset : Nat}
      {ordinal : Bool} {value : Value} {number less : Number} (given : values.get? name = some value)
      (counted : numberOf name value = .ok number) (shifted : shift number offset = .ok less) :
    IsNumbered values
      ⟨some (.plural name source options offset ordinal), some less, orFault less.plainWritten⟩

/-- A result of rendering, with the pound signs that were come to, also where it failed then. -/
structure Traced (α : Type) where
  outcome : Except RenderFailure α
  signs : List Sign

namespace Traced

variable {α β : Type}

/-- A result without pound signs. -/
def of (outcome : Except RenderFailure α) : Traced α := ⟨outcome, []⟩

def bind (first : Traced α) (next : α → Traced β) : Traced β :=
  match first.outcome with
  | .ok value => ⟨(next value).outcome, first.signs ++ (next value).signs⟩
  | .error failure => ⟨.error failure, first.signs⟩

theorem outcome_bind (first : Traced α) (next : α → Traced β) :
    (first.bind next).outcome = first.outcome >>= fun value => (next value).outcome := by
  rw [bind]
  cases first.outcome <;> rfl

theorem mem_signs_bind {first : Traced α} {next : α → Traced β} {sign : Sign}
    (member : sign ∈ (first.bind next).signs) :
    sign ∈ first.signs ∨ ∃ value, first.outcome = .ok value ∧ sign ∈ (next value).signs := by
  rw [bind] at member
  split at member
  · rename_i value passed
    rcases List.mem_append.mp member with here | later
    · exact .inl here
    · exact .inr ⟨value, passed, later⟩
  · exact .inl member

end Traced

theorem orFault_eq_ok {α : Type} {result : Except Fault α} {value : α} :
    orFault result = .ok value ↔ result = .ok value := Outcome.mapError_eq_ok

section Tracing

variable [Plural.Rules]

/-- A sign that rendering comes to, with what it shows in its place. -/
def Sign.rendered (values : Values) (locale : Option String) (around : Option Part)
    (pound : Option Number) : Sign :=
  ⟨around, pound, renderPart values locale pound .pound⟩

mutual

/-- Renders a pattern, and notes each pound sign with the plural choice around it. -/
def traceParts (values : Values) (locale : Option String) (around : Option Part)
    (pound : Option Number) : List Part → Traced String
  | [] => .of (.ok "")
  | part :: rest =>
    (tracePart values locale around pound part).bind fun text =>
      (traceParts values locale around pound rest).bind fun more => .of (.ok (text ++ more))

def tracePart (values : Values) (locale : Option String) (around : Option Part)
    (pound : Option Number) : Part → Traced String
  | .literal text => .of (.ok text)
  | .pound =>
    let sign := Sign.rendered values locale around pound
    ⟨sign.shown, [sign]⟩
  | .argument name source => .of (renderPart values locale pound (.argument name source))
  | .select name source options =>
    match values.get? name with
    | none => .of (.ok source)
    | some value =>
      (Traced.of (orFault value.written)).bind fun shown =>
        match selectPlace (options.map (·.1)) shown with
        | some index => traceOption values locale around pound index options
        | none => .of (.ok "")
  | .plural name source options offset ordinal =>
    match values.get? name with
    | none => .of (.ok source)
    | some value =>
      (Traced.of (numberOf name value)).bind fun number =>
        (Traced.of (orFault (pluralChoice (options.map (·.1)) number offset locale ordinal))).bind
          fun (index, shown) =>
            match index with
            | some index =>
              traceOption values locale (some (.plural name source options offset ordinal))
                (some shown) index options
            | none => .of (.ok "")

def traceOption (values : Values) (locale : Option String) (around : Option Part)
    (pound : Option Number) : Nat → List (String × List Part) → Traced String
  | _, [] => .of (.ok "")
  | 0, (_, body) :: _ => traceParts values locale around pound body
  | index + 1, _ :: rest => traceOption values locale around pound index rest

end

variable {values : Values} {locale : Option String}

mutual

/-- Rendering is the same whether or not pound signs are noted. -/
theorem outcome_tracePart (around : Option Part) (pound : Option Number) (part : Part) :
    (tracePart values locale around pound part).outcome = renderPart values locale pound part := by
  match part with
  | .literal text => simp [tracePart, renderPart, Traced.of]
  | .pound => simp [tracePart, Sign.rendered]
  | .argument name source => simp [tracePart, Traced.of]
  | .select name source options =>
    rw [tracePart, renderPart]
    cases values.get? name with
    | none => rfl
    | some value =>
      dsimp only
      rw [Traced.outcome_bind]
      refine Outcome.bind_congr_ok fun shown _ => ?_
      cases selectPlace (options.map (·.1)) shown with
      | none => rfl
      | some index => exact outcome_traceOption around pound index options
  | .plural name source options offset ordinal =>
    rw [tracePart, renderPart]
    cases values.get? name with
    | none => rfl
    | some value =>
      dsimp only
      rw [Traced.outcome_bind]
      refine Outcome.bind_congr_ok fun number _ => ?_
      rw [Traced.outcome_bind]
      refine Outcome.bind_congr_ok ?_
      rintro ⟨index, shown⟩ -
      cases index with
      | none => rfl
      | some index => exact outcome_traceOption _ _ index options

theorem outcome_traceParts (around : Option Part) (pound : Option Number) (pattern : List Part) :
    (traceParts values locale around pound pattern).outcome =
      renderParts values locale pound pattern := by
  match pattern with
  | [] => rfl
  | part :: rest =>
    rw [traceParts, renderParts, Traced.outcome_bind, outcome_tracePart around pound part]
    refine Outcome.bind_congr_ok fun text _ => ?_
    rw [Traced.outcome_bind, outcome_traceParts around pound rest]
    rfl

theorem outcome_traceOption (around : Option Part) (pound : Option Number) (index : Nat)
    (options : List (String × List Part)) :
    (traceOption values locale around pound index options).outcome =
      renderOption values locale pound index options := by
  match options, index with
  | [], _ => simp [traceOption, renderOption, Traced.of]
  | (selector, body) :: rest, 0 =>
    rw [traceOption, renderOption]
    exact outcome_traceParts around pound body
  | option :: rest, index + 1 =>
    rw [traceOption, renderOption]
    exact outcome_traceOption around pound index rest

end

/-- What a plural choice shows is its number less the offset. -/
theorem shift_of_pluralChoice {selectors : List String} {number shown : Number} {offset : Nat}
    {ordinal : Bool} {place : Option Nat}
    (taken : pluralChoice selectors number offset locale ordinal = .ok (place, shown)) :
    shift number offset = .ok shown := by
  obtain ⟨exact, -, taken⟩ := bind_eq_ok.mp taken
  obtain ⟨less, shifted, taken⟩ := bind_eq_ok.mp taken
  rw [shifted]
  cases exact with
  | some index =>
    cases taken
    rfl
  | none =>
    obtain ⟨_, -, done⟩ := bind_eq_ok.mp taken
    cases done
    rfl

mutual

/-- Where pound signs may stand, rendering has the number of the choice around it. -/
theorem numbered_tracePart {inPlural : Bool} {around : Option Part} {pound : Option Number}
    (counted : inPlural = true → Sign.IsNumbered values (.rendered values locale around pound))
    (part : Part)
    (normal : part.isNormal inPlural = true) :
    ∀ sign ∈ (tracePart values locale around pound part).signs, sign.IsNumbered values := by
  intro sign member
  match part with
  | .literal text => simp [tracePart, Traced.of] at member
  | .pound =>
    rw [tracePart, List.mem_singleton] at member
    rw [member]
    exact counted normal
  | .argument name source => simp [tracePart, Traced.of] at member
  | .select name source options =>
    simp only [Part.isNormal, Bool.and_eq_true] at normal
    rw [tracePart] at member
    split at member
    · cases member
    · rcases Traced.mem_signs_bind member with none | ⟨shown, -, inner⟩
      · cases none
      · split at inner
        · exact numbered_traceOption counted _ options normal.2 sign inner
        · cases inner
  | .plural name source options offset ordinal =>
    simp only [Part.isNormal, Bool.and_eq_true] at normal
    rw [tracePart] at member
    split at member
    · cases member
    · rename_i value given
      rcases Traced.mem_signs_bind member with none | ⟨number, read, member⟩
      · cases none
      rcases Traced.mem_signs_bind member with none | ⟨⟨index, shown⟩, taken, inner⟩
      · cases none
      have own : Sign.IsNumbered values (.rendered values locale
          (some (.plural name source options offset ordinal)) (some shown)) :=
        .intro given read (shift_of_pluralChoice (orFault_eq_ok.mp taken))
      cases index with
      | none => cases inner
      | some index =>
        exact numbered_traceOption (fun _ => own) index options normal.2 sign inner

theorem numbered_traceParts {inPlural : Bool} {around : Option Part} {pound : Option Number}
    (counted : inPlural = true → Sign.IsNumbered values (.rendered values locale around pound))
    (pattern : List Part)
    (normal : Pattern.isNormal inPlural pattern = true) :
    ∀ sign ∈ (traceParts values locale around pound pattern).signs, sign.IsNumbered values := by
  intro sign member
  match pattern with
  | [] => cases member
  | part :: rest =>
    simp only [Pattern.isNormal, Bool.and_eq_true] at normal
    rw [traceParts] at member
    rcases Traced.mem_signs_bind member with here | ⟨text, -, later⟩
    · exact numbered_tracePart counted part normal.1.1 sign here
    · rcases Traced.mem_signs_bind later with inner | ⟨more, -, none⟩
      · exact numbered_traceParts counted rest normal.2 sign inner
      · cases none

theorem numbered_traceOption {inPlural : Bool} {around : Option Part} {pound : Option Number}
    (counted : inPlural = true → Sign.IsNumbered values (.rendered values locale around pound))
    (index : Nat)
    (options : List (String × List Part)) (normal : normalOptions inPlural options = true) :
    ∀ sign ∈ (traceOption values locale around pound index options).signs,
      sign.IsNumbered values := by
  intro sign member
  match options, index with
  | [], _ =>
    rw [traceOption] at member
    cases member
  | (selector, body) :: rest, 0 =>
    simp only [normalOptions, Bool.and_eq_true] at normal
    rw [traceOption] at member
    exact numbered_traceParts counted body normal.1.2 sign member
  | (selector, body) :: rest, index + 1 =>
    simp only [normalOptions, Bool.and_eq_true] at normal
    rw [traceOption] at member
    exact numbered_traceOption counted index rest normal.2 sign member

end

end Tracing

/-- Rendering a text that is a message comes to each pound sign with the number of the innermost
plural choice around it, less the offset of the choice, and writes this number in its place; at no sign
is a number missing. -/
theorem parse_numbered [Plural.Rules] {text : String} {pattern : Pattern}
    (read : parse text = .ok pattern) (values : Values) (locale : Option String) :
    (traceParts values locale none none pattern).outcome = renderParts values locale none pattern ∧
      ∀ sign ∈ (traceParts values locale none none pattern).signs, sign.IsNumbered values := by
  have normal := isNormal_of_parse read
  exact ⟨outcome_traceParts none none pattern,
    numbered_traceParts (fun inside : false = true => nomatch inside) pattern normal⟩

def guestTables : String :=
  "\x7bn, plural, offset:1 other \x7b\x7bg, select, other " ++
    "\x7b# at \x7bm, plural, other \x7b#\x7d\x7d\x7d\x7d\x7d\x7d"

def guestCounts : Values :=
  [("n", .number (.int 3)), ("g", .text "x"), ("m", .number (.int 5))]

/-- A pound sign behind a choice by value, and one in a choice within it. -/
theorem parse_numbered_tables :
    ∃ pattern, parse guestTables = .ok pattern ∧
      renderParts guestCounts (some "en") none pattern = .ok "2 at 5" ∧
      (∀ sign ∈ (traceParts guestCounts (some "en") none none pattern).signs,
        sign.IsNumbered guestCounts) ∧
      (traceParts guestCounts (some "en") none none pattern).signs.map
          (fun sign => (sign.number, sign.shown)) =
        [(some (.int 2), .ok "2"), (some (.int 5), .ok "5")] := by
  have noted : ((parse guestTables).toOption.map fun pattern =>
      (renderParts guestCounts (some "en") none pattern,
        (traceParts guestCounts (some "en") none none pattern).signs.map
          fun sign => (sign.number, sign.shown))) =
        some (.ok "2 at 5", [(some (.int 2), .ok "2"), (some (.int 5), .ok "5")]) := by
    decide +kernel
  obtain ⟨pattern, known, numbers⟩ := Option.map_eq_some_iff.mp noted
  have read := Outcome.toOption_eq_some.mp known
  have shown := congrArg Prod.fst numbers
  have signs := congrArg Prod.snd numbers
  exact ⟨pattern, read, shown, (parse_numbered read guestCounts (some "en")).2, signs⟩

end Phrasebook.Message

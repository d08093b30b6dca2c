import Phrasebook.Proofs.Message.Reading
import Phrasebook.Proofs.Message.Written
import Phrasebook.Proofs.Number.Digits
import Phrasebook.Proofs.Text.Class

set_option autoImplicit false

/-!
What is written for a normal pattern is read back as that pattern. Where an offset is too long to
be read, the failure is the one over that offset and no other.
-/
namespace Phrasebook.Message

open Outcome (bind_eq_ok ok_bind error_bind)

/-! ### Literals -/

theorem prepend_prepend (front back : List Char) (pattern : Pattern) :
    (pattern.prepend back).prepend front = pattern.prepend (front ++ back) := by
  rcases pattern with _ | ⟨part, rest⟩
  · simp [Pattern.prepend]
  · cases part <;> simp [Pattern.prepend, String.append_assoc]

theorem prepend_of_not_literal {pattern : Pattern} (text : List Char)
    (apart : startsWithLiteral pattern = false) :
    pattern.prepend text = .literal (String.ofList text) :: pattern := by
  rcases pattern with _ | ⟨part, rest⟩
  · rfl
  · cases part <;> first | rfl | simp [startsWithLiteral] at apart

/-- A text in front of a pattern, where there is any. -/
def Pattern.after (text : List Char) (pattern : Pattern) : Pattern :=
  if text = [] then pattern else pattern.prepend text

theorem after_prepend (front back : List Char) (pattern : Pattern) :
    Pattern.after front (pattern.prepend back) = pattern.prepend (front ++ back) := by
  rw [Pattern.after]
  split
  · rename_i empty
    rw [empty, List.nil_append]
  · exact prepend_prepend front back pattern

theorem prepend_after (c : Char) (text : List Char) (pattern : Pattern) :
    (Pattern.after text pattern).prepend [c] = Pattern.after (c :: text) pattern := by
  simp only [Pattern.after, reduceCtorEq, ite_false]
  split
  · rename_i empty
    rw [empty]
  · exact prepend_prepend [c] text pattern

/-- A text without special characters, apostrophes doubled, stands for itself. -/
theorem readParts_doubled {inPlural : Bool} {text : List Char}
    (plain : ∀ c ∈ text, isSpecial inPlural c = false) (rest : List Char) :
    readParts inPlural (doubled text ++ rest) = (do
      let (more, last) ← readParts inPlural rest
      .ok (Pattern.after text more, last)) := by
  induction text with
  | nil =>
    simp only [doubled, List.nil_append, Pattern.after, ite_true]
    cases readParts inPlural rest <;> rfl
  | cons c text ih =>
    have further := ih fun d member => plain d (by simp [member])
    by_cases mark : c = '\''
    · simp only [doubled, if_pos mark, List.cons_append, readParts_apostrophe, apostrophe,
        ite_true, further]
      cases readParts inPlural rest <;> simp [prepend_after, mark]
    · simp only [doubled, if_neg mark, List.cons_append]
      rw [readParts_plain _ (plain c (by simp)) mark, further]
      cases readParts inPlural rest <;> simp [prepend_after]

theorem quotation_close {rest : List Char} (apart : rest.head? ≠ some '\'') :
    quotation ('\'' :: rest) = ([], rest) := by
  rcases rest with _ | ⟨c, rest⟩
  · rfl
  · rw [quotation]
    simpa using apart

/-- A quotation ends at the apostrophe that is not doubled. -/
theorem quotation_doubled (text : List Char) {rest : List Char} (apart : rest.head? ≠ some '\'') :
    quotation (doubled text ++ '\'' :: rest) = (text, rest) := by
  induction text with
  | nil => exact quotation_close apart
  | cons c text ih =>
    by_cases mark : c = '\''
    · simp [doubled, mark, quotation, ih]
    · simp only [doubled, if_neg mark, List.cons_append, quotation_cons _ mark, ih]

theorem readParts_quotation {inPlural : Bool} {c : Char} (text : List Char) {rest : List Char}
    (special : isSpecial inPlural c = true) (apart : rest.head? ≠ some '\'') :
    readParts inPlural (writtenQuotation (c :: text) ++ rest) = (do
      let (more, last) ← readParts inPlural rest
      .ok (more.prepend (c :: text), last)) := by
  have mark : c ≠ '\'' := by
    rintro rfl
    simp [isSpecial] at special
  have ends := quotation_doubled (c :: text) apart
  simp only [doubled, if_neg mark, List.cons_append] at ends
  simp only [writtenQuotation, doubled, if_neg mark, List.cons_append, List.append_assoc,
    List.nil_append, readParts_apostrophe, apostrophe, special, ite_true, ends]

/-- A literal is read back as itself in front of what follows it. -/
theorem readParts_literal {inPlural : Bool} {text rest : List Char} (given : text ≠ [])
    (apart : rest.head? ≠ some '\'') :
    readParts inPlural (writtenLiteral inPlural text ++ rest) = (do
      let (more, last) ← readParts inPlural rest
      .ok (more.prepend text, last)) := by
  have whole : unquoted inPlural text ++ quoted inPlural text = text :=
    List.takeWhile_append_dropWhile
  have plain : ∀ c ∈ unquoted inPlural text, isSpecial inPlural c = false := by
    have before : (unquoted inPlural text).all (!isSpecial inPlural ·) = true :=
      List.all_takeWhile
    simpa using before
  rw [writtenLiteral, List.append_assoc, readParts_doubled plain]
  cases tail : quoted inPlural text with
  | nil =>
    rw [tail, List.append_nil] at whole
    simp only [writtenQuotation, List.nil_append, whole, Pattern.after, if_neg given]
  | cons c more =>
    have special : isSpecial inPlural c = true := by
      have first := List.head?_dropWhile_not (!isSpecial inPlural ·) text
      rw [show text.dropWhile (!isSpecial inPlural ·) = c :: more from tail] at first
      simpa using first
    rw [readParts_quotation more special apart]
    cases readParts inPlural rest <;> simp [after_prepend, ← tail, whole]

/-! ### Names, types and offsets -/

theorem isName_cons {name : String} (named : isName name = true) :
    ∃ c rest, name.toList = c :: rest ∧ Text.isBlank c = false ∧
      ∀ d ∈ name.toList, endsName d = false := by
  rw [isName] at named
  split at named
  · cases named
  · rename_i c rest letters
    simp only [Bool.and_eq_true, Bool.not_eq_eq_eq_not, Bool.not_true, List.all_eq_true] at named
    refine ⟨c, rest, letters, named.1, ?_⟩
    rw [letters]
    exact named.2

/-- What is read behind blanks, up to the next place at which a name ends, is a name if there is
anything. -/
theorem isName_readName {text : List Char} (given : (readName (skipBlanks text)).1 ≠ []) :
    isName (String.ofList (readName (skipBlanks text)).1) = true := by
  obtain ⟨c, rest, shape⟩ := List.exists_cons_of_ne_nil given
  have inside : ∀ d ∈ c :: rest, (!endsName d) = true := by
    rw [← shape]
    exact fun _ => List.mem_takeWhile_imp (p := (!endsName ·))
  have starts : (skipBlanks text).head? = some c := by
    obtain ⟨behind, whole⟩ : c :: rest <+: skipBlanks text := shape ▸ List.takeWhile_prefix _
    rw [← whole]
    rfl
  have shown : Text.isBlank c = false := by
    have first := List.head?_dropWhile_not Text.isBlank text
    rwa [← skipBlanks, starts] at first
  rw [isName, String.toList_ofList, shape]
  simp only [shown, Bool.not_false, Bool.true_and]
  exact List.all_eq_true.mpr inside

theorem isName_of_argumentName {text rest : List Char} {name : String}
    (read : argumentName text = .ok (name, rest)) : isName name = true := by
  simp only [argumentName, bind_eq_ok] at read
  obtain ⟨inner, -, read⟩ := read
  split at read
  · simp [fail] at read
  · rename_i given
    cases read
    exact isName_readName given

theorem isName_of_optionStart {text inside : List Char} {selector : String}
    (read : optionStart (skipBlanks text) = .ok (selector, inside)) : isName selector = true := by
  simp only [optionStart] at read
  split at read
  · simp [fail] at read
  · rename_i given
    obtain ⟨inner, -, done⟩ := bind_eq_ok.mp read
    cases done
    exact isName_readName given

theorem skipBlanks_cons {c : Char} (rest : List Char) (shown : Text.isBlank c = false) :
    skipBlanks (c :: rest) = c :: rest := by
  simp [skipBlanks, shown]

theorem skipBlanks_name {name : String} (named : isName name = true) (rest : List Char) :
    skipBlanks (name.toList ++ rest) = name.toList ++ rest := by
  obtain ⟨c, letters, spelled, shown, -⟩ := isName_cons named
  rw [spelled, List.cons_append, skipBlanks_cons _ shown]

theorem readName_ended {name : String} (named : isName name = true) {text : List Char}
    (ends : ∀ c ∈ text.head?, endsName c = true) :
    readName (name.toList ++ text) = (name.toList, text) := by
  obtain ⟨-, -, -, -, letters⟩ := isName_cons named
  have inside : ∀ d ∈ name.toList, (!endsName d) = true := by simpa using letters
  have stops : ∀ c ∈ text.head?, (!endsName c) = false := by simpa using ends
  exact Prod.ext (Text.takeWhile_run inside stops) (Text.dropWhile_run inside stops)

theorem readName_name {name : String} (named : isName name = true) {c : Char} (rest : List Char)
    (ends : endsName c = true) :
    readName (name.toList ++ c :: rest) = (name.toList, c :: rest) := by
  refine readName_ended named fun d first => ?_
  cases first
  exact ends

theorem argumentName_braced {name : String} (named : isName name = true) {c : Char}
    (rest : List Char) (ends : endsName c = true) (shown : Text.isBlank c = false) :
    argumentName ('{' :: (name.toList ++ c :: rest)) = .ok (name, c :: rest) := by
  obtain ⟨d, letters, spelled, -, -⟩ := isName_cons named
  have given : name.toList ≠ [] := by simp [spelled]
  simp [argumentName, expect, skipBlanks_name named, readName_name named rest ends, given,
    skipBlanks_cons rest shown]

theorem argumentKind_plural (rest : List Char) :
    argumentKind (", plural,".toList ++ rest) = .ok ("plural", ',' :: rest) := rfl

theorem argumentKind_ordinal (rest : List Char) :
    argumentKind (", selectordinal,".toList ++ rest) = .ok ("selectordinal", ',' :: rest) := rfl

theorem argumentKind_select (rest : List Char) :
    argumentKind (", select,".toList ++ rest) = .ok ("select", ',' :: rest) := rfl

/-- A value where it fits, else the failure over an offset that is too long. -/
def GivesIf {α : Type} (fits : Bool) (value : α) (outcome : Except Stuck α) : Prop :=
  if fits then outcome = .ok value
  else ∃ remaining, outcome = .error ⟨.offsetNotDecimal, remaining⟩

theorem GivesIf.bind {α β : Type} {fits later : Bool} {value : α} {result : β}
    {first : Except Stuck α} {next : α → Except Stuck β} (begun : GivesIf fits value first)
    (further : GivesIf later result (next value)) :
    GivesIf (fits && later) result (first >>= next) := by
  cases fits with
  | true =>
    have done : first = .ok value := by simpa [GivesIf] using begun
    rwa [done, ok_bind, Bool.true_and]
  | false =>
    obtain ⟨remaining, failed⟩ : ∃ remaining, first = .error ⟨.offsetNotDecimal, remaining⟩ := by
      simpa [GivesIf] using begun
    rw [failed, error_bind]
    exact ⟨remaining, rfl⟩

theorem GivesIf.after {α β : Type} {fits : Bool} {value : α} {result : β}
    {first : Except Stuck α} {next : α → Except Stuck β} (done : first = .ok value)
    (further : GivesIf fits result (next value)) : GivesIf fits result (first >>= next) := by
  rwa [done, ok_bind]

theorem GivesIf.before {α β : Type} {fits : Bool} {value : α} {result : β}
    {first : Except Stuck α} {next : α → Except Stuck β} (begun : GivesIf fits value first)
    (done : next value = .ok result) : GivesIf fits result (first >>= next) := by
  rw [← Bool.and_true fits]
  exact GivesIf.bind begun done

theorem givesIf_true {α : Type} {value : α} {outcome : Except Stuck α} :
    GivesIf true value outcome ↔ outcome = .ok value := Iff.rfl

/-- A written offset is read up to the blank that follows it. -/
theorem readOffset_written (offset : Nat) (rest : List Char) :
    GivesIf (fitsOffset offset) (offset, ' ' :: rest)
      (readOffset (" offset:".toList ++ (Number.digits offset ++ ' ' :: rest))) := by
  have digit : ∀ c ∈ Number.digits offset, Text.isDigit c = true := fun c member =>
    Number.isDigit_of_plain (Number.plain_of_mem_digits member)
  have decimal : ∀ c ∈ Number.digits offset, (Text.decimalValue? c).isSome = true := by
    intro c member
    simp [Number.decimalValue?_of_isDigit (Number.plain_of_mem_digits member)]
  have started : dropBeginning "offset:".toList (skipBlanks (" offset:".toList ++
      (Number.digits offset ++ ' ' :: rest))) = some (Number.digits offset ++ ' ' :: rest) := rfl
  have shown : skipBlanks (Number.digits offset ++ ' ' :: rest) =
      Number.digits offset ++ ' ' :: rest := by
    cases spelled : Number.digits offset with
    | nil => exact absurd spelled (Number.digits_ne_nil offset)
    | cons c more =>
      exact skipBlanks_cons _ (Number.not_blank_of_plain
        (Number.plain_of_mem_digits (n := offset) (by simp [spelled])))
  have stops : ∀ c ∈ (' ' :: rest).head?, Text.isDigit c = false := by
    rintro c ⟨⟩
    decide
  have taken := Text.takeWhile_run digit stops
  have left := Text.dropWhile_run digit stops
  have limit : fitsOffset offset = true ↔
      (Number.digits offset).length ≤ Number.digitLimit := decide_eq_true_iff
  rw [readOffset, started]
  simp only [shown, taken, left, if_neg (Number.digits_ne_nil offset), List.all_eq_true.mpr decimal,
    true_and, ← limit, Number.ofDigits_digits]
  generalize fitsOffset offset = short
  cases short with
  | true => exact givesIf_true.mpr rfl
  | false => exact ⟨_, rfl⟩

/-! ### Arguments -/

theorem between_append (written rest : List Char) :
    between (written ++ rest) rest = String.ofList written := by
  rw [between, List.length_append, Nat.add_sub_cancel, List.take_left]

theorem readArgument_braced (inPlural : Bool) {name : String} (named : isName name = true)
    (rest : List Char) :
    readArgument inPlural (braced name [] ++ rest) =
      .ok (.argument name (String.ofList (braced name [])), rest) := by
  have opened : argumentName (braced name [] ++ rest) = .ok (name, '}' :: rest) := by
    simpa [braced] using argumentName_braced named rest (c := '}') (by decide) (by decide)
  rw [readArgument_of_closed opened, between_append]

theorem argumentName_typed {name : String} (named : isName name = true)
    (inner rest : List Char) :
    argumentName (braced name (',' :: inner) ++ rest) =
      .ok (name, ',' :: (inner ++ '}' :: rest)) := by
  simpa [braced] using
    argumentName_braced named (inner ++ '}' :: rest) (c := ',') (by decide) (by decide)

theorem choiceEnd_close {choices : List (String × Pattern)} (given : choices ≠ [])
    (rest : List Char) : choiceEnd choices ('}' :: rest) = .ok rest := by
  simp [choiceEnd, given, expect]

theorem choiceStart_offset (rest : List Char) :
    choiceStart true (',' :: rest) = readOffset rest := rfl

theorem choiceStart_plain (rest : List Char) :
    choiceStart false (',' :: rest) = .ok (0, rest) := rfl

section Choice

variable {fits : Bool} {name : String} {options rest : List Char}
  {choices : List (String × Pattern)}

theorem readArgument_plural (inPlural : Bool) (offset : Nat) (named : isName name = true)
    (given : choices ≠ [])
    (chosen : GivesIf fits (choices, '}' :: rest)
      (readOptions true (' ' :: (options ++ '}' :: rest)))) :
    GivesIf (fitsOffset offset && fits)
      (.plural name (String.ofList (braced name (writtenKind offset false ++ ' ' :: options)))
        choices offset false, rest)
      (readArgument inPlural
        (braced name (writtenKind offset false ++ ' ' :: options) ++ rest)) := by
  have opened : argumentName (braced name (writtenKind offset false ++ ' ' :: options) ++ rest) =
      .ok (name, _) := argumentName_typed named
    (" plural, offset:".toList ++ (Number.digits offset ++ ' ' :: options)) rest
  have typed := argumentKind_plural (" offset:".toList ++
    (Number.digits offset ++ ' ' :: (options ++ '}' :: rest)))
  have begun := readOffset_written offset (options ++ '}' :: rest)
  have closed := choiceEnd_close given rest
  have source := between_append (braced name (writtenKind offset false ++ ' ' :: options)) rest
  rw [readArgument_of_typed opened]
  simp only [List.append_assoc, List.cons_append]
  refine GivesIf.after typed ?_
  refine GivesIf.bind (choiceStart_offset _ ▸ begun) (GivesIf.before chosen ?_)
  simp only [closed, ok_bind, source]
  rfl

theorem readArgument_ordinal (inPlural : Bool) (named : isName name = true) (given : choices ≠ [])
    (chosen : GivesIf fits (choices, '}' :: rest) (readOptions true (options ++ '}' :: rest))) :
    GivesIf fits
      (.plural name (String.ofList (braced name (writtenKind 0 true ++ options)))
        choices 0 true, rest)
      (readArgument inPlural (braced name (writtenKind 0 true ++ options) ++ rest)) := by
  have opened : argumentName (braced name (writtenKind 0 true ++ options) ++ rest) =
      .ok (name, _) := argumentName_typed named (" selectordinal,".toList ++ options) rest
  have typed := argumentKind_ordinal (options ++ '}' :: rest)
  have closed := choiceEnd_close given rest
  have source := between_append (braced name (writtenKind 0 true ++ options)) rest
  rw [readArgument_of_typed opened]
  simp only [List.append_assoc]
  refine GivesIf.after typed (GivesIf.after (choiceStart_plain _) (GivesIf.before chosen ?_))
  simp only [closed, ok_bind, source]
  rfl

theorem readArgument_select (inPlural : Bool) (named : isName name = true) (given : choices ≠ [])
    (chosen : GivesIf fits (choices, '}' :: rest)
      (readOptions inPlural (options ++ '}' :: rest))) :
    GivesIf fits
      (.select name (String.ofList (braced name (", select,".toList ++ options))) choices, rest)
      (readArgument inPlural (braced name (", select,".toList ++ options) ++ rest)) := by
  have opened : argumentName (braced name (", select,".toList ++ options) ++ rest) =
      .ok (name, _) := argumentName_typed named (" select,".toList ++ options) rest
  have typed := argumentKind_select (options ++ '}' :: rest)
  have closed := choiceEnd_close given rest
  have source := between_append (braced name (", select,".toList ++ options)) rest
  rw [readArgument_of_typed opened]
  simp only [List.append_assoc]
  refine GivesIf.after typed (GivesIf.after (choiceStart_plain _) (GivesIf.before chosen ?_))
  simp only [closed, ok_bind, source]

end Choice

/-! ### Patterns -/

theorem optionStart_written {selector : String} (named : isName selector = true)
    (rest : List Char) :
    optionStart (selector.toList ++ ' ' :: '{' :: rest) = .ok (selector, rest) := by
  obtain ⟨c, letters, spelled, -, -⟩ := isName_cons named
  have given : selector.toList ≠ [] := by simp [spelled]
  have opened : skipBlanks (' ' :: '{' :: rest) = '{' :: rest := rfl
  simp [optionStart, readName_name named _ (c := ' ') (by decide), given, opened, expect]

/-- An option whose selector stands after one blank. -/
theorem readOptions_selector (inPlural : Bool) {selector : String} (named : isName selector = true)
    (inside : List Char) :
    readOptions inPlural (' ' :: (selector.toList ++ ' ' :: '{' :: inside)) = (do
      let (body, rest) ← readParts inPlural inside
      let rest ← expect '}' rest
      let (more, rest) ← readOptions inPlural rest
      .ok ((selector, body) :: more, rest)) := by
  obtain ⟨c, letters, spelled, -, stops⟩ := isName_cons named
  have inner : c ≠ '}' := by
    rintro rfl
    exact absurd (stops '}' (by simp [spelled])) (by decide)
  have started := optionStart_written named inside
  have shown : skipBlanks (' ' :: (selector.toList ++ ' ' :: '{' :: inside)) =
      selector.toList ++ ' ' :: '{' :: inside :=
    skipBlanks_name named _
  rw [spelled, List.cons_append] at shown started ⊢
  rw [readOptions_of_start inPlural shown inner, started]
  rfl

theorem readOptions_option {inPlural fits later : Bool} {selector : String} {body : Pattern}
    {more : List (String × Pattern)} {text tail last : List Char} (named : isName selector = true)
    (inside : GivesIf fits (body, '}' :: tail) (readParts inPlural (text ++ '}' :: tail)))
    (further : GivesIf later (more, last) (readOptions inPlural tail)) :
    GivesIf (fits && later) ((selector, body) :: more, last)
      (readOptions inPlural (' ' :: (selector.toList ++ ' ' :: '{' :: (text ++ '}' :: tail)))) := by
  rw [readOptions_selector inPlural named]
  refine GivesIf.bind inside ?_
  exact GivesIf.after rfl (GivesIf.before further rfl)

/-- What follows a whole pattern. -/
def Closes (rest : List Char) : Prop := rest = [] ∨ ∃ more, rest = '}' :: more

theorem readParts_closes (inPlural : Bool) {rest : List Char} (closes : Closes rest) :
    readParts inPlural rest = .ok ([], rest) := by
  rcases closes with rfl | ⟨more, rfl⟩
  · rfl
  · exact readParts_close inPlural more

/-- No quotation is prolonged by what stands after its literal. -/
theorem head?_written_ne {inPlural : Bool} {pattern : Pattern} {rest : List Char}
    (apart : startsWithLiteral pattern = false) (closes : Closes rest) :
    (Pattern.written inPlural pattern ++ rest).head? ≠ some '\'' := by
  rcases pattern with _ | ⟨part, more⟩
  · rcases closes with rfl | ⟨more, rfl⟩ <;> simp [Pattern.written]
  · cases part <;> simp_all [Pattern.written, Part.written, braced, startsWithLiteral]

theorem readParts_argument {inPlural fits later : Bool} {part : Part} {more : Pattern}
    {inner tail last : List Char}
    (begun : GivesIf fits (part, tail) (readArgument inPlural ('{' :: inner)))
    (further : GivesIf later (more, last) (readParts inPlural tail)) :
    GivesIf (fits && later) (part :: more, last) (readParts inPlural ('{' :: inner)) := by
  rw [readParts_open]
  exact GivesIf.bind begun (GivesIf.before further rfl)

theorem sourcedOptions_ne_nil (inPlural : Bool) {options : List (String × List Part)}
    (given : options ≠ []) : sourcedOptions inPlural options ≠ [] := by
  rcases options with _ | ⟨⟨selector, body⟩, more⟩
  · exact absurd rfl given
  · simp [sourcedOptions]

/-- Written options begin with a blank, at which an offset before them ends. -/
theorem writtenOptions_blank (inPlural : Bool) {options : List (String × List Part)}
    (given : options ≠ []) : ∃ inner, writtenOptions inPlural options = ' ' :: inner := by
  rcases options with _ | ⟨⟨selector, body⟩, more⟩
  · exact absurd rfl given
  · exact ⟨_, rfl⟩

theorem startsWithLiteral_sourced (inPlural : Bool) (pattern : List Part) :
    startsWithLiteral pattern = startsWithLiteral (Pattern.sourced inPlural pattern) := by
  rcases pattern with _ | ⟨part, more⟩
  · rfl
  · cases part <;> rfl

mutual

theorem readArgument_written (inPlural : Bool) (part : Part) (normal : part.isNormal inPlural)
    (notLiteral : startsWithLiteral [part] = false) (notPound : part ≠ .pound)
    (rest : List Char) :
    GivesIf part.fits (part.sourced inPlural, rest)
      (readArgument inPlural (part.written inPlural ++ rest)) := by
  match part with
  | .literal text => cases notLiteral
  | .pound => exact absurd rfl notPound
  | .argument name source => exact readArgument_braced inPlural normal rest
  | .plural name source options offset ordinal =>
    simp only [Part.isNormal, Bool.and_eq_true, Bool.not_eq_eq_eq_not, Bool.not_true,
      List.isEmpty_eq_false_iff] at normal
    obtain ⟨⟨⟨named, plain⟩, given⟩, normalOptions⟩ := normal
    have chosen := readOptions_written true options normalOptions rest
    have given' := sourcedOptions_ne_nil true given
    cases ordinal with
    | false =>
      obtain ⟨inner, blank⟩ := writtenOptions_blank true given
      simp only [Part.sourced, Part.written, blank] at chosen ⊢
      exact readArgument_plural inPlural offset named given' chosen
    | true =>
      obtain rfl : offset = 0 := by simpa using plain
      have whole := readArgument_ordinal inPlural named given' chosen
      have short : fitsOffset 0 = true := by decide
      rw [Part.fits, short, Bool.true_and]
      exact whole
  | .select name source options =>
    simp only [Part.isNormal, Bool.and_eq_true, Bool.not_eq_eq_eq_not, Bool.not_true,
      List.isEmpty_eq_false_iff] at normal
    obtain ⟨⟨named, given⟩, normalOptions⟩ := normal
    have chosen := readOptions_written inPlural options normalOptions rest
    exact readArgument_select inPlural named (sourcedOptions_ne_nil inPlural given) chosen

theorem readParts_written (inPlural : Bool) (pattern : List Part)
    (normal : Pattern.isNormal inPlural pattern) {rest : List Char} (closes : Closes rest) :
    GivesIf (Pattern.fits pattern) (Pattern.sourced inPlural pattern, rest)
      (readParts inPlural (Pattern.written inPlural pattern ++ rest)) := by
  match pattern with
  | [] => exact readParts_closes inPlural closes
  | part :: more =>
    simp only [Pattern.isNormal, Bool.and_eq_true] at normal
    obtain ⟨⟨normalPart, apart⟩, normalMore⟩ := normal
    have further := readParts_written inPlural more normalMore closes
    rw [Pattern.written, Pattern.sourced, Pattern.fits, List.append_assoc]
    match part with
    | .literal text =>
      have given : text.toList ≠ [] := by simpa [Part.isNormal] using normalPart
      have lone : startsWithLiteral more = false := by simpa [startsWithLiteral] using apart
      have loneSourced : startsWithLiteral (Pattern.sourced inPlural more) = false := by
        rw [← startsWithLiteral_sourced, lone]
      have joined := prepend_of_not_literal text.toList loneSourced
      rw [Part.written, readParts_literal given (head?_written_ne lone closes)]
      refine GivesIf.before further ?_
      simp only [joined, String.ofList_toList, Part.sourced]
    | .pound =>
      obtain rfl : inPlural = true := normalPart
      rw [Part.written, List.singleton_append, readParts_pound]
      exact GivesIf.before further rfl
    | .argument name source =>
      exact readParts_argument (readArgument_written inPlural _ normalPart rfl (by simp) _) further
    | .plural name source options offset ordinal =>
      exact readParts_argument (readArgument_written inPlural _ normalPart rfl (by simp) _) further
    | .select name source options =>
      exact readParts_argument (readArgument_written inPlural _ normalPart rfl (by simp) _) further

theorem readOptions_written (inPlural : Bool) (options : List (String × List Part))
    (normal : normalOptions inPlural options) (rest : List Char) :
    GivesIf (fittingOptions options) (sourcedOptions inPlural options, '}' :: rest)
      (readOptions inPlural (writtenOptions inPlural options ++ '}' :: rest)) := by
  match options with
  | [] => exact readOptions_close inPlural rest
  | (selector, body) :: more =>
    simp only [normalOptions, Bool.and_eq_true] at normal
    obtain ⟨⟨named, normalBody⟩, normalMore⟩ := normal
    have further := readOptions_written inPlural more normalMore rest
    have closes : Closes ('}' :: (writtenOptions inPlural more ++ '}' :: rest)) := .inr ⟨_, rfl⟩
    have inside := readParts_written inPlural body normalBody closes
    simp only [writtenOptions, List.cons_append, List.append_assoc]
    exact readOptions_option named inside further

end

theorem parse_printed_of_fits {pattern : Pattern} (normal : Pattern.isNormal false pattern = true)
    (fits : Pattern.fits pattern = true) :
    parse (printed pattern) = .ok (Pattern.sourced false pattern) := by
  have whole := readParts_written false pattern normal (.inl rfl)
  have done : readParts false (Pattern.written false pattern) =
      .ok (Pattern.sourced false pattern, []) := by
    simpa [GivesIf, fits] using whole
  rw [parse, printed, String.toList_ofList, parseChars_eq, done]
  rfl

theorem parse_printed_of_not_fits {pattern : Pattern}
    (normal : Pattern.isNormal false pattern = true) (long : Pattern.fits pattern = false) :
    ∃ position, parse (printed pattern) = .error ⟨.offsetNotDecimal, position⟩ := by
  have whole := readParts_written false pattern normal (.inl rfl)
  obtain ⟨remaining, failed⟩ : ∃ remaining,
      readParts false (Pattern.written false pattern) = .error ⟨.offsetNotDecimal, remaining⟩ := by
    simpa [GivesIf, long] using whole
  rw [parse, printed, String.toList_ofList, parseChars_eq, failed]
  exact ⟨_, rfl⟩

/-- A normal pattern is what its text is read as, with the texts of its arguments as their sources,
unless one of its offsets has too many digits to be read. -/
theorem parse_printed (pattern : Pattern) (normal : Pattern.isNormal false pattern = true) :
    (Pattern.fits pattern = true →
      parse (printed pattern) = .ok (Pattern.sourced false pattern)) ∧
    (Pattern.fits pattern = false →
      ∃ position, parse (printed pattern) = .error ⟨.offsetNotDecimal, position⟩) :=
  ⟨parse_printed_of_fits normal, parse_printed_of_not_fits normal⟩

/-- Quotations, doubled apostrophes and pounds at each depth of a plural choice. -/
def guestList : Pattern := [
    .literal "it's '\x7b'", .argument "host" "",
    .plural "n" "" [
      ("=0", [.literal "no one's # \x7bhere\x7d"]),
      ("other", [.pound, .literal " of ",
        .select "kind" "" [("vip", [.literal "#'", .pound]), ("other", [.argument "rest" ""])]])]
      1 false,
    .plural "place" "" [("other", [.pound, .literal "'th'"])] 0 true]

theorem parse_printed_guestList :
    Pattern.isNormal false guestList = true ∧ Pattern.fits guestList = true ∧
      parse (printed guestList) = .ok (Pattern.sourced false guestList) := by
  have normal : Pattern.isNormal false guestList = true := by decide
  have fits : Pattern.fits guestList = true := by decide
  exact ⟨normal, fits, (parse_printed guestList normal).1 fits⟩

/-- A choice whose offset has one digit more than a whole number may have. -/
def longOffset : Pattern :=
  [.plural "n" "" [("other", [.literal "x"])] (10 ^ Number.digitLimit) false]

/-- A pattern that is normal throughout need not be read: one long offset is enough. -/
theorem parse_printed_longOffset :
    Pattern.isNormal false longOffset = true ∧
      parse (printed longOffset) ≠ .ok (Pattern.sourced false longOffset) := by
  have normal : Pattern.isNormal false longOffset = true := by decide
  have long : fitsOffset (10 ^ Number.digitLimit) = false := by
    rw [fitsOffset, decide_eq_false_iff_not, Number.digitCount_le_iff (by decide)]
    exact Nat.lt_irrefl _
  have unread : Pattern.fits longOffset = false := by
    simp [longOffset, Pattern.fits, Part.fits, long]
  obtain ⟨position, failed⟩ := parse_printed_of_not_fits normal unread
  refine ⟨normal, ?_⟩
  rw [failed]
  exact nofun

end Phrasebook.Message

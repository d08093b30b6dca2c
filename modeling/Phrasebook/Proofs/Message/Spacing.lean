import Phrasebook.Proofs.Message.Places

set_option autoImplicit false

/-!
Blanks between the tokens of a message. Every blank is passed before a name, but a name ends only
at some of them: a blank that is put directly after a name belongs to it unless names end there.
-/
namespace Phrasebook.Message

open Outcome (toOption_eq_some)

/-! ### Reading with blanks put in -/

/-- Characters put at a place leave what is read as it is if they fit, and change it otherwise. -/
def SpacedAt {α : Type} (read : List Char → Option (α × List Char)) (fits : Prop)
    (run front tail : List Char) : Prop :=
  ∀ value rest, read (front ++ tail) = some (value, rest) →
    (fits → read (front ++ (run ++ tail)) = some (value, rest)) ∧
      (¬ fits → ∀ other left, read (front ++ (run ++ tail)) = some (other, left) → other ≠ value)

section SpacedAt

variable {α β : Type} {read : List Char → Option (α × List Char)} {fits : Prop}
  {run front middle tail : List Char}

/-- Up to a place farther on, reading does not depend on what follows it. -/
theorem SpacedAt.shift {next : List Char → Option (α × List Char)}
    (own : SpacedAt next fits run middle tail)
    (without : read (front ++ tail) = next (middle ++ tail))
    (spaced : read (front ++ (run ++ tail)) = next (middle ++ (run ++ tail))) :
    SpacedAt read fits run front tail := by
  intro value rest found
  rw [without] at found
  rw [spaced]
  exact own value rest found

theorem SpacedAt.map {change : α → β} (own : SpacedAt read fits run front tail)
    (apart : ∀ one other, (∃ text rest, read text = some (one, rest)) →
      (∃ text rest, read text = some (other, rest)) → change one = change other → one = other) :
    SpacedAt (fun text => (read text).map fun result => (change result.1, result.2))
      fits run front tail := by
  intro value rest found
  obtain ⟨⟨inner, left⟩, first, same⟩ := Option.map_eq_some_iff.mp found
  cases same
  obtain ⟨keeps, differs⟩ := own inner left first
  refine ⟨fun fit => by dsimp only; rw [keeps fit, Option.map_some], ?_⟩
  rintro unfit value last again rfl
  obtain ⟨⟨other, left⟩, second, same⟩ := Option.map_eq_some_iff.mp again
  exact differs unfit other left second
    (apart other inner ⟨_, _, second⟩ ⟨_, _, first⟩ (congrArg Prod.fst same))

theorem SpacedAt.bind (own : SpacedAt read fits run front tail)
    (next : α → List Char → Option (β × List Char))
    (apart : ∀ {one other text between value left right}, next one text = some (value, left) →
      next other between = some (value, right) → one = other) :
    SpacedAt (fun text => (read text).bind fun result => next result.1 result.2)
      fits run front tail := by
  intro value rest found
  obtain ⟨⟨inner, left⟩, first, later⟩ := Option.bind_eq_some_iff.mp found
  obtain ⟨keeps, differs⟩ := own inner left first
  refine ⟨fun fit => by dsimp only; rw [keeps fit, Option.bind_some, later], ?_⟩
  rintro unfit value last again rfl
  obtain ⟨⟨other, left⟩, second, later'⟩ := Option.bind_eq_some_iff.mp again
  exact differs unfit other left second (apart later' later)

/-- Where the characters fit anyway, reading the same with them is all that there is to show. -/
theorem spacedAt_of_eq (fit : fits) (same : read (front ++ (run ++ tail)) = read (front ++ tail)) :
    SpacedAt read fits run front tail := fun _ _ found =>
  ⟨fun _ => same.trans found, fun unfit => absurd fit unfit⟩

theorem LocalAt.reads (own : LocalAt read front tail) {value : α} (given : middle ≠ [])
    (found : read (front ++ tail) = some (value, middle ++ tail)) (other : List Char) :
    read (front ++ other) = some (value, middle ++ other) := by
  have long : tail.length < (middle ++ tail).length := by
    have some := List.length_pos_iff.mpr given
    rw [List.length_append]
    omega
  obtain ⟨inner, same, reads⟩ := own value _ found long
  obtain rfl := List.append_cancel_right same
  exact reads other

end SpacedAt

/-! ### Names with blanks at them -/

section Name

variable {known : String → Prop} {run front tail : List Char} {touches : Bool} {name : String}

theorem skipBlanks_of_blank (blank : ∀ c ∈ front, Text.isBlank c = true) (text : List Char) :
    skipBlanks (front ++ text) = skipBlanks text :=
  List.dropWhile_append_of_pos blank

theorem readName_append (named : isName name = true) (text : List Char) :
    readName (name.toList ++ text) = (name.toList ++ (readName text).1, (readName text).2) := by
  obtain ⟨-, -, -, -, letters⟩ := isName_cons named
  have inside : ∀ d ∈ name.toList, (!endsName d) = true := by simpa using letters
  exact Prod.ext (List.takeWhile_append_of_pos inside) (List.dropWhile_append_of_pos inside)

/-- A name goes on with characters at which no name ends. -/
theorem readName_continued (named : isName name = true) {c : Char} (on : endsName c = false)
    (text : List Char) :
    ∃ more, (readName (name.toList ++ c :: text)).1 = name.toList ++ c :: more := by
  refine ⟨text.takeWhile (!endsName ·), ?_⟩
  rw [readName_append named, readName, List.takeWhile_cons_of_pos (by simp [on])]

theorem skipBlanks_named (named : isName name = true) (before : ∀ c ∈ front, Text.isBlank c = true)
    (blanks text : List Char) :
    skipBlanks (front ++ (name.toList ++ blanks) ++ text) = name.toList ++ (blanks ++ text) := by
  rw [List.append_assoc, List.append_assoc, skipBlanks_of_blank before, skipBlanks_name named]

/-- Blanks at a name are passed with it, or else continue it. -/
theorem Beside.readToken (beside : Beside known front tail touches)
    (blank : ∀ c ∈ run, Text.isBlank c = true) :
    (Fits touches run → readToken (front ++ (run ++ tail)) = readToken (front ++ tail)) ∧
      (¬ Fits touches run → ∃ name c more, known name ∧ isName name = true ∧
        Text.isBlank c = true ∧ (readToken (front ++ tail)).1 = name.toList ∧
          (readToken (front ++ (run ++ tail))).1 = name.toList ++ c :: more) := by
  cases beside with
  | before around =>
    refine ⟨fun _ => ?_, fun unfit => absurd (by simp [Fits]) unfit⟩
    simp only [Message.readToken, skipBlanks_of_blank around, skipBlanks_of_blank blank]
  | @behind front name blanks tail given named around ends =>
    have before : ∀ c ∈ front, Text.isBlank c = true := fun c inside =>
      around c (List.mem_append_left _ inside)
    have after : ∀ c ∈ blanks, Text.isBlank c = true := fun c inside =>
      around c (List.mem_append_right _ inside)
    have shown := skipBlanks_named named before blanks
    have passed {other : List Char} (stops : ∀ c ∈ (blanks ++ other).head?, endsName c = true) :
        Message.readToken (front ++ (name.toList ++ blanks) ++ other) =
          (name.toList, skipBlanks other) := by
      simp only [Message.readToken, shown, readName_ended named stops, skipBlanks_of_blank after]
    constructor
    · intro fit
      rw [passed ends, passed, skipBlanks_of_blank blank]
      cases blanks with
      | cons d blanks => exact ends
      | nil =>
        cases run with
        | nil => exact ends
        | cons c run => exact fit rfl
    · intro unfit
      simp only [Fits, List.isEmpty_iff, not_forall, Bool.not_eq_true] at unfit
      obtain ⟨rfl, c, first, on⟩ := unfit
      cases run with
      | nil => cases first
      | cons d run =>
        cases first
        obtain ⟨more, continued⟩ := readName_continued named on (run ++ tail)
        refine ⟨name, c, more, given, named, blank c List.mem_cons_self, ?_, ?_⟩
        · rw [passed ends]
        · rw [Message.readToken, shown]
          exact continued

end Name

/-! ### Places at names -/

/-- The name that stands in a part. -/
def Part.name? : Part → Option String
  | .literal _ => none
  | .pound => none
  | .argument name _ => some name
  | .plural name _ _ _ _ => some name
  | .select name _ _ => some name

section Place

variable {inPlural : Bool} {name : String} {text rest front tail run : List Char} {touches : Bool}

theorem choiceAt_name {kind : Kind} {part : Part}
    (found : choiceAt kind inPlural name text = some (part, rest)) :
    ∃ offset choices, part = kind.part name offset choices := by
  obtain ⟨begun, -, found⟩ := Option.bind_eq_some_iff.mp found
  obtain ⟨chosen, -, found⟩ := Option.bind_eq_some_iff.mp found
  obtain ⟨after, -, same⟩ := Option.map_eq_some_iff.mp found
  cases same
  exact ⟨_, _, rfl⟩

theorem Kind.name?_part (kind : Kind) (name : String) (offset : Nat)
    (choices : List (String × Pattern)) : (kind.part name offset choices).name? = some name := by
  cases kind <;> rfl

theorem tailAt_name {part : Part} (found : tailAt inPlural name text = some (part, rest)) :
    part.name? = some name := by
  unfold tailAt at found
  split at found
  · cases found
    rfl
  · obtain ⟨typed, -, found⟩ := Option.bind_eq_some_iff.mp found
    unfold kindAt at found
    split at found
    · obtain ⟨offset, choices, rfl⟩ := choiceAt_name found
      exact Kind.name?_part _ name offset choices
    · obtain ⟨after, -, same⟩ := Option.map_eq_some_iff.mp found
      cases same
      rfl

theorem spacedAt_givenName {known : String → Prop} (beside : Beside known front tail touches)
    (blank : ∀ c ∈ run, Text.isBlank c = true) :
    SpacedAt givenName (Fits touches run) run front tail := by
  obtain ⟨keeps, continues⟩ := beside.readToken blank
  intro name rest found
  refine ⟨fun fit => by rw [givenName, keeps fit]; exact found, ?_⟩
  rintro unfit other left again rfl
  obtain ⟨name, c, more, -, -, -, own, longer⟩ := continues unfit
  rw [givenName] at found again
  split at found <;> cases found
  split at again
  · cases again
  · have same := String.ofList_inj.mp (congrArg Prod.fst (Option.some.inj again))
    rw [own, longer] at same
    simp at same

theorem argumentAt_opened (text : List Char) :
    argumentAt inPlural ('{' :: text) =
      (givenName text).bind fun named => tailAt inPlural named.1 named.2 := by
  rw [argumentAt_eq, argumentName_toOption]
  rfl

theorem spacedAt_argument (beside : Beside (fun _ => True) front tail touches)
    (blank : ∀ c ∈ run, Text.isBlank c = true) :
    SpacedAt (argumentAt inPlural) (Fits touches run) run ('{' :: front) tail := by
  refine ((spacedAt_givenName beside blank).bind (tailAt inPlural) ?_).shift
    (argumentAt_opened _) (argumentAt_opened _)
  intro one other _ _ part _ _ first second
  exact Option.some.inj ((tailAt_name first).symm.trans (tailAt_name second))

theorem tailAt_comma (text : List Char) :
    tailAt inPlural name (',' :: text) =
      kindAt inPlural name (String.ofList (readToken text).1) (readToken text).2 := by
  rw [tailAt_typed inPlural name (by simp), argumentKind_toOption]
  rfl

/-- The types of choices are written without blanks. -/
theorem Kind.of?_of_blank {text : String} {c : Char} (inside : c ∈ text.toList)
    (blank : Text.isBlank c = true) : Kind.of? text = none := by
  have visible : ∀ kind : Kind, kind.text.toList.all (!Text.isBlank ·) = true := by
    intro kind
    cases kind <;> decide
  by_contra found
  obtain ⟨kind, found⟩ := Option.ne_none_iff_exists'.mp found
  rw [Kind.text_of_of? found] at inside
  have shown := List.all_eq_true.mp (visible kind) c inside
  rw [blank] at shown
  cases shown

theorem spacedAt_tail (beside : Beside (fun name => (Kind.of? name).isSome) front tail touches)
    (blank : ∀ c ∈ run, Text.isBlank c = true) :
    SpacedAt (tailAt inPlural name) (Fits touches run) run (',' :: front) tail := by
  obtain ⟨keeps, continues⟩ := beside.readToken blank
  intro part rest found
  rw [List.cons_append, tailAt_comma] at found ⊢
  refine ⟨fun fit => by rw [keeps fit]; exact found, ?_⟩
  rintro unfit other left again rfl
  obtain ⟨kind, c, more, known, -, visible, own, longer⟩ := continues unfit
  obtain ⟨kind, of⟩ := Option.isSome_iff_exists.mp known
  rw [own, String.ofList_toList, kindAt, of] at found
  rw [longer, kindAt, Kind.of?_of_blank (c := c) (by simp) visible] at again
  obtain ⟨after, -, same⟩ := Option.map_eq_some_iff.mp again
  obtain ⟨offset, choices, rfl⟩ := choiceAt_name found
  cases kind <;> cases same

/-- A choice from its options. -/
def chosenAt (kind : Kind) (inPlural : Bool) (name : String) (offset : Nat) (text : List Char) :
    Option (Part × List Char) :=
  (optionsAt (kind.inPlural inPlural) text).bind fun chosen =>
    (choiceEnd chosen.1 chosen.2).toOption.map fun after =>
      (kind.part name offset chosen.1, after)

theorem choiceAt_of_begun {kind : Kind} {offset : Nat}
    (begun : choiceStart kind.hasOffset text = .ok (offset, rest)) :
    choiceAt kind inPlural name text = chosenAt kind inPlural name offset rest := by
  rw [choiceAt, begun]
  rfl

theorem chosenAt_skipBlanks (kind : Kind) (offset : Nat) (text : List Char) :
    chosenAt kind inPlural name offset (skipBlanks text) =
      chosenAt kind inPlural name offset text := by
  rw [chosenAt, optionsAt_skipBlanks, chosenAt]

theorem choiceAt_of_blank (kind : Kind) (blank : ∀ c ∈ front, Text.isBlank c = true) :
    choiceAt kind inPlural name (',' :: (front ++ text)) =
      choiceAt kind inPlural name (',' :: text) := by
  have skips := skipBlanks_of_blank blank text
  cases may : kind.hasOffset with
  | false =>
    have begun (text : List Char) : choiceStart kind.hasOffset (',' :: text) = .ok (0, text) := by
      rw [may]
      rfl
    rw [choiceAt_of_begun (begun _), choiceAt_of_begun (begun _), ← chosenAt_skipBlanks, skips,
      chosenAt_skipBlanks]
  | true =>
    have begun : choiceStart kind.hasOffset (',' :: (front ++ text)) =
        choiceStart kind.hasOffset (',' :: text) := by
      rw [may]
      exact readOffset_congr skips
    rw [choiceAt, begun, choiceAt]

theorem spacedAt_choice {kind : Kind} (around : ∀ c ∈ front, Text.isBlank c = true)
    (blank : ∀ c ∈ run, Text.isBlank c = true) :
    SpacedAt (choiceAt kind inPlural name) (Fits false run) run (',' :: front) tail := by
  refine spacedAt_of_eq (by simp [Fits]) ?_
  rw [List.cons_append, List.cons_append, choiceAt_of_blank kind around,
    choiceAt_of_blank kind around, choiceAt_of_blank kind blank]

theorem optionsAt_of_given (given : (readToken text).1 ≠ []) :
    optionsAt inPlural text = (givenName text).bind fun named =>
      (expect '{' named.2).toOption.bind (optionAt inPlural named.1) := by
  have started : optionsAt inPlural text = (optionStart (skipBlanks text)).toOption.bind
      fun begun => optionAt inPlural begun.1 begun.2 := by
    cases shown : skipBlanks text with
    | nil =>
      rw [readToken, shown] at given
      exact absurd rfl given
    | cons c inner =>
      rw [← shown]
      refine optionsAt_start inPlural shown ?_
      rintro rfl
      rw [readToken, shown] at given
      exact given rfl
  rw [started, optionStart_toOption, Option.bind_assoc]
  refine Option.bind_congr fun named _ => ?_
  rw [Option.bind_assoc]
  rfl

theorem optionAt_selector {selector : String} {choices : List (String × Pattern)}
    (found : optionAt inPlural selector text = some (choices, rest)) :
    ∃ body more, choices = (selector, body) :: more := by
  obtain ⟨body, -, found⟩ := Option.bind_eq_some_iff.mp found
  obtain ⟨_, -, found⟩ := Option.bind_eq_some_iff.mp found
  obtain ⟨more, -, same⟩ := Option.map_eq_some_iff.mp found
  cases same
  exact ⟨_, _, rfl⟩

theorem spacedAt_options (beside : Beside (fun _ => True) front tail touches)
    (blank : ∀ c ∈ run, Text.isBlank c = true) :
    SpacedAt (optionsAt inPlural) (Fits touches run) run front tail := by
  have chosen := (spacedAt_givenName beside blank).bind
    (fun selector text => (expect '{' text).toOption.bind (optionAt inPlural selector)) (by
      intro one other _ _ choices _ _ first second
      obtain ⟨_, -, first⟩ := Option.bind_eq_some_iff.mp first
      obtain ⟨_, -, second⟩ := Option.bind_eq_some_iff.mp second
      obtain ⟨_, _, rfl⟩ := optionAt_selector first
      obtain ⟨_, _, same⟩ := optionAt_selector second
      exact congrArg Prod.fst (List.cons.inj same).1)
  cases beside with
  | before around =>
    refine spacedAt_of_eq (by simp [Fits]) ?_
    rw [← optionsAt_skipBlanks, skipBlanks_of_blank around, skipBlanks_of_blank blank,
      ← skipBlanks_of_blank around, optionsAt_skipBlanks]
  | @behind front name blanks tail given named around ends =>
    have before : ∀ c ∈ front, Text.isBlank c = true := fun c inside =>
      around c (List.mem_append_left _ inside)
    have some (text : List Char) :
        (readToken (front ++ (name.toList ++ blanks) ++ text)).1 ≠ [] := by
      obtain ⟨c, letters, spelled, -, -⟩ := isName_cons named
      rw [readToken, skipBlanks_named named before, readName_append named, spelled]
      exact List.cons_ne_nil _ _
    exact chosen.shift (optionsAt_of_given (some _)) (optionsAt_of_given (some _))

end Place

/-! ### From a place to the places around it -/

/-- A pattern that begins with no empty text. -/
def Filled (pattern : Pattern) : Prop := ∀ more, pattern ≠ .literal "" :: more

theorem filled_prepend {text : List Char} (given : text ≠ []) (pattern : Pattern) :
    Filled (pattern.prepend text) := by
  intro more same
  cases pattern with
  | nil => simp [Pattern.prepend, given] at same
  | cons part rest => cases part <;> simp [Pattern.prepend, given] at same

theorem literal_or_not (pattern : Pattern) :
    (∃ text more, pattern = .literal text :: more) ∨ startsWithLiteral pattern = false := by
  cases pattern with
  | nil => exact .inr rfl
  | cons part rest => cases part <;> first | exact .inl ⟨_, _, rfl⟩ | exact .inr rfl

theorem Filled.head_ne {text : List Char} {shown : String} {more pattern : Pattern}
    (filled : Filled (.literal shown :: more)) :
    Pattern.prepend text (.literal shown :: more) ≠ .literal (String.ofList text) :: pattern := by
  intro same
  have texts := Part.literal.inj (List.cons.inj same).1
  exact filled more (by rw [String.append_eq_left_iff.mp texts])

theorem prepend_inj {text : List Char} {one other : Pattern} (first : Filled one)
    (second : Filled other) (same : one.prepend text = other.prepend text) : one = other := by
  rcases literal_or_not one with ⟨a, p, rfl⟩ | apart <;>
    rcases literal_or_not other with ⟨b, q, rfl⟩ | apart'
  · simpa [Pattern.prepend] using same
  · rw [prepend_of_not_literal text apart'] at same
    exact absurd same first.head_ne
  · rw [prepend_of_not_literal text apart] at same
    exact absurd same.symm second.head_ne
  · rw [prepend_of_not_literal text apart, prepend_of_not_literal text apart'] at same
    exact (List.cons.inj same).2

theorem filled_patternAt {inPlural : Bool} {text rest : List Char} {pattern : Pattern}
    (found : patternAt inPlural text = some (pattern, rest)) : Filled pattern := by
  cases text with
  | nil =>
    cases found
    exact fun _ => nofun
  | cons c inner =>
    rcases meaning_cases inPlural c with rfl | rfl | rfl | ⟨rfl, rfl⟩ | ⟨plain, mark⟩
    · rw [patternAt_open, Option.bind_eq_some_iff] at found
      obtain ⟨⟨part, after⟩, read, found⟩ := found
      obtain ⟨_, -, same⟩ := Option.map_eq_some_iff.mp found
      cases same
      rw [argumentAt_eq, Option.bind_eq_some_iff] at read
      obtain ⟨named, -, read⟩ := read
      have visible : part.name? = some named.1 := tailAt_name read
      intro more same
      obtain ⟨rfl, -⟩ := List.cons.inj same
      cases visible
    · rw [patternAt_close] at found
      cases found
      exact fun _ => nofun
    · rw [patternAt_apostrophe, Option.map_eq_some_iff] at found
      obtain ⟨_, -, same⟩ := found
      cases same
      exact filled_prepend (apostrophe_ne_nil inPlural inner) _
    · rw [patternAt_pound, Option.map_eq_some_iff] at found
      obtain ⟨_, -, same⟩ := found
      cases same
      exact fun _ => nofun
    · rw [patternAt_plain inner plain mark, Option.map_eq_some_iff] at found
      obtain ⟨_, -, same⟩ := found
      cases same
      exact filled_prepend (List.cons_ne_nil c []) _

namespace Level

def Value : Level → Type
  | .pattern _ => Pattern
  | .argument _ => Part
  | .tail _ _ => Part
  | .choice _ _ _ => Part
  | .options _ => List (String × Pattern)

/-- What is read at a place, without sources. -/
def read : (level : Level) → List Char → Option (level.Value × List Char)
  | .pattern inPlural => patternAt inPlural
  | .argument inPlural => argumentAt inPlural
  | .tail inPlural name => tailAt inPlural name
  | .choice kind inPlural name => choiceAt kind inPlural name
  | .options inPlural => optionsAt inPlural

end Level

theorem Border.spaced {level : Level} {run front tail : List Char} {touches : Bool}
    (border : Border level front tail touches) (blank : ∀ c ∈ run, Text.isBlank c = true) :
    SpacedAt level.read (Fits touches run) run front tail := by
  cases border with
  | name beside => exact spacedAt_argument beside blank
  | kind beside => exact spacedAt_tail beside blank
  | choice around => exact spacedAt_choice around blank
  | selector beside => exact spacedAt_options beside blank

section Step

variable {inPlural : Bool} {fits : Prop} {run front middle tail : List Char}

theorem spacedAt_in_argument (own : SpacedAt (argumentAt inPlural) fits run ('{' :: front) tail) :
    SpacedAt (patternAt inPlural) fits run ('{' :: front) tail := by
  have opened (other : List Char) : patternAt inPlural ('{' :: front ++ other) =
      (argumentAt inPlural ('{' :: front ++ other)).bind fun read =>
        (patternAt inPlural read.2).map fun more => (read.1 :: more.1, more.2) :=
    patternAt_open inPlural (front ++ other)
  refine (own.bind (fun part text => (patternAt inPlural text).map fun more =>
    (part :: more.1, more.2)) ?_).shift (opened _) (opened _)
  intro one other _ _ _ _ _ first second
  obtain ⟨_, -, first⟩ := Option.map_eq_some_iff.mp first
  obtain ⟨_, -, second⟩ := Option.map_eq_some_iff.mp second
  cases first
  exact (List.cons.inj (congrArg Prod.fst second)).1.symm

theorem spacedAt_past_argument {part : Part}
    (read : readArgument inPlural ('{' :: front ++ tail) = .ok (part, middle ++ tail))
    (given : middle ≠ []) (own : SpacedAt (patternAt inPlural) fits run middle tail) :
    SpacedAt (patternAt inPlural) fits run ('{' :: front) tail := by
  have found : argumentAt inPlural ('{' :: front ++ tail) = some (part.bare, middle ++ tail) := by
    rw [argumentAt, read]
    rfl
  have reads := (localAt_argument inPlural ('{' :: front) tail).reads given found
  have same (other : List Char) : patternAt inPlural ('{' :: front ++ other) =
      (patternAt inPlural (middle ++ other)).map fun more => (part.bare :: more.1, more.2) := by
    rw [List.cons_append, patternAt_open, ← List.cons_append, reads]
    rfl
  exact (own.map fun _ _ _ _ equal => (List.cons.inj equal).2).shift (same _) (same _)

theorem spacedAt_prepend (text : List Char)
    (own : SpacedAt (patternAt inPlural) fits run middle tail)
    (same : ∀ other, patternAt inPlural (front ++ other) =
      (patternAt inPlural (middle ++ other)).map fun more => (more.1.prepend text, more.2)) :
    SpacedAt (patternAt inPlural) fits run front tail := by
  refine (own.map fun one other first second equal => ?_).shift (same _) (same _)
  obtain ⟨_, _, first⟩ := first
  obtain ⟨_, _, second⟩ := second
  exact prepend_inj (filled_patternAt first) (filled_patternAt second) equal

theorem spacedAt_past_apostrophe (passed : (apostrophe inPlural (front ++ tail)).2 = middle ++ tail)
    (given : middle ≠ []) (own : SpacedAt (patternAt inPlural) fits run middle tail) :
    SpacedAt (patternAt inPlural) fits run ('\'' :: front) tail := by
  have passes : some (apostrophe inPlural (front ++ tail)) =
      some ((apostrophe inPlural (front ++ tail)).1, middle ++ tail) :=
    congrArg some (Prod.ext rfl passed)
  have reads := (localAt_apostrophe inPlural).reads given passes
  refine spacedAt_prepend (apostrophe inPlural (front ++ tail)).1 own fun other => ?_
  rw [List.cons_append, patternAt_apostrophe, Option.some.inj (reads other)]

theorem spacedAt_past_name {name : String}
    (named : argumentName (front ++ tail) = .ok (name, middle ++ tail)) (given : middle ≠ [])
    (own : SpacedAt (tailAt inPlural name) fits run middle tail) :
    SpacedAt (argumentAt inPlural) fits run front tail := by
  have reads := argumentName_local.reads given (toOption_eq_some.mpr named)
  have same (other : List Char) : argumentAt inPlural (front ++ other) =
      tailAt inPlural name (middle ++ other) :=
    argumentAt_of_named (toOption_eq_some.mp (reads other))
  exact own.shift (same _) (same _)

theorem spacedAt_past_kind {name : String} {kind : Kind}
    (typed : argumentKind (front ++ tail) = .ok (kind.text, middle ++ tail)) (given : middle ≠ [])
    (own : SpacedAt (choiceAt kind inPlural name) fits run middle tail) :
    SpacedAt (tailAt inPlural name) fits run front tail := by
  have reads := argumentKind_local.reads given (toOption_eq_some.mpr typed)
  have same (other : List Char) : tailAt inPlural name (front ++ other) =
      choiceAt kind inPlural name (middle ++ other) := by
    have unclosed : ∀ after, front ++ other ≠ '}' :: after := by
      intro after closed
      have stuck := reads other
      rw [closed] at stuck
      cases stuck
    rw [tailAt_typed inPlural name unclosed, reads, Option.bind_some, kindAt, Kind.of?_text]
  exact own.shift (same _) (same _)

theorem spacedAt_past_start {name : String} {kind : Kind} {offset : Nat} (given : run ≠ [])
    (blank : ∀ c ∈ run, Text.isBlank c = true)
    (begun : choiceStart kind.hasOffset (front ++ tail) = .ok (offset, middle ++ tail))
    (own : SpacedAt (optionsAt (kind.inPlural inPlural)) fits run middle tail) :
    SpacedAt (choiceAt kind inPlural name) fits run front tail := by
  obtain ⟨c, run, rfl⟩ := List.exists_cons_of_ne_nil given
  obtain ⟨after, spaced, same⟩ := choiceStart_spaced begun blank
  have chosen : SpacedAt (chosenAt kind inPlural name offset) fits (c :: run) middle tail := by
    refine own.bind (fun choices text => (choiceEnd choices text).toOption.map fun after =>
      (kind.part name offset choices, after)) ?_
    intro one other _ _ _ _ _ first second
    obtain ⟨_, -, first⟩ := Option.map_eq_some_iff.mp first
    obtain ⟨_, -, second⟩ := Option.map_eq_some_iff.mp second
    cases first
    exact (Kind.part_inj (congrArg Prod.fst second)).symm
  refine chosen.shift (choiceAt_of_begun begun) ?_
  rw [choiceAt_of_begun spaced, ← chosenAt_skipBlanks, same, chosenAt_skipBlanks]

theorem optionsAt_of_begun {text inside : List Char} {selector : String}
    (begun : optionStart (skipBlanks text) = .ok (selector, inside)) :
    optionsAt inPlural text = optionAt inPlural selector inside := by
  have started := optionStart_toOption text
  rw [begun] at started
  obtain ⟨named, token, started⟩ := Option.bind_eq_some_iff.mp started.symm
  obtain ⟨rest, opened, same⟩ := Option.bind_eq_some_iff.mp started
  cases same
  have given : (readToken text).1 ≠ [] := by
    intro missing
    rw [givenName, if_pos missing] at token
    cases token
  rw [optionsAt_of_given given, token, Option.bind_some, opened, Option.bind_some]

theorem spacedAt_in_body {selector : String}
    (begun : optionStart (skipBlanks (front ++ tail)) = .ok (selector, middle ++ tail))
    (given : middle ≠ []) (own : SpacedAt (patternAt inPlural) fits run middle tail) :
    SpacedAt (optionsAt inPlural) fits run front tail := by
  have reads := optionStart_local.reads given (toOption_eq_some.mpr begun)
  have same (other : List Char) : optionsAt inPlural (front ++ other) =
      optionAt inPlural selector (middle ++ other) :=
    optionsAt_of_begun (toOption_eq_some.mp (reads other))
  have option : SpacedAt (optionAt inPlural selector) fits run middle tail := by
    refine own.bind (fun body text => (expect '}' text).toOption.bind fun rest =>
      (optionsAt inPlural rest).map fun more => ((selector, body) :: more.1, more.2)) ?_
    intro one other _ _ _ _ _ first second
    obtain ⟨_, -, first⟩ := Option.bind_eq_some_iff.mp first
    obtain ⟨_, -, first⟩ := Option.map_eq_some_iff.mp first
    obtain ⟨_, -, second⟩ := Option.bind_eq_some_iff.mp second
    obtain ⟨_, -, second⟩ := Option.map_eq_some_iff.mp second
    cases first
    exact (congrArg Prod.snd (List.cons.inj (congrArg Prod.fst second)).1).symm
  exact option.shift (same _) (same _)

theorem spacedAt_past_option {selector : String} {inside : List Char} {body : Pattern}
    (begun : optionStart (skipBlanks (front ++ tail)) = .ok (selector, inside))
    (read : readParts inPlural inside = .ok (body, '}' :: (middle ++ tail)))
    (own : SpacedAt (optionsAt inPlural) fits run middle tail) :
    SpacedAt (optionsAt inPlural) fits run front tail := by
  have found : patternAt inPlural inside = some (Pattern.bare body, ('}' :: middle) ++ tail) := by
    rw [patternAt, read]
    rfl
  have long : tail.length < inside.length := by
    have left := patternAt_shortening _ _ _ _ found
    rw [List.cons_append, List.length_cons, List.length_append] at left
    omega
  obtain ⟨later, rfl, begins⟩ := optionStart_local _ _ (toOption_eq_some.mpr begun) long
  have reads := (localAt_pattern inPlural later tail).reads (List.cons_ne_nil '}' middle) found
  have same (other : List Char) : optionsAt inPlural (front ++ other) =
      (optionsAt inPlural (middle ++ other)).map fun more =>
        ((selector, Pattern.bare body) :: more.1, more.2) := by
    rw [optionsAt_of_begun (toOption_eq_some.mp (begins other)), optionAt, reads]
    rfl
  exact (own.map fun _ _ _ _ equal => (List.cons.inj equal).2).shift (same _) (same _)

end Step

section Run

variable {level inner : Level} {front middle tail run : List Char} {fits : Prop}

/-- What blanks do at the next place, they do at the place before it. -/
theorem Step.spaced (step : Step (level, front ++ tail) (inner, middle ++ tail)) (some : front ≠ [])
    (room : inner.isOptions = false → middle ≠ []) (given : run ≠ [])
    (blank : ∀ c ∈ run, Text.isBlank c = true) (own : SpacedAt inner.read fits run middle tail) :
    SpacedAt level.read fits run front tail := by
  obtain ⟨c, front, rfl⟩ := List.exists_cons_of_ne_nil some
  generalize whole : c :: front ++ tail = text at step
  generalize left : middle ++ tail = rest at step
  cases step with
  | argument =>
    obtain rfl := List.append_cancel_right (whole.trans left.symm)
    obtain ⟨rfl, -⟩ := List.cons.inj whole
    exact spacedAt_in_argument own
  | pastArgument read =>
    obtain ⟨rfl, rfl⟩ := List.cons.inj whole
    subst left
    exact spacedAt_past_argument read (room rfl) own
  | pastPound =>
    obtain ⟨rfl, rfl⟩ := List.cons.inj whole
    obtain rfl := List.append_cancel_right left
    exact (own.map fun _ _ _ _ equal => (List.cons.inj equal).2).shift (patternAt_pound _)
      (patternAt_pound _)
  | pastApostrophe =>
    obtain ⟨rfl, rfl⟩ := List.cons.inj whole
    exact spacedAt_past_apostrophe left.symm (room rfl) own
  | pastPlain plain unquoted =>
    obtain ⟨rfl, rfl⟩ := List.cons.inj whole
    obtain rfl := List.append_cancel_right left
    exact spacedAt_prepend [c] own fun _ => patternAt_plain _ plain unquoted
  | name named =>
    subst whole left
    exact spacedAt_past_name named (room rfl) own
  | kind typed =>
    subst whole left
    exact spacedAt_past_kind typed (room rfl) own
  | options begun =>
    subst whole left
    exact spacedAt_past_start given blank begun own
  | body begun =>
    subst whole left
    exact spacedAt_in_body begun (room rfl) own
  | pastOption begun read =>
    subst whole left
    exact spacedAt_past_option begun read own

/-- What blanks do at a place, they do at each place that reading comes to it from. -/
theorem spaced_of_reaches {start : Level × List Char}
    (reached : Relation.ReflTransGen Step start (level, middle ++ tail))
    (room : level.isOptions = false → middle ≠ []) (given : run ≠ [])
    (blank : ∀ c ∈ run, Text.isBlank c = true) (own : SpacedAt level.read fits run middle tail) :
    ∃ front, start.2 = front ++ tail ∧ (start.1.isOptions = false → front ≠ []) ∧
      SpacedAt start.1.read fits run front tail := by
  induction reached using Relation.ReflTransGen.head_induction_on with
  | refl => exact ⟨middle, rfl, room, own⟩
  | @head start next step _ ih =>
    obtain ⟨level, text⟩ := start
    obtain ⟨inner, rest⟩ := next
    obtain ⟨middle, rfl, room, own⟩ := ih
    obtain ⟨front, some, rfl⟩ := step.exists_front room
    exact ⟨front, rfl, fun _ => some, step.spaced some room given blank own⟩

end Run

theorem patternAt_of_parse {text : String} {pattern : Pattern} (read : parse text = .ok pattern) :
    patternAt false text.toList = some (Pattern.bare pattern, []) := by
  rw [patternAt, parse_eq_ok.mp read]
  rfl

theorem exists_parse {text : String} {bare : Pattern}
    (found : patternAt false text.toList = some (bare, [])) :
    ∃ pattern, parse text = .ok pattern ∧ Pattern.bare pattern = bare := by
  obtain ⟨⟨pattern, rest⟩, read, same⟩ := Option.map_eq_some_iff.mp found
  obtain ⟨rfl, rfl⟩ := Prod.mk.inj same
  exact ⟨pattern, parse_eq_ok.mpr (toOption_eq_some.mp read), rfl⟩

/-- Blanks between tokens leave the message as it is, sources apart, unless they stand directly
behind a name and begin with one at which no name ends. -/
theorem parse_spaced {before run after : String} {pattern : Pattern} {level : Level}
    {front : List Char} {touches : Bool} (read : parse (before ++ after) = .ok pattern)
    (reached : Reaches (before ++ after) level (front ++ after.toList))
    (border : Border level front after.toList touches)
    (blank : ∀ c ∈ run.toList, Text.isBlank c = true) :
    (∃ other, parse (before ++ run ++ after) = .ok other ∧
      Pattern.bare other = Pattern.bare pattern) ↔ Fits touches run.toList := by
  by_cases given : run.toList = []
  · obtain rfl : run = "" := String.toList_eq_nil_iff.mp given
    simp [Fits, read]
  have found := patternAt_of_parse read
  obtain ⟨passed, whole, -, keeps⟩ :=
    spaced_of_reaches reached border.room given blank (border.spaced blank)
  rw [String.toList_append] at whole found
  obtain rfl := List.append_cancel_right whole
  obtain ⟨same, differs⟩ := keeps _ _ found
  have spaced : (before ++ run ++ after).toList =
      before.toList ++ (run.toList ++ after.toList) := by
    simp only [String.toList_append, List.append_assoc]
  constructor
  · rintro ⟨other, again, equal⟩
    by_contra unfit
    have changed := patternAt_of_parse again
    rw [spaced] at changed
    exact differs unfit _ _ changed equal
  · intro fit
    exact exists_parse (spaced ▸ same fit)

/-- A choice with an argument in its option. -/
def hosted : Pattern := [.select "host" "" [("other", [.argument "guest" ""])]]

/-- Inside of an option, a line feed ends the name of an argument and a blank of any kind may
follow it. -/
theorem parse_spaced_nested : ∃ other,
    parse "\x7bhost, select, other \x7b\x7bguest\n\u00a0\x7d\x7d\x7d" = .ok other ∧
      Pattern.bare other = hosted := by
  have text : printed hosted = "\x7bhost, select, other \x7b\x7bguest" ++ "\x7d\x7d\x7d" := by
    decide
  have normal : Pattern.isNormal false hosted = true := by decide
  have fits : Pattern.fits hosted = true := by decide
  have read := parse_printed_of_fits normal fits
  rw [text] at read
  have named : argumentName "\x7bhost, select, other \x7b\x7bguest\x7d\x7d\x7d".toList =
      .ok ("host", ", select, other \x7b\x7bguest\x7d\x7d\x7d".toList) := rfl
  have typed : argumentKind ", select, other \x7b\x7bguest\x7d\x7d\x7d".toList =
      .ok (Kind.select.text, ", other \x7b\x7bguest\x7d\x7d\x7d".toList) := rfl
  have begun : choiceStart Kind.select.hasOffset ", other \x7b\x7bguest\x7d\x7d\x7d".toList =
      .ok (0, " other \x7b\x7bguest\x7d\x7d\x7d".toList) := rfl
  have opened : optionStart (skipBlanks " other \x7b\x7bguest\x7d\x7d\x7d".toList) =
      .ok ("other", "\x7bguest\x7d\x7d\x7d".toList) := rfl
  have reached : Reaches ("\x7bhost, select, other \x7b\x7bguest" ++ "\x7d\x7d\x7d")
      (.argument false) ("\x7bguest".toList ++ "\x7d\x7d\x7d".toList) :=
    .head .argument <| .head (.name named) <| .head (.kind typed) <| .head (.options begun) <|
      .head (.body opened) <| .head .argument .refl
  have beside : Beside (fun _ => True) ([] ++ ("guest".toList ++ [])) "\x7d\x7d\x7d".toList true :=
    .behind trivial (by decide) (by simp) fun c first => by
      cases first
      decide
  have blank : ∀ c ∈ "\n\u00a0".toList, Text.isBlank c = true :=
    List.all_eq_true.mp (by decide)
  have fit : Fits true "\n\u00a0".toList := by
    rintro - c ⟨⟩
    decide
  exact (parse_spaced read reached (.name beside) blank).mpr fit

/-- Directly behind a name, a blank that ends no name is read as a part of it. -/
theorem parse_spaced_behind_name :
    parse "\x7bn\x7d" = .ok [.argument "n" "\x7bn\x7d"] ∧ Text.isBlank '\u00a0' = true ∧
      ¬ ∃ other, parse "\x7bn\u00a0\x7d" = .ok other ∧
        Pattern.bare other = Pattern.bare [.argument "n" "\x7bn\x7d"] := by
  have read : parse "\x7bn\u00a0\x7d" = .ok [.argument "n\u00a0" "\x7bn\u00a0\x7d"] := rfl
  refine ⟨rfl, by decide, ?_⟩
  rintro ⟨other, again, same⟩
  obtain rfl := Except.ok.inj (read.symm.trans again)
  simp [Pattern.bare, Part.bare] at same

end Phrasebook.Message

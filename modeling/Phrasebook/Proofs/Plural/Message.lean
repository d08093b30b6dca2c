import Phrasebook.Plural.Selector
import Phrasebook.Proofs.Message.Plain
import Phrasebook.Proofs.Message.RoundTrip
import Phrasebook.Proofs.Plural.Exact

set_option autoImplicit false

/-!
The message text of plural variations reads back as one plural choice with the selectors in their
order, provided that the text of each can be read as the body of an option.
-/
namespace Phrasebook.Plural

open Message
open Outcome (ok_bind)

/-- The options of a message text, each after one space. -/
def optionsText (pairs : List (String × String)) : List Char :=
  pairs.flatMap fun pair => ' ' :: (pair.1.toList ++ ' ' :: '{' :: (pair.2.toList ++ ['}']))

theorem written_toList (pairs : List (String × String)) :
    (written pairs).toList = braced argumentName (", plural,".toList ++ optionsText pairs) := by
  have options : (String.join (pairs.map fun pair => writtenOption pair.1 pair.2)).toList =
      optionsText pairs := by
    rw [String.toList_join, List.flatMap_map, optionsText]
    apply List.flatMap_congr
    intro pair _
    simp [writtenOption]
  simp only [written, String.toList_append, options, braced]
  simp

/-- The options are read one after another, each with its body. -/
theorem readOptions_optionsText {pairs : List (String × String)} {bodies : String → Pattern}
    (named : ∀ pair ∈ pairs, isName pair.1 = true)
    (reads : ∀ pair ∈ pairs, ReadsAs pair.2 (bodies pair.2)) (rest : List Char) :
    readOptions true (optionsText pairs ++ '}' :: rest) =
      .ok (pairs.map fun pair => (pair.1, bodies pair.2), '}' :: rest) := by
  induction pairs with
  | nil => exact Message.readOptions_close true rest
  | cons pair pairs ih =>
    have later := ih (fun other member => named other (by simp [member]))
      (fun other member => reads other (by simp [member]))
    have inside := reads pair (by simp) (optionsText pairs ++ '}' :: rest)
    have whole := givesIf_true.mp (readOptions_option (named pair (by simp))
      (givesIf_true.mpr inside) (givesIf_true.mpr later))
    rw [List.map_cons, ← whole]
    simp [optionsText]

/-! ### Selectors -/

/-- A category or an exact selector, in whatever way its number is written. -/
def isPluralSelector (selector : String) : Bool :=
  Category.all.any (fun category => category.text = selector) || isExact selector

theorem isPluralSelector_cases {selector : String} (known : isPluralSelector selector = true) :
    (∃ category : Category, category.text = selector) ∨
      ∃ written, selector.toList = '=' :: written := by
  rcases Bool.or_eq_true_iff.mp known with listed | exact
  · obtain ⟨category, -, text⟩ := List.any_eq_true.mp listed
    exact .inl ⟨category, by simpa using text⟩
  · obtain ⟨wanted, found⟩ := Option.isSome_iff_exists.mp exact
    obtain ⟨written, spelled, -⟩ := exactNumber?_eq_some found
    exact .inr ⟨written, spelled⟩

theorem isPluralSelector_of_isSelector {selector : String} (named : isSelector selector = true) :
    isPluralSelector selector = true := by
  refine Bool.or_eq_true_iff.mpr ((Bool.or_eq_true_iff.mp named).imp_right fun exact => ?_)
  obtain ⟨value, found⟩ := Option.isSome_iff_exists.mp (Bool.and_eq_true_iff.mp exact).1
  obtain ⟨wanted, found, -⟩ := Option.bind_eq_some_iff.mp found
  exact Option.isSome_iff_exists.mpr ⟨wanted, found⟩

/-- No selector begins with a blank, or is taken for an offset. -/
theorem isPluralSelector_begins {selector : String} (known : isPluralSelector selector = true)
    (rest : List Char) :
    skipBlanks (selector.toList ++ rest) = selector.toList ++ rest ∧
      dropBeginning "offset:".toList (selector.toList ++ rest) = none := by
  rcases isPluralSelector_cases known with ⟨category, rfl⟩ | ⟨written, spelled⟩
  · cases category <;> exact ⟨rfl, rfl⟩
  · rw [spelled]
    exact ⟨rfl, rfl⟩

/-! ### The argument -/

/-- The offset of variations is zero. -/
theorem readOffset_optionsText {pairs : List (String × String)}
    (known : ∀ pair ∈ pairs, isPluralSelector pair.1 = true) (rest : List Char) :
    readOffset (optionsText pairs ++ '}' :: rest) =
      .ok (0, skipBlanks (optionsText pairs ++ '}' :: rest)) := by
  have none : dropBeginning "offset:".toList (skipBlanks (optionsText pairs ++ '}' :: rest)) =
      none := by
    cases pairs with
    | nil => rfl
    | cons first more =>
      have begins := isPluralSelector_begins (known first (by simp))
        (' ' :: '{' :: (first.2.toList ++ '}' :: (optionsText more ++ '}' :: rest)))
      have spelled : skipBlanks (optionsText (first :: more) ++ '}' :: rest) =
          first.1.toList ++
            ' ' :: '{' :: (first.2.toList ++ '}' :: (optionsText more ++ '}' :: rest)) := by
        rw [← begins.1]
        simp [optionsText, skipBlanks, show Text.isBlank ' ' = true from rfl]
      rw [spelled, begins.2]
  simp only [readOffset, none]

/-- The argument of variations is read by reading its options. -/
theorem readArgument_variations {pairs : List (String × String)}
    (known : ∀ pair ∈ pairs, isPluralSelector pair.1 = true) (rest : List Char) :
    readArgument false ((written pairs).toList ++ rest) = (do
      let (choices, tail) ← readOptions true (optionsText pairs ++ '}' :: rest)
      let after ← choiceEnd choices tail
      .ok (.plural argumentName (between ((written pairs).toList ++ rest) after) choices 0 false,
        after)) := by
  have isNamed : isName argumentName = true := by decide
  have opened := argumentName_typed isNamed (" plural,".toList ++ optionsText pairs) rest
  have typed := argumentKind_plural (optionsText pairs ++ '}' :: rest)
  have text : (written pairs).toList =
      braced argumentName (',' :: (" plural,".toList ++ optionsText pairs)) := written_toList pairs
  rw [← text, List.append_assoc] at opened
  rw [readArgument_of_typed opened]
  change (argumentKind (", plural,".toList ++ (optionsText pairs ++ '}' :: rest)) >>= _) = _
  rw [typed, ok_bind]
  dsimp only
  rw [if_pos (.inl rfl)]
  change (choiceStart true _ >>= _) = _
  rw [choiceStart_offset, readOffset_optionsText known, ok_bind]
  dsimp only
  rw [readOptions_skipBlanks]
  rfl

theorem readParts_written (pairs : List (String × String)) :
    readParts false (written pairs).toList = (do
      let (part, after) ← readArgument false (written pairs).toList
      let (more, after) ← readParts false after
      .ok (part :: more, after)) := by
  have opened : (written pairs).toList = '{' :: _ := written_toList pairs
  rw [opened, readParts_open]

/-- The message text of variations is read as one plural choice. -/
theorem parse_written {pairs : List (String × String)} (bodies : String → Pattern)
    (given : pairs ≠ [])
    (known : ∀ pair ∈ pairs, isPluralSelector pair.1 = true ∧ isName pair.1 = true)
    (reads : ∀ pair ∈ pairs, ReadsAs pair.2 (bodies pair.2)) :
    parse (written pairs) = .ok [.plural argumentName (written pairs)
      (pairs.map fun pair => (pair.1, bodies pair.2)) 0 false] := by
  have argument := readArgument_variations (fun pair member => (known pair member).1) []
  have options := readOptions_optionsText (fun pair member => (known pair member).2) reads []
  have closed := choiceEnd_close
    (show (pairs.map fun pair => (pair.1, bodies pair.2)) ≠ [] by simpa using given) []
  have source := between_append (written pairs).toList []
  simp only [List.append_nil, String.ofList_toList] at argument options closed source
  rw [options, ok_bind] at argument
  dsimp only at argument
  rw [closed, ok_bind, source] at argument
  rw [parse_eq_ok, readParts_written, argument]
  rfl

end Phrasebook.Plural

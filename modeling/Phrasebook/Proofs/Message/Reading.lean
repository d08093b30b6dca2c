import Mathlib.Data.List.DropRight
import Phrasebook.Message.Parse
import Phrasebook.Proofs.Outcome

set_option autoImplicit false

/-!
Reading a message text without counting steps. What is read follows a grammar and leaves an end of
the text, so the steps that are given for a text are always enough, and the readers satisfy the
equations of the grammar.
-/
namespace Phrasebook.Message

open Outcome (ok_bind bind_eq_ok bind_congr_ok)

/-! ### What a reader leaves -/

/-- A text is passed up to an end of it that is not the whole text. -/
structure Passed (text rest : List Char) : Prop where
  suffix : rest <:+ text
  shorter : rest.length < text.length

section Passed

variable {text middle rest : List Char}

theorem passed_cons (c : Char) (rest : List Char) : Passed (c :: rest) rest :=
  ⟨List.suffix_cons c rest, Nat.lt_succ_self _⟩

theorem Passed.trans (first : Passed text middle) (later : rest <:+ middle) : Passed text rest :=
  ⟨later.trans first.suffix, later.length_le.trans_lt first.shorter⟩

theorem Passed.of_suffix (later : Passed middle rest) (suffix : middle <:+ text) :
    Passed text rest :=
  ⟨later.suffix.trans suffix, later.shorter.trans_le suffix.length_le⟩

end Passed

theorem expect_eq_ok {wanted : Char} {text rest : List Char} :
    expect wanted text = .ok rest ↔ text = wanted :: rest := by
  cases text with
  | nil => simp [expect, fail]
  | cons c text =>
    rw [expect]
    split
    · rename_i same
      simp [same]
    · rename_i apart
      simp [fail, apart]

theorem expect_passed {wanted : Char} {text rest : List Char}
    (passed : expect wanted text = .ok rest) : Passed text rest :=
  expect_eq_ok.mp passed ▸ passed_cons wanted rest

theorem skipBlanks_suffix (text : List Char) : skipBlanks text <:+ text :=
  List.dropWhile_suffix _

theorem readName_suffix (text : List Char) : (readName text).2 <:+ text :=
  List.dropWhile_suffix _

/-- What is left behind a name, the blanks before and after it included. -/
theorem skipBlanks_readName_suffix (text : List Char) :
    skipBlanks (readName (skipBlanks text)).2 <:+ text :=
  (skipBlanks_suffix _).trans ((readName_suffix _).trans (skipBlanks_suffix text))

theorem quotation_cons {c : Char} (rest : List Char) (mark : c ≠ '\'') :
    quotation (c :: rest) = (c :: (quotation rest).1, (quotation rest).2) := by
  rw [quotation]
  · simp [mark]
  · simp [mark]

theorem quotation_suffix (text : List Char) : (quotation text).2 <:+ text := by
  fun_induction quotation text with
  | case1 rest quoted after same ih =>
    rw [same] at ih
    exact ih.trans ⟨['\'', '\''], rfl⟩
  | case2 rest => exact List.suffix_cons _ rest
  | case3 c rest _ _ quoted after same ih =>
    rw [same] at ih
    exact ih.trans (List.suffix_cons c rest)
  | case4 => exact List.suffix_refl _

theorem apostrophe_suffix (inPlural : Bool) (text : List Char) :
    (apostrophe inPlural text).2 <:+ text := by
  cases text with
  | nil => exact List.suffix_refl _
  | cons c rest =>
    rw [apostrophe]
    split
    · exact List.suffix_cons c rest
    · split
      · exact quotation_suffix (c :: rest)
      · exact List.suffix_refl _

theorem quotation_ne_nil {c : Char} (rest : List Char) (other : c ≠ '\'') :
    (quotation (c :: rest)).1 ≠ [] := by
  rw [quotation_cons rest other]
  exact List.cons_ne_nil _ _

theorem apostrophe_ne_nil (inPlural : Bool) (text : List Char) :
    (apostrophe inPlural text).1 ≠ [] := by
  cases text with
  | nil => exact List.cons_ne_nil _ _
  | cons c rest =>
    rw [apostrophe]
    split
    · exact List.cons_ne_nil _ _
    · rename_i other
      split
      · exact quotation_ne_nil rest other
      · exact List.cons_ne_nil _ _

theorem skipStyle_suffix {depth : Nat} {text rest : List Char}
    (passed : skipStyle depth text = .ok rest) : rest <:+ text := by
  fun_induction skipStyle depth text with
  | case1 => cases passed
  | case2 depth tail ih => exact (ih passed).trans (List.suffix_cons _ tail)
  | case3 tail =>
    cases passed
    exact List.suffix_refl _
  | case4 depth tail ih => exact (ih passed).trans (List.suffix_cons _ tail)
  | case5 depth c tail _ _ _ ih => exact (ih passed).trans (List.suffix_cons c tail)

theorem dropBeginning_eq_some {start text rest : List Char} :
    dropBeginning start text = some rest ↔ text = start ++ rest := by
  fun_induction dropBeginning start text with
  | case1 text => simp [eq_comm]
  | case2 => simp
  | case3 ws w cs ih => simp [ih]
  | case4 ws w cs c apart => simp [Ne.symm apart]

theorem readOffset_suffix {text rest : List Char} {offset : Nat}
    (read : readOffset text = .ok (offset, rest)) : rest <:+ text := by
  have blanks := skipBlanks_suffix text
  simp only [readOffset] at read
  split at read
  · cases read
    exact blanks
  · rename_i after marked
    have mark : after <:+ skipBlanks text := ⟨_, (dropBeginning_eq_some.mp marked).symm⟩
    have digits : (skipBlanks after).dropWhile Text.isDigit <:+ after :=
      (List.dropWhile_suffix _).trans (skipBlanks_suffix after)
    split at read
    · cases read
    · split at read
      · cases read
        exact digits.trans (mark.trans blanks)
      · cases read

theorem argumentName_passed {text rest : List Char} {name : String}
    (read : argumentName text = .ok (name, rest)) : Passed text rest := by
  obtain ⟨inner, opened, read⟩ := bind_eq_ok.mp read
  dsimp only at read
  split at read
  · cases read
  · cases read
    exact (expect_passed opened).trans (skipBlanks_readName_suffix inner)

theorem argumentKind_passed {text rest : List Char} {kind : String}
    (read : argumentKind text = .ok (kind, rest)) : Passed text rest := by
  obtain ⟨inner, passed, read⟩ := bind_eq_ok.mp read
  cases read
  exact (expect_passed passed).trans (skipBlanks_readName_suffix inner)

theorem choiceStart_passed {hasOffset : Bool} {text rest : List Char} {offset : Nat}
    (read : choiceStart hasOffset text = .ok (offset, rest)) : Passed text rest := by
  obtain ⟨inner, passed, read⟩ := bind_eq_ok.mp read
  have first := expect_passed passed
  split at read
  · exact first.trans (readOffset_suffix read)
  · cases read
    exact first

theorem choiceEnd_passed {choices : List (String × Pattern)} {text rest : List Char}
    (read : choiceEnd choices text = .ok rest) : Passed text rest := by
  simp only [choiceEnd] at read
  split at read
  · cases read
  · exact expect_passed read

theorem styleEnd_passed {kind : String} {text rest : List Char}
    (read : styleEnd kind text = .ok rest) : Passed text rest := by
  simp only [styleEnd] at read
  split at read
  · cases read
  · split at read
    · obtain ⟨inner, styled, ended⟩ := bind_eq_ok.mp read
      exact (expect_passed ended).of_suffix (skipStyle_suffix styled)
    · exact expect_passed read

/-- The body of an option stands behind a brace. -/
theorem optionStart_opens {text inside : List Char} {selector : String}
    (begun : optionStart text = .ok (selector, inside)) : '{' :: inside <:+ text := by
  simp only [optionStart] at begun
  split at begun
  · cases begun
  · obtain ⟨rest, opened, done⟩ := bind_eq_ok.mp begun
    cases done
    rw [← expect_eq_ok.mp opened]
    exact (skipBlanks_suffix _).trans (readName_suffix text)

theorem optionStart_passed {text inside : List Char} {selector : String}
    (begun : optionStart text = .ok (selector, inside)) : Passed text inside :=
  (passed_cons '{' inside).of_suffix (optionStart_opens begun)

/-! ### The grammar -/

mutual

/-- How a pattern is read, up to a closing brace or the end. -/
inductive ReadsParts : Bool → List Char → Pattern → List Char → Prop
  | ends {inPlural} : ReadsParts inPlural [] [] []
  | close {inPlural rest} : ReadsParts inPlural ('}' :: rest) [] ('}' :: rest)
  | argument {inPlural tail part after more rest}
      (first : ReadsArgument inPlural ('{' :: tail) part after)
      (later : ReadsParts inPlural after more rest) :
      ReadsParts inPlural ('{' :: tail) (part :: more) rest
  | pound {tail more rest} (later : ReadsParts true tail more rest) :
      ReadsParts true ('#' :: tail) (.pound :: more) rest
  | apostrophe {inPlural tail more rest}
      (later : ReadsParts inPlural (apostrophe inPlural tail).2 more rest) :
      ReadsParts inPlural ('\'' :: tail) (more.prepend (apostrophe inPlural tail).1) rest
  | plain {inPlural c tail more rest} (plain : isSpecial inPlural c = false) (unquoted : c ≠ '\'')
      (later : ReadsParts inPlural tail more rest) :
      ReadsParts inPlural (c :: tail) (more.prepend [c]) rest

/-- How an argument is read, from its opening to its closing brace. -/
inductive ReadsArgument : Bool → List Char → Part → List Char → Prop
  | closed {inPlural text name rest} (named : argumentName text = .ok (name, '}' :: rest)) :
      ReadsArgument inPlural text (.argument name (between text rest)) rest
  | plural {inPlural text name shown kind typed offset inner choices last rest}
      (named : argumentName text = .ok (name, shown))
      (kinded : argumentKind shown = .ok (kind, typed))
      (counts : kind = "plural" ∨ kind = "selectordinal")
      (begun : choiceStart (kind == "plural") typed = .ok (offset, inner))
      (chosen : ReadsOptions true inner choices last)
      (ended : choiceEnd choices last = .ok rest) :
      ReadsArgument inPlural text
        (.plural name (between text rest) choices offset (kind == "selectordinal")) rest
  | select {inPlural text name shown typed offset inner choices last rest}
      (named : argumentName text = .ok (name, shown))
      (kinded : argumentKind shown = .ok ("select", typed))
      (begun : choiceStart false typed = .ok (offset, inner))
      (chosen : ReadsOptions inPlural inner choices last)
      (ended : choiceEnd choices last = .ok rest) :
      ReadsArgument inPlural text (.select name (between text rest) choices) rest
  | styled {inPlural text name shown kind typed rest}
      (named : argumentName text = .ok (name, shown))
      (kinded : argumentKind shown = .ok (kind, typed))
      (uncounted : ¬(kind = "plural" ∨ kind = "selectordinal")) (unselected : kind ≠ "select")
      (ended : styleEnd kind typed = .ok rest) :
      ReadsArgument inPlural text (.argument name (between text rest)) rest

/-- How the options of a choice are read, up to a closing brace or the end. -/
inductive ReadsOptions : Bool → List Char → List (String × Pattern) → List Char → Prop
  | ends {inPlural text} (ends : ∀ c ∈ (skipBlanks text).head?, c = '}') :
      ReadsOptions inPlural text [] (skipBlanks text)
  | option {inPlural text selector inside body after more rest}
      (begun : optionStart (skipBlanks text) = .ok (selector, inside))
      (first : ReadsParts inPlural inside body ('}' :: after))
      (later : ReadsOptions inPlural after more rest) :
      ReadsOptions inPlural text ((selector, body) :: more) rest

end

/-- What is read with a number of steps is read by the grammar. -/
structure Reads (fuel : Nat) : Prop where
  parts {inPlural text pattern rest} (read : parts fuel inPlural text = .ok (pattern, rest)) :
    ReadsParts inPlural text pattern rest
  argument {inPlural text part rest} (read : argument fuel inPlural text = .ok (part, rest)) :
    ReadsArgument inPlural text part rest
  options {inPlural text choices rest} (read : options fuel inPlural text = .ok (choices, rest)) :
    ReadsOptions inPlural text choices rest

section Step

variable {fuel : Nat} {inPlural : Bool} {text rest : List Char}

theorem Reads.parts_succ (before : Reads fuel) {pattern : Pattern}
    (read : Message.parts (fuel + 1) inPlural text = .ok (pattern, rest)) :
    ReadsParts inPlural text pattern rest := by
  cases text with
  | nil =>
    cases read
    exact .ends
  | cons c tail =>
    simp only [Message.parts] at read
    split at read
    · rename_i opens
      simp only [bind_eq_ok, Prod.exists] at read
      obtain ⟨part, after, first, more, last, second, done⟩ := read
      cases done
      subst opens
      exact .argument (before.argument first) (before.parts second)
    · rename_i unopened
      split at read
      · rename_i closes
        cases read
        exact closes ▸ .close
      · rename_i unclosed
        split at read
        · rename_i pound
          obtain ⟨rfl, rfl⟩ := pound
          obtain ⟨⟨more, last⟩, second, done⟩ := bind_eq_ok.mp read
          cases done
          exact .pound (before.parts second)
        · rename_i unmarked
          have plain : isSpecial inPlural c = false := by
            simpa [isSpecial, unopened, unclosed] using unmarked
          split at read
          · rename_i mark
            obtain ⟨⟨more, last⟩, second, done⟩ := bind_eq_ok.mp read
            cases done
            exact mark ▸ .apostrophe (before.parts second)
          · rename_i unquoted
            obtain ⟨⟨more, last⟩, second, done⟩ := bind_eq_ok.mp read
            cases done
            exact .plain plain unquoted (before.parts second)

theorem Reads.argument_succ (before : Reads fuel) {part : Part}
    (read : Message.argument (fuel + 1) inPlural text = .ok (part, rest)) :
    ReadsArgument inPlural text part rest := by
  simp only [Message.argument, bind_eq_ok, Prod.exists] at read
  obtain ⟨name, shown, named, read⟩ := read
  split at read
  · cases read
    exact .closed named
  · simp only [bind_eq_ok, Prod.exists] at read
    obtain ⟨kind, typed, kinded, read⟩ := read
    split at read
    · rename_i counts
      simp only [bind_eq_ok, Prod.exists] at read
      obtain ⟨offset, inner, begun, choices, last, chosen, after, ended, done⟩ := read
      cases done
      exact .plural named kinded counts begun (before.options chosen) ended
    · rename_i uncounted
      split at read
      · rename_i select
        simp only [bind_eq_ok, Prod.exists] at read
        obtain ⟨offset, inner, begun, choices, last, chosen, after, ended, done⟩ := read
        cases done
        exact .select named (select ▸ kinded) begun (before.options chosen) ended
      · rename_i unselected
        obtain ⟨after, ended, done⟩ := bind_eq_ok.mp read
        cases done
        exact .styled named kinded uncounted unselected ended

theorem Reads.options_succ (before : Reads fuel) {choices : List (String × Pattern)}
    (read : Message.options (fuel + 1) inPlural text = .ok (choices, rest)) :
    ReadsOptions inPlural text choices rest := by
  simp only [Message.options] at read
  split at read
  · rename_i blank
    cases read
    exact blank ▸ .ends (by simp [blank])
  · rename_i closed
    cases read
    exact closed ▸ .ends (by simp [closed])
  · simp only [bind_eq_ok, Prod.exists] at read
    obtain ⟨selector, inside, begun, body, last, first, after, closed, more, final, second, done⟩ :=
      read
    cases done
    obtain rfl := expect_eq_ok.mp closed
    exact .option begun (before.parts first) (before.options second)

end Step

theorem reads (fuel : Nat) : Reads fuel := by
  induction fuel with
  | zero => exact ⟨nofun, nofun, nofun⟩
  | succ fuel ih => exact ⟨ih.parts_succ, ih.argument_succ, ih.options_succ⟩

mutual

/-- What is left of a text is an end of it, and an argument is never empty. -/
theorem ReadsParts.suffix {inPlural : Bool} {text rest : List Char} {pattern : Pattern}
    (read : ReadsParts inPlural text pattern rest) : rest <:+ text :=
  match read with
  | .ends => List.suffix_refl _
  | .close => List.suffix_refl _
  | .argument first later => later.suffix.trans first.passed.suffix
  | .pound later => later.suffix.trans (List.suffix_cons _ _)
  | .apostrophe later =>
    later.suffix.trans ((apostrophe_suffix _ _).trans (List.suffix_cons _ _))
  | .plain _ _ later => later.suffix.trans (List.suffix_cons _ _)

theorem ReadsArgument.passed {inPlural : Bool} {text rest : List Char} {part : Part}
    (read : ReadsArgument inPlural text part rest) : Passed text rest :=
  match read with
  | .closed named => (argumentName_passed named).trans (List.suffix_cons _ _)
  | .plural named kinded _ begun chosen ended =>
    have inner := (choiceStart_passed begun).of_suffix (argumentKind_passed kinded).suffix
    (argumentName_passed named).trans
      ((choiceEnd_passed ended).suffix.trans (chosen.suffix.trans inner.suffix))
  | .select named kinded begun chosen ended =>
    have inner := (choiceStart_passed begun).of_suffix (argumentKind_passed kinded).suffix
    (argumentName_passed named).trans
      ((choiceEnd_passed ended).suffix.trans (chosen.suffix.trans inner.suffix))
  | .styled named kinded _ _ ended =>
    (argumentName_passed named).trans
      ((styleEnd_passed ended).suffix.trans (argumentKind_passed kinded).suffix)

theorem ReadsOptions.suffix {inPlural : Bool} {text rest : List Char}
    {choices : List (String × Pattern)} (read : ReadsOptions inPlural text choices rest) :
    rest <:+ text :=
  match read with
  | .ends _ => skipBlanks_suffix text
  | .option begun first later =>
    have inside := (optionStart_passed begun).of_suffix (skipBlanks_suffix text)
    later.suffix.trans ((List.suffix_cons _ _).trans (first.suffix.trans inside.suffix))

end

/-- Induction along the options of a choice, the bodies left as they are. -/
@[elab_as_elim]
theorem ReadsOptions.along {inPlural : Bool} {rest : List Char}
    {motive : List Char → List (String × Pattern) → Prop} (ends : ∀ {text}, motive text [])
    (option : ∀ {text selector inside body after more},
      optionStart (skipBlanks text) = .ok (selector, inside) →
      ReadsParts inPlural inside body ('}' :: after) → motive after more →
      motive text ((selector, body) :: more))
    {text : List Char} {choices : List (String × Pattern)}
    (read : ReadsOptions inPlural text choices rest) : motive text choices :=
  match read with
  | .ends _ => ends
  | .option begun first later => option begun first (later.along ends option)

/-! ### Enough steps -/

/-- One more step changes nothing for the texts that a number of steps is enough for. -/
structure Settled (fuel : Nat) : Prop where
  parts : ∀ inPlural text, 2 * text.length + 1 ≤ fuel →
    parts (fuel + 1) inPlural text = parts fuel inPlural text
  argument : ∀ inPlural text, 2 * text.length ≤ fuel → 0 < text.length →
    argument (fuel + 1) inPlural text = argument fuel inPlural text
  options : ∀ inPlural text, 2 * text.length + 1 ≤ fuel →
    options (fuel + 1) inPlural text = options fuel inPlural text

theorem parts_settled {fuel : Nat} (before : Settled fuel) (inPlural : Bool) (text : List Char)
    (enough : 2 * text.length + 1 ≤ fuel + 1) :
    parts (fuel + 2) inPlural text = parts (fuel + 1) inPlural text := by
  cases text with
  | nil => rfl
  | cons c tail =>
    simp only [List.length_cons] at enough
    have sameTail : parts (fuel + 1) inPlural tail = parts fuel inPlural tail :=
      before.parts inPlural tail (by omega)
    obtain ⟨quoted, afterQuoted⟩ : ∃ outcome, apostrophe inPlural tail = outcome := ⟨_, rfl⟩
    have shorterQuoted := (apostrophe_suffix inPlural tail).length_le
    rw [afterQuoted] at shorterQuoted
    have sameQuoted : parts (fuel + 1) inPlural quoted.2 = parts fuel inPlural quoted.2 :=
      before.parts inPlural quoted.2 (by omega)
    have sameArgument : argument (fuel + 1) inPlural (c :: tail) =
        argument fuel inPlural (c :: tail) :=
      before.argument inPlural _ (by simp only [List.length_cons]; omega) (by simp)
    rw [parts, parts, sameTail, sameArgument, afterQuoted]
    dsimp only
    rw [sameQuoted]
    by_cases opened : c = '{'
    · rw [if_pos opened, if_pos opened]
      refine bind_congr_ok ?_
      rintro ⟨part, after⟩ read
      have shorter := ((reads fuel).argument read).passed.shorter
      simp only [List.length_cons] at shorter
      dsimp only
      rw [before.parts inPlural after (by omega)]
    · rw [if_neg opened, if_neg opened]

theorem argument_settled {fuel : Nat} (before : Settled fuel) (inPlural : Bool)
    (text : List Char) (enough : 2 * text.length ≤ fuel + 1) :
    argument (fuel + 2) inPlural text = argument (fuel + 1) inPlural text := by
  rw [argument, argument]
  refine bind_congr_ok ?_
  rintro ⟨name, afterName⟩ named
  have first := (argumentName_passed named).shorter
  dsimp only
  split
  · rfl
  · refine bind_congr_ok ?_
    rintro ⟨kind, afterKind⟩ typed
    have second := (argumentKind_passed typed).shorter
    dsimp only
    split
    · refine bind_congr_ok ?_
      rintro ⟨offset, inner⟩ begun
      have third := (choiceStart_passed begun).shorter
      rw [before.options true inner (by omega)]
    · split
      · refine bind_congr_ok ?_
        rintro ⟨offset, inner⟩ begun
        have third := (choiceStart_passed begun).shorter
        rw [before.options inPlural inner (by omega)]
      · rfl

theorem options_settled {fuel : Nat} (before : Settled fuel) (inPlural : Bool)
    (text : List Char) (enough : 2 * text.length + 1 ≤ fuel + 1) :
    options (fuel + 2) inPlural text = options (fuel + 1) inPlural text := by
  have blanks := (skipBlanks_suffix text).length_le
  rw [options, options]
  split
  · rfl
  · rfl
  · refine bind_congr_ok ?_
    rintro ⟨selector, inside⟩ begun
    have first := (optionStart_passed begun).shorter
    dsimp only
    rw [before.parts inPlural inside (by omega)]
    refine bind_congr_ok ?_
    rintro ⟨body, last⟩ read
    have second := ((reads fuel).parts read).suffix.length_le
    dsimp only at second ⊢
    refine bind_congr_ok ?_
    intro after closed
    have third := (expect_passed closed).shorter
    rw [before.options inPlural after (by omega)]

theorem settled (fuel : Nat) : Settled fuel := by
  induction fuel with
  | zero => constructor <;> intros <;> omega
  | succ fuel ih =>
    exact ⟨parts_settled ih, fun b text enough _ => argument_settled ih b text enough,
      options_settled ih⟩

/-- A pattern up to a closing brace or the end. -/
def readParts (inPlural : Bool) (text : List Char) : Except Stuck (Pattern × List Char) :=
  parts (2 * text.length + 1) inPlural text

/-- An argument, from its opening to its closing brace. -/
def readArgument (inPlural : Bool) (text : List Char) : Except Stuck (Part × List Char) :=
  argument (2 * text.length) inPlural text

/-- The options of a choice, up to a closing brace or the end. -/
def readOptions (inPlural : Bool) (text : List Char) :
    Except Stuck (List (String × Pattern) × List Char) :=
  options (2 * text.length + 1) inPlural text

theorem parts_eq_readParts {fuel : Nat} (inPlural : Bool) (text : List Char)
    (enough : 2 * text.length + 1 ≤ fuel) : parts fuel inPlural text = readParts inPlural text := by
  induction enough with
  | refl => rfl
  | @step fuel reached ih => rw [(settled fuel).parts inPlural text reached, ih]

theorem options_eq_readOptions {fuel : Nat} (inPlural : Bool) (text : List Char)
    (enough : 2 * text.length + 1 ≤ fuel) :
    options fuel inPlural text = readOptions inPlural text := by
  induction enough with
  | refl => rfl
  | @step fuel reached ih => rw [(settled fuel).options inPlural text reached, ih]

/-! ### The equations of the grammar -/

theorem readParts_close (inPlural : Bool) (rest : List Char) :
    readParts inPlural ('}' :: rest) = .ok ([], '}' :: rest) := by
  simp [readParts, parts]

theorem readParts_open (inPlural : Bool) (rest : List Char) :
    readParts inPlural ('{' :: rest) = (do
      let (part, after) ← readArgument inPlural ('{' :: rest)
      let (more, after) ← readParts inPlural after
      .ok (part :: more, after)) := by
  have steps : 2 * ('{' :: rest).length + 1 = (2 * ('{' :: rest).length) + 1 := rfl
  rw [readParts, steps, parts, if_pos rfl]
  refine bind_congr_ok ?_
  rintro ⟨part, after⟩ read
  have shorter := ((reads _).argument read).passed.shorter
  dsimp only
  rw [parts_eq_readParts inPlural after (by omega)]

theorem readParts_pound (rest : List Char) :
    readParts true ('#' :: rest) = (do
      let (more, after) ← readParts true rest
      .ok (.pound :: more, after)) := by
  rw [readParts, List.length_cons, parts, if_neg (by decide), if_neg (by decide),
    if_pos (by decide), parts_eq_readParts true rest (by omega)]

theorem readParts_apostrophe (inPlural : Bool) (rest : List Char) :
    readParts inPlural ('\'' :: rest) = (do
      let (more, after) ← readParts inPlural (apostrophe inPlural rest).2
      .ok (more.prepend (apostrophe inPlural rest).1, after)) := by
  have shorter := (apostrophe_suffix inPlural rest).length_le
  rw [readParts, List.length_cons, parts, if_neg (by decide), if_neg (by decide),
    if_neg (by simp), if_pos rfl]
  dsimp only
  rw [parts_eq_readParts inPlural _ (by omega)]

theorem readParts_plain {inPlural : Bool} {c : Char} (rest : List Char)
    (plain : isSpecial inPlural c = false) (unquoted : c ≠ '\'') :
    readParts inPlural (c :: rest) = (do
      let (more, after) ← readParts inPlural rest
      .ok (more.prepend [c], after)) := by
  simp only [isSpecial, Bool.or_eq_false_iff, decide_eq_false_iff_not, Bool.and_eq_false_imp,
    decide_eq_true_eq] at plain
  rw [readParts, List.length_cons, parts, if_neg plain.1.1, if_neg plain.1.2,
    if_neg (by simpa using plain.2), if_neg unquoted, parts_eq_readParts inPlural rest (by omega)]

section Argument

variable {inPlural : Bool} {text rest : List Char} {name : String}

/-- The fuel of an argument is enough for one step, since the argument has a name. -/
theorem argument_fuel {shown : List Char} (named : argumentName text = .ok (name, shown)) :
    ∃ fuel, 2 * text.length = fuel + 1 ∧ 2 * shown.length + 1 ≤ fuel := by
  have shorter := (argumentName_passed named).shorter
  exact ⟨2 * text.length - 1, by omega, by omega⟩

theorem readArgument_of_closed (named : argumentName text = .ok (name, '}' :: rest)) :
    readArgument inPlural text = .ok (.argument name (between text rest), rest) := by
  obtain ⟨fuel, steps, -⟩ := argument_fuel named
  rw [readArgument, steps, argument, named]
  rfl

/-- An argument with a type, its options read without steps. -/
theorem readArgument_of_typed (named : argumentName text = .ok (name, ',' :: rest)) :
    readArgument inPlural text = (do
      let (kind, rest) ← argumentKind (',' :: rest)
      if kind = "plural" ∨ kind = "selectordinal" then
        let (offset, rest) ← choiceStart (kind == "plural") rest
        let (choices, rest) ← readOptions true rest
        let after ← choiceEnd choices rest
        .ok (.plural name (between text after) choices offset (kind == "selectordinal"), after)
      else if kind = "select" then
        let (_, rest) ← choiceStart false rest
        let (choices, rest) ← readOptions inPlural rest
        let after ← choiceEnd choices rest
        .ok (.select name (between text after) choices, after)
      else
        let after ← styleEnd kind rest
        .ok (.argument name (between text after), after)) := by
  obtain ⟨fuel, steps, enough⟩ := argument_fuel named
  rw [readArgument, steps, argument, named, ok_bind]
  refine bind_congr_ok ?_
  rintro ⟨kind, afterKind⟩ typed
  have second := (argumentKind_passed typed).shorter
  dsimp only
  split
  · refine bind_congr_ok ?_
    rintro ⟨offset, inner⟩ begun
    have third := (choiceStart_passed begun).shorter
    dsimp only at third ⊢
    rw [options_eq_readOptions true inner (by omega)]
  · split
    · refine bind_congr_ok ?_
      rintro ⟨offset, inner⟩ begun
      have third := (choiceStart_passed begun).shorter
      dsimp only at third ⊢
      rw [options_eq_readOptions inPlural inner (by omega)]
    · rfl

end Argument

theorem readOptions_close (inPlural : Bool) (rest : List Char) :
    readOptions inPlural ('}' :: rest) = .ok ([], '}' :: rest) := by
  rw [readOptions, options]
  rfl

/-- An option before the options that follow it. -/
theorem readOptions_of_start (inPlural : Bool) {text inner : List Char} {c : Char}
    (shown : skipBlanks text = c :: inner) (unclosed : c ≠ '}') :
    readOptions inPlural text = (do
      let (selector, rest) ← optionStart (c :: inner)
      let (body, rest) ← readParts inPlural rest
      let rest ← expect '}' rest
      let (more, rest) ← readOptions inPlural rest
      .ok ((selector, body) :: more, rest)) := by
  have blanks := (skipBlanks_suffix text).length_le
  rw [shown] at blanks
  rw [readOptions, options, shown]
  split
  · contradiction
  · rename_i closed
    exact absurd (List.cons.inj closed).1 unclosed
  · refine bind_congr_ok ?_
    rintro ⟨selector, inside⟩ begun
    have first := (optionStart_passed begun).shorter
    dsimp only
    rw [parts_eq_readParts inPlural inside (by omega)]
    refine bind_congr_ok ?_
    rintro ⟨body, last⟩ read
    have second := ((reads _).parts read).suffix.length_le
    dsimp only at second ⊢
    refine bind_congr_ok ?_
    intro after closed
    have third := (expect_passed closed).shorter
    rw [options_eq_readOptions inPlural after (by omega)]

theorem skipBlanks_idem (text : List Char) : skipBlanks (skipBlanks text) = skipBlanks text :=
  List.dropWhile_idempotent Text.isBlank text

/-- Blanks before the options may as well be missing. -/
theorem readOptions_skipBlanks (inPlural : Bool) (text : List Char) :
    readOptions inPlural (skipBlanks text) = readOptions inPlural text := by
  have shorter := (skipBlanks_suffix text).length_le
  have enough : options (2 * text.length + 1) inPlural (skipBlanks text) =
      readOptions inPlural (skipBlanks text) :=
    options_eq_readOptions inPlural (skipBlanks text) (by omega)
  rw [← enough, readOptions, options, options, skipBlanks_idem]

/-! ### The readers and the grammar -/

theorem readOptions_of_ends (inPlural : Bool) {text : List Char}
    (ends : ∀ c ∈ (skipBlanks text).head?, c = '}') :
    readOptions inPlural text = .ok ([], skipBlanks text) := by
  rw [← readOptions_skipBlanks]
  cases shown : skipBlanks text with
  | nil => rfl
  | cons c rest =>
    obtain rfl : c = '}' := ends c (by simp [shown])
    exact readOptions_close inPlural rest

theorem cons_of_argumentKind {text rest : List Char} {kind : String}
    (kinded : argumentKind text = .ok (kind, rest)) : ∃ after, text = ',' :: after := by
  obtain ⟨after, passed, -⟩ := bind_eq_ok.mp kinded
  exact ⟨after, expect_eq_ok.mp passed⟩

theorem cons_of_optionStart {text inside : List Char} {selector : String}
    (begun : optionStart text = .ok (selector, inside)) : ∃ c rest, text = c :: rest ∧ c ≠ '}' := by
  cases text with
  | nil => cases begun
  | cons c rest =>
    refine ⟨c, rest, rfl, ?_⟩
    rintro rfl
    cases begun

mutual

/-- What follows the grammar is read. -/
theorem ReadsParts.read {inPlural : Bool} {text rest : List Char} {pattern : Pattern}
    (way : ReadsParts inPlural text pattern rest) :
    readParts inPlural text = .ok (pattern, rest) := by
  match way with
  | .ends => rfl
  | .close => exact readParts_close _ _
  | .argument first later =>
    rw [readParts_open, first.read, ok_bind]
    dsimp only
    rw [later.read, ok_bind]
  | .pound later =>
    rw [readParts_pound, later.read]
    rfl
  | .apostrophe later =>
    rw [readParts_apostrophe, later.read]
    rfl
  | .plain plain unquoted later =>
    rw [readParts_plain _ plain unquoted, later.read]
    rfl

theorem ReadsArgument.read {inPlural : Bool} {text rest : List Char} {part : Part}
    (way : ReadsArgument inPlural text part rest) :
    readArgument inPlural text = .ok (part, rest) := by
  match way with
  | .closed named => exact readArgument_of_closed named
  | .plural named kinded counts begun chosen ended =>
    obtain ⟨after, rfl⟩ := cons_of_argumentKind kinded
    rw [readArgument_of_typed named, kinded, ok_bind]
    dsimp only
    rw [if_pos counts, begun, ok_bind]
    dsimp only
    rw [chosen.read, ok_bind]
    dsimp only
    rw [ended, ok_bind]
  | .select named kinded begun chosen ended =>
    obtain ⟨after, rfl⟩ := cons_of_argumentKind kinded
    rw [readArgument_of_typed named, kinded, ok_bind]
    dsimp only
    rw [if_neg (by decide), if_pos rfl, begun, ok_bind]
    dsimp only
    rw [chosen.read, ok_bind]
    dsimp only
    rw [ended, ok_bind]
  | .styled named kinded uncounted unselected ended =>
    obtain ⟨after, rfl⟩ := cons_of_argumentKind kinded
    rw [readArgument_of_typed named, kinded, ok_bind]
    dsimp only
    rw [if_neg uncounted, if_neg unselected, ended, ok_bind]

theorem ReadsOptions.read {inPlural : Bool} {text rest : List Char}
    {choices : List (String × Pattern)} (way : ReadsOptions inPlural text choices rest) :
    readOptions inPlural text = .ok (choices, rest) := by
  match way with
  | .ends ends => exact readOptions_of_ends inPlural ends
  | .option begun first later =>
    obtain ⟨c, inner, shown, unclosed⟩ := cons_of_optionStart begun
    rw [readOptions_of_start inPlural shown unclosed, ← shown, begun, ok_bind]
    dsimp only
    rw [first.read, ok_bind]
    dsimp only
    rw [expect_eq_ok.mpr rfl, ok_bind, later.read]
    rfl

end

/-- The readers read what the grammar says, and nothing else. -/
theorem readParts_eq_ok {inPlural : Bool} {text rest : List Char} {pattern : Pattern} :
    readParts inPlural text = .ok (pattern, rest) ↔ ReadsParts inPlural text pattern rest :=
  ⟨(reads _).parts, ReadsParts.read⟩

theorem readArgument_eq_ok {inPlural : Bool} {text rest : List Char} {part : Part} :
    readArgument inPlural text = .ok (part, rest) ↔ ReadsArgument inPlural text part rest :=
  ⟨(reads _).argument, ReadsArgument.read⟩

theorem readOptions_eq_ok {inPlural : Bool} {text rest : List Char}
    {choices : List (String × Pattern)} :
    readOptions inPlural text = .ok (choices, rest) ↔ ReadsOptions inPlural text choices rest :=
  ⟨(reads _).options, ReadsOptions.read⟩

theorem parseChars_eq (text : List Char) :
    parseChars text = (do
      let (pattern, rest) ← readParts false text
      if rest.isEmpty then .ok pattern else fail .unexpectedClose rest) := by
  rw [parseChars, stepsFor, parts_eq_readParts false text (by omega)]

/-- A text is a message if it can be read to its end. -/
theorem parse_eq_ok {text : String} {pattern : Pattern} :
    parse text = .ok pattern ↔ readParts false text.toList = .ok (pattern, []) := by
  have whole : parse text = .ok pattern ↔ parseChars text.toList = .ok pattern := by
    rw [parse]
    cases parseChars text.toList with
    | ok own => simp
    | error stuck => simp
  rw [whole, parseChars_eq, bind_eq_ok]
  constructor
  · rintro ⟨⟨own, rest⟩, read, ends⟩
    dsimp only at ends
    split at ends
    · rename_i empty
      obtain rfl := List.isEmpty_iff.mp empty
      cases ends
      exact read
    · cases ends
  · intro read
    exact ⟨_, read, rfl⟩

end Phrasebook.Message

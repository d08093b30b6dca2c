import Phrasebook.Proofs.Message.Bare
import Phrasebook.Proofs.Text.Class

set_option autoImplicit false

/-!
Reading is local. What is read before a place in a text depends only on the characters up to that
place, as long as some of them are left over: the last of them tells where a name, a number, an
apostrophe or a quotation ends.
-/
namespace Phrasebook.Message

open Outcome (ok_bind bind_eq_ok toOption_eq_some)

/-! ### Runs of characters -/

section Runs

variable {p : Char → Bool} {front tail : List Char}

/-- A run that ends inside of a text, or at its end, does not reach into what follows. -/
theorem span_append (other : List Char)
    (stops : front.dropWhile p = [] → ∀ c ∈ other.head?, p c = false) :
    (front ++ other).dropWhile p = front.dropWhile p ++ other ∧
      (front ++ other).takeWhile p = front.takeWhile p := by
  by_cases all : front.dropWhile p = []
  · have inside := List.dropWhile_eq_nil_iff.mp all
    have stops := stops all
    rw [Text.dropWhile_run inside stops, Text.takeWhile_run inside stops, all,
      List.takeWhile_eq_self_iff.mpr inside]
    exact ⟨rfl, rfl⟩
  · have short : (front.takeWhile p).length ≠ front.length := by
      intro same
      rw [← List.takeWhile_append_dropWhile (p := p) (l := front), List.length_append,
        List.takeWhile_append_dropWhile] at same
      exact all (List.length_eq_zero_iff.mp (by omega))
    rw [List.dropWhile_append, List.takeWhile_append, if_neg (by simpa using all), if_neg short]
    exact ⟨rfl, rfl⟩

theorem dropWhile_ne_nil (long : tail.length < ((front ++ tail).dropWhile p).length) :
    front.dropWhile p ≠ [] := by
  intro all
  rw [List.dropWhile_append_of_pos (List.dropWhile_eq_nil_iff.mp all)] at long
  exact absurd (List.dropWhile_sublist p).length_le (Nat.not_le_of_lt long)

theorem skipBlanks_append_of_ne_nil (given : skipBlanks front ≠ []) (other : List Char) :
    skipBlanks (front ++ other) = skipBlanks front ++ other :=
  (span_append other fun all => absurd all given).1

theorem skipBlanks_append_of_nil (blank : skipBlanks front = []) (other : List Char) :
    skipBlanks (front ++ other) = skipBlanks other :=
  List.dropWhile_append_of_pos (List.dropWhile_eq_nil_iff.mp blank)

end Runs

/-! ### Names -/

/-- A name after blanks, and what follows the blanks behind it. -/
def readToken (text : List Char) : List Char × List Char :=
  ((readName (skipBlanks text)).1, skipBlanks (readName (skipBlanks text)).2)

theorem readToken_local {front tail : List Char}
    (long : tail.length < (readToken (front ++ tail)).2.length) :
    (readToken front).2 ≠ [] ∧ ∀ other,
      readToken (front ++ other) = ((readToken front).1, (readToken front).2 ++ other) := by
  have last := (skipBlanks_suffix (readName (skipBlanks (front ++ tail))).2).length_le
  have name := (readName_suffix (skipBlanks (front ++ tail))).length_le
  have first : tail.length < ((front ++ tail).dropWhile Text.isBlank).length :=
    Nat.lt_of_lt_of_le long (last.trans name)
  have blanks : skipBlanks front ≠ [] := dropWhile_ne_nil first
  have shown := skipBlanks_append_of_ne_nil blanks
  rw [readToken, shown] at long
  rw [shown] at last
  have second : tail.length < ((skipBlanks front ++ tail).dropWhile (!endsName ·)).length :=
    Nat.lt_of_lt_of_le long last
  have letters : (readName (skipBlanks front)).2 ≠ [] := dropWhile_ne_nil second
  have named (other : List Char) : readName (skipBlanks front ++ other) =
      ((readName (skipBlanks front)).1, (readName (skipBlanks front)).2 ++ other) := by
    have both := span_append other fun all => absurd all letters
    exact Prod.ext both.2 both.1
  have last' : skipBlanks (readName (skipBlanks front)).2 ≠ [] := by
    rw [named] at long
    exact dropWhile_ne_nil long
  refine ⟨last', fun other => ?_⟩
  have ends := (span_append other fun all => absurd all last').1
  rw [readToken, shown, named]
  exact Prod.ext rfl ends

/-! ### Quotations -/

section Quotation

variable {front tail : List Char}

theorem quotation_twice (rest : List Char) :
    quotation ('\'' :: '\'' :: rest) = ('\'' :: (quotation rest).1, (quotation rest).2) := rfl

theorem quotation_local (long : tail.length < (quotation (front ++ tail)).2.length) :
    (quotation front).2 ≠ [] ∧ ∀ other,
      quotation (front ++ other) = ((quotation front).1, (quotation front).2 ++ other) := by
  induction front using quotation.induct with
  | case1 rest _ _ _ ih =>
    obtain ⟨some, same⟩ := ih long
    exact ⟨some, fun other => by
      simp only [List.cons_append, quotation_twice, same]⟩
  | case2 rest single =>
    cases rest with
    | nil =>
      -- the apostrophe is at the end, and what follows it is all that can be left
      have shorter : (quotation ('\'' :: tail)).2.length ≤ tail.length := by
        cases tail with
        | nil => exact Nat.le_refl _
        | cons d tail =>
          by_cases again : d = '\''
          · subst again
            exact Nat.le_succ_of_le ((quotation_suffix tail).length_le)
          · rw [quotation_close (by simpa using again)]
      exact absurd long (Nat.not_lt_of_le shorter)
    | cons d rest =>
      have apart : d ≠ '\'' := fun again => single rest (by rw [again])
      have closes (other : List Char) : quotation ('\'' :: d :: other) = ([], d :: other) :=
        quotation_close (by simpa using apart)
      refine ⟨by rw [closes]; exact List.cons_ne_nil d rest, fun other => ?_⟩
      rw [List.cons_append, List.cons_append, closes, closes]
      rfl
  | case3 c rest doubled closed _ _ _ ih =>
    have mark : c ≠ '\'' := closed
    rw [List.cons_append, quotation_cons _ mark] at long
    obtain ⟨some, same⟩ := ih long
    rw [quotation_cons rest mark]
    exact ⟨some, fun other => by rw [List.cons_append, quotation_cons _ mark, same]⟩
  | case4 => exact absurd long (Nat.not_lt_of_le ((quotation_suffix tail).length_le))

theorem apostrophe_local {inPlural : Bool}
    (long : tail.length < (apostrophe inPlural (front ++ tail)).2.length) :
    ∃ middle, middle ≠ [] ∧ ∀ other, apostrophe inPlural (front ++ other) =
      ((apostrophe inPlural (front ++ tail)).1, middle ++ other) := by
  cases front with
  | nil => exact absurd long (Nat.not_lt_of_le ((apostrophe_suffix inPlural tail).length_le))
  | cons c front =>
    simp only [List.cons_append, apostrophe] at long ⊢
    by_cases doubled : c = '\''
    · simp only [if_pos doubled] at long ⊢
      refine ⟨front, ?_, fun _ => rfl⟩
      rintro rfl
      exact absurd long (Nat.lt_irrefl _)
    · simp only [if_neg doubled] at long ⊢
      cases special : isSpecial inPlural c with
      | true =>
        simp only [special, if_true] at long ⊢
        rw [← List.cons_append] at long
        obtain ⟨some, same⟩ := quotation_local long
        exact ⟨_, some, fun other => by
          rw [← List.cons_append, ← List.cons_append, same, same]⟩
      | false => exact ⟨c :: front, List.cons_ne_nil c front, fun _ => rfl⟩

end Quotation

/-! ### Readers one after another -/

/-- What a reader takes does not depend on the text behind a place that it does not come to. -/
def LocalAt {α : Type} (read : List Char → Option (α × List Char)) (front tail : List Char) :
    Prop :=
  ∀ value rest, read (front ++ tail) = some (value, rest) → tail.length < rest.length →
    ∃ middle, rest = middle ++ tail ∧
      ∀ other, read (front ++ other) = some (value, middle ++ other)

/-- A reader leaves no more than there was. -/
def Shortening {α : Type} (read : List Char → Option (α × List Char)) : Prop :=
  ∀ text value rest, read text = some (value, rest) → rest.length ≤ text.length

section LocalAt

variable {α β : Type} {front tail : List Char}

theorem localAt_nil {read : List Char → Option (α × List Char)} (shortening : Shortening read) :
    LocalAt read [] tail := fun value rest found long =>
  absurd (shortening tail value rest found) (Nat.not_le_of_lt long)

theorem LocalAt.bind {read : List Char → Option (α × List Char)}
    {next : α → List Char → Option (β × List Char)} (first : LocalAt read front tail)
    (shortening : ∀ value, Shortening (next value))
    (later : ∀ value middle, read (front ++ tail) = some (value, middle ++ tail) →
      LocalAt (next value) middle tail) :
    LocalAt (fun text => (read text).bind fun result => next result.1 result.2) front tail := by
  intro result rest found long
  obtain ⟨⟨value, inner⟩, begun, found⟩ := Option.bind_eq_some_iff.mp found
  have left := shortening value inner result rest found
  obtain ⟨middle, rfl, begins⟩ := first value inner begun (Nat.lt_of_lt_of_le long left)
  obtain ⟨last, rfl, ends⟩ := later value middle begun result rest found long
  exact ⟨last, rfl, fun other => by
    dsimp only
    rw [begins, Option.bind_some, ends]⟩

theorem LocalAt.map {read : List Char → Option (α × List Char)} (change : α → β)
    (first : LocalAt read front tail) :
    LocalAt (fun text => (read text).map fun result => (change result.1, result.2)) front tail := by
  intro result rest found long
  obtain ⟨⟨value, inner⟩, begun, same⟩ := Option.map_eq_some_iff.mp found
  cases same
  obtain ⟨middle, rfl, begins⟩ := first value inner begun long
  exact ⟨middle, rfl, fun other => by
    dsimp only
    rw [begins, Option.map_some]⟩

theorem LocalAt.congr {read other : List Char → Option (α × List Char)}
    (same : ∀ text, read (front ++ text) = other (front ++ text)) (own : LocalAt other front tail) :
    LocalAt read front tail := by
  intro value rest found long
  rw [same] at found
  obtain ⟨middle, rfl, reads⟩ := own value rest found long
  exact ⟨middle, rfl, fun text => by rw [same, reads]⟩

theorem localAt_cons {read other : List Char → Option (α × List Char)} {c : Char}
    (same : ∀ text, read (c :: text) = other text) (own : LocalAt other front tail) :
    LocalAt read (c :: front) tail := by
  intro value rest found long
  rw [List.cons_append, same] at found
  obtain ⟨middle, rfl, reads⟩ := own value rest found long
  exact ⟨middle, rfl, fun text => by rw [List.cons_append, same, reads]⟩

theorem Shortening.map {read : List Char → Option (α × List Char)} (change : α → β)
    (shortening : Shortening read) :
    Shortening fun text => (read text).map fun result => (change result.1, result.2) := by
  intro text value rest found
  obtain ⟨⟨own, left⟩, begun, same⟩ := Option.map_eq_some_iff.mp found
  cases same
  exact shortening text own left begun

/-- After a given character. -/
theorem localAt_expect {wanted : Char} {next : List Char → Option (α × List Char)}
    (shortening : Shortening next)
    (later : ∀ middle, front = wanted :: middle → LocalAt next middle tail) :
    LocalAt (fun text => (expect wanted text).toOption.bind next) front tail := by
  intro value rest read long
  obtain ⟨inner, passed, onward⟩ := Option.bind_eq_some_iff.mp read
  have left := shortening inner value rest onward
  have passed := toOption_eq_some.mp passed
  cases front with
  | nil => exact absurd ((expect_passed passed).shorter) (by rw [List.nil_append]; omega)
  | cons c front =>
    simp only [List.cons_append, expect] at passed
    split at passed
    · rename_i same
      cases passed
      subst same
      obtain ⟨middle, rfl, ends⟩ := later front rfl value rest onward long
      refine ⟨middle, rfl, fun other => ?_⟩
      simp only [List.cons_append, expect, if_true]
      exact ends other
    · cases passed

theorem localAt_some (value : α) : LocalAt (fun text => some (value, text)) front tail := by
  intro other rest found _
  cases found
  exact ⟨front, rfl, fun _ => rfl⟩

theorem shortening_some (value : α) : Shortening fun text => some (value, text) := by
  intro text other rest found
  cases found
  exact Nat.le_refl _

theorem shortening_expect {wanted : Char} {next : List Char → Option (α × List Char)}
    (shortening : Shortening next) :
    Shortening fun text => (expect wanted text).toOption.bind next := by
  intro text value rest found
  obtain ⟨inner, passed, found⟩ := Option.bind_eq_some_iff.mp found
  have shorter := (expect_passed (toOption_eq_some.mp passed)).shorter
  have left := shortening inner value rest found
  omega

end LocalAt

/-! ### The stages of arguments and options -/

section Stages

variable {front tail : List Char}

/-- A name that is not missing, and what follows it. -/
def givenName (text : List Char) : Option (String × List Char) :=
  if (readToken text).1 = [] then none
  else some (String.ofList (readToken text).1, (readToken text).2)

theorem readToken_length (text : List Char) : (readToken text).2.length ≤ text.length :=
  (skipBlanks_readName_suffix text).length_le

theorem givenName_shortening : Shortening givenName := by
  intro text name rest found
  rw [givenName] at found
  split at found <;> cases found
  exact readToken_length text

theorem givenName_local : LocalAt givenName front tail := by
  intro name rest found long
  rw [givenName] at found
  split at found <;> cases found
  rename_i given
  obtain ⟨-, same⟩ := readToken_local long
  refine ⟨(readToken front).2, congrArg Prod.snd (same tail), fun other => ?_⟩
  rw [same] at given
  rw [givenName, same, same, if_neg given]

theorem argumentName_toOption (text : List Char) :
    (argumentName text).toOption = (expect '{' text).toOption.bind givenName := by
  rw [argumentName, toOption_bind]
  refine Option.bind_congr fun rest _ => ?_
  rw [givenName, readToken]
  dsimp only
  split <;> rfl

theorem argumentKind_toOption (text : List Char) :
    (argumentKind text).toOption = (expect ',' text).toOption.bind fun rest =>
      some (String.ofList (readToken rest).1, (readToken rest).2) := by
  rw [argumentKind, toOption_bind]
  rfl

theorem optionStart_toOption (text : List Char) :
    (optionStart (skipBlanks text)).toOption = (givenName text).bind fun named =>
      (expect '{' named.2).toOption.bind fun inside => some (named.1, inside) := by
  rw [optionStart, givenName, readToken]
  dsimp only
  split
  · rfl
  · rw [toOption_bind]
    rfl

theorem argumentName_local : LocalAt (fun text => (argumentName text).toOption) front tail := by
  simp only [argumentName_toOption]
  exact localAt_expect givenName_shortening fun _ _ => givenName_local

theorem argumentKind_local : LocalAt (fun text => (argumentKind text).toOption) front tail := by
  simp only [argumentKind_toOption]
  refine localAt_expect ?_ fun middle _ => ?_
  · intro text kind rest found
    cases found
    exact readToken_length text
  · intro kind rest found long
    cases found
    obtain ⟨-, same⟩ := readToken_local long
    refine ⟨(readToken middle).2, congrArg Prod.snd (same tail), fun other => ?_⟩
    dsimp only
    rw [same, same]

theorem optionStart_local :
    LocalAt (fun text => (optionStart (skipBlanks text)).toOption) front tail := by
  simp only [optionStart_toOption]
  exact givenName_local.bind (fun selector => shortening_expect (shortening_some selector))
    fun selector _ _ => localAt_expect (shortening_some selector) fun _ _ => localAt_some selector

/-! ### Styles -/

theorem skipStyle_local {depth : Nat} {rest : List Char}
    (passed : skipStyle depth (front ++ tail) = .ok rest) (long : tail.length < rest.length) :
    ∃ middle, rest = middle ++ tail ∧
      ∀ other, skipStyle depth (front ++ other) = .ok (middle ++ other) := by
  induction front generalizing depth with
  | nil => exact absurd ((skipStyle_suffix passed).length_le) (Nat.not_le_of_lt long)
  | cons c front ih =>
    rw [List.cons_append] at passed
    simp only [List.cons_append]
    by_cases opened : c = '{'
    · subst opened
      rw [skipStyle] at passed
      simp only [skipStyle]
      exact ih passed
    by_cases closed : c = '}'
    · subst closed
      cases depth with
      | zero =>
        cases passed
        exact ⟨'}' :: front, rfl, fun _ => rfl⟩
      | succ depth => exact ih passed
    · have skips (text : List Char) : skipStyle depth (c :: text) = skipStyle depth text := by
        rw [skipStyle.eq_5] <;> simp [opened, closed]
      simp only [skips] at passed ⊢
      exact ih passed

theorem styleEnd_styled {kind : String} (given : kind.isEmpty = false) (text : List Char) :
    styleEnd kind (',' :: text) = (skipStyle 0 (',' :: text) >>= expect '}') := by
  rw [styleEnd, given]
  rfl

theorem styleEnd_plain {kind : String} (given : kind.isEmpty = false) {c : Char} (plain : c ≠ ',')
    (text : List Char) : styleEnd kind (c :: text) = expect '}' (c :: text) := by
  rw [styleEnd, given, if_neg (by decide)]
  dsimp only
  split
  · rename_i same
    exact absurd (List.cons.inj same).1 plain
  · rfl

theorem styleEnd_local {α : Type} (kind : String) (value : α) :
    LocalAt (fun text => (styleEnd kind text).toOption.map fun after => (value, after))
      front tail := by
  intro other rest found long
  obtain ⟨after, ended, same⟩ := Option.map_eq_some_iff.mp found
  have ended := toOption_eq_some.mp ended
  obtain ⟨rfl, rfl⟩ := Prod.mk.inj same
  have given : kind.isEmpty = false := by
    by_contra empty
    rw [styleEnd, if_pos (by simpa using empty)] at ended
    cases ended
  cases front with
  | nil => exact absurd ((styleEnd_passed ended).shorter) (Nat.not_lt_of_lt long)
  | cons c front =>
    by_cases comma : c = ','
    · subst comma
      rw [List.cons_append, styleEnd_styled given] at ended
      obtain ⟨inner, styled, closed⟩ := bind_eq_ok.mp ended
      obtain rfl := expect_eq_ok.mp closed
      have reached : tail.length < ('}' :: after).length := Nat.lt_succ_of_lt long
      have whole : skipStyle 0 ((',' :: front) ++ tail) = .ok ('}' :: after) := styled
      obtain ⟨middle, split, skips⟩ := skipStyle_local whole reached
      cases middle with
      | nil =>
        rw [split] at reached
        exact absurd reached (Nat.lt_irrefl _)
      | cons d middle =>
        obtain ⟨rfl, rfl⟩ := List.cons.inj split
        refine ⟨middle, rfl, fun other => ?_⟩
        have skipped := skips other
        rw [List.cons_append] at skipped
        dsimp only
        rw [List.cons_append, styleEnd_styled given, skipped, ok_bind, List.cons_append,
          expect_eq_ok.mpr rfl]
        rfl
    · rw [List.cons_append, styleEnd_plain given comma] at ended
      obtain ⟨rfl, rfl⟩ := List.cons.inj (expect_eq_ok.mp ended)
      refine ⟨front, rfl, fun other => ?_⟩
      dsimp only
      rw [List.cons_append, styleEnd_plain given comma, expect_eq_ok.mpr rfl]
      rfl

end Stages

/-! ### Offsets -/

section Offset

variable {front tail : List Char} {offset : Nat} {rest : List Char}

/-- What follows the word that marks an offset. -/
def offsetDigits (text : List Char) : Except Stuck (Nat × List Char) :=
  let digits := (skipBlanks text).takeWhile Text.isDigit
  let after := (skipBlanks text).dropWhile Text.isDigit
  if digits = [] then fail .invalidOffset (skipBlanks text)
  else if digits.all (fun c => (Text.decimalValue? c).isSome) ∧
      digits.length ≤ Number.digitLimit then
    .ok (Number.ofDigits digits, after)
  else fail .offsetNotDecimal after

theorem readOffset_marked {text : List Char}
    (marked : dropBeginning "offset:".toList (skipBlanks text) = some rest) :
    readOffset text = offsetDigits rest := by
  simp only [readOffset, marked]
  rfl

theorem readOffset_unmarked {text : List Char}
    (unmarked : dropBeginning "offset:".toList (skipBlanks text) = none) :
    readOffset text = .ok (0, skipBlanks text) := by
  simp only [readOffset, unmarked]

theorem offsetDigits_eq_ok {text : List Char} :
    offsetDigits text = .ok (offset, rest) ↔
      ∃ digits, (skipBlanks text).takeWhile Text.isDigit = digits ∧ digits ≠ [] ∧
        (digits.all (fun c => (Text.decimalValue? c).isSome) ∧
          digits.length ≤ Number.digitLimit) ∧
        offset = Number.ofDigits digits ∧ rest = (skipBlanks text).dropWhile Text.isDigit := by
  rw [offsetDigits]
  split
  · rename_i missing
    simp [fail, missing]
  · rename_i given
    split
    · rename_i decimal
      constructor
      · intro same
        cases same
        exact ⟨_, rfl, given, decimal, rfl, rfl⟩
      · rintro ⟨digits, rfl, -, -, rfl, rfl⟩
        rfl
    · rename_i other
      constructor
      · intro same
        cases same
      · rintro ⟨digits, rfl, -, decimal, -⟩
        exact absurd decimal other

theorem stops_of_long {p : Char → Bool} (long : tail.length ≤ ((front ++ tail).dropWhile p).length)
    (all : front.dropWhile p = []) : ∀ c ∈ tail.head?, p c = false := by
  rw [List.dropWhile_append_of_pos (List.dropWhile_eq_nil_iff.mp all)] at long
  have whole := (List.dropWhile_suffix p).eq_of_length_le long
  intro c first
  have stop := List.head?_dropWhile_not p tail
  rw [whole, Option.mem_def.mp first] at stop
  exact stop

theorem offsetDigits_local (read : offsetDigits (front ++ tail) = .ok (offset, rest))
    (long : tail.length ≤ rest.length) :
    ∃ middle, rest = middle ++ tail ∧ ∀ other,
      (middle = [] → ∀ c ∈ other.head?, Text.isDigit c = false) →
        offsetDigits (front ++ other) = .ok (offset, middle ++ other) := by
  obtain ⟨digits, taken, given, decimal, rfl, rfl⟩ := offsetDigits_eq_ok.mp read
  -- digits are taken, so that the blanks before them end inside the front
  have fewer : ((skipBlanks (front ++ tail)).dropWhile Text.isDigit).length <
      (skipBlanks (front ++ tail)).length := by
    have parts := congrArg List.length
      (List.takeWhile_append_dropWhile (p := Text.isDigit) (l := skipBlanks (front ++ tail)))
    rw [List.length_append, taken] at parts
    have some := List.length_pos_iff.mpr given
    omega
  have blanks : skipBlanks front ≠ [] := dropWhile_ne_nil (Nat.lt_of_le_of_lt long fewer)
  have shown := skipBlanks_append_of_ne_nil blanks
  rw [shown] at long taken ⊢
  have ends := span_append tail (stops_of_long long)
  refine ⟨(skipBlanks front).dropWhile Text.isDigit, ends.1, fun other stops => ?_⟩
  have same := span_append other stops
  refine offsetDigits_eq_ok.mpr ⟨digits, ?_, given, decimal, rfl, ?_⟩
  · rw [shown, same.2, ← ends.2, taken]
  · rw [shown, same.1]

/-- Before a place, or right behind it, is a character that ends the mark and the digits of an
offset. -/
def Stops (middle other : List Char) : Prop :=
  ∃ before c after, middle ++ other = before ++ c :: after ∧ before.length ≤ middle.length ∧
    c ∉ "offset:".toList ∧ Text.isDigit c = false

theorem stops_of_mem {middle : List Char} (opened : '{' ∈ middle) (other : List Char) :
    Stops middle other := by
  obtain ⟨before, after, rfl⟩ := List.append_of_mem opened
  exact ⟨before, '{', after ++ other, by simp, by simp, by decide, by decide⟩

theorem stops_of_blank (middle : List Char) {c : Char} (blank : Text.isBlank c = true)
    (other : List Char) : Stops middle (c :: other) := by
  refine ⟨middle, c, other, rfl, Nat.le_refl _, ?_, Text.isDigit_of_isBlank blank⟩
  intro letter
  have visible : "offset:".toList.all (!Text.isBlank ·) = true := by decide
  have shown := List.all_eq_true.mp visible c letter
  rw [blank] at shown
  cases shown

/-- The mark of an offset stands before any character that it does not have. -/
theorem marked_before {before after rest : List Char} {c : Char}
    (marked : before ++ c :: after = "offset:".toList ++ rest) (stop : c ∉ "offset:".toList) :
    ∃ later, before = "offset:".toList ++ later := by
  rcases List.append_eq_append_iff.mp marked with ⟨between, mark, follows⟩ | ⟨later, same, -⟩
  · cases between with
    | nil => exact ⟨[], by simpa using mark.symm⟩
    | cons d between =>
      obtain ⟨rfl, -⟩ := List.cons.inj follows
      exact absurd (by simp [mark]) stop
  · exact ⟨later, same⟩

/-- Where something stops the reading of an offset, no mark of one goes on. -/
theorem unmarked_of_stops {visible other : List Char} (stops : Stops visible other)
    (unmarked : dropBeginning "offset:".toList (visible ++ tail) = none) :
    dropBeginning "offset:".toList (visible ++ other) = none := by
  obtain ⟨before, c, after, split, inside, stop, -⟩ := stops
  by_contra found
  obtain ⟨rest, found⟩ := Option.ne_none_iff_exists'.mp found
  have begins := dropBeginning_eq_some.mp found
  rw [split] at begins
  obtain ⟨later, rfl⟩ := marked_before begins stop
  obtain ⟨more, rfl⟩ := List.prefix_of_prefix_length_le
    (⟨_, split.symm⟩ : _ <+: visible ++ other) (List.prefix_append _ other) inside
  have same := dropBeginning_eq_some.mpr (List.append_assoc _ _ _ |>.trans
    (List.append_assoc "offset:".toList later (more ++ tail)))
  rw [unmarked] at same
  cases same

/-- A mark behind which the tail is left stands before the tail. -/
theorem exists_behind_mark {visible inner : List Char}
    (marked : dropBeginning "offset:".toList (visible ++ tail) = some inner)
    (long : tail.length ≤ inner.length) :
    ∃ later, visible = "offset:".toList ++ later ∧ inner = later ++ tail := by
  rcases List.append_eq_append_iff.mp (dropBeginning_eq_some.mp marked) with
    ⟨between, mark, rfl⟩ | ⟨later, same, split⟩
  · rw [List.length_append] at long
    obtain rfl := List.length_eq_zero_iff.mp (show between.length = 0 by omega)
    exact ⟨[], by simpa using mark.symm, rfl⟩
  · exact ⟨later, same, split⟩

theorem readOffset_local (given : skipBlanks front ≠ [])
    (read : readOffset (front ++ tail) = .ok (offset, rest)) (long : tail.length ≤ rest.length) :
    ∃ middle, rest = middle ++ tail ∧ ∀ other, Stops middle other →
      readOffset (front ++ other) = .ok (offset, middle ++ other) := by
  have shown := skipBlanks_append_of_ne_nil given
  generalize skipBlanks front = visible at shown
  cases marked : dropBeginning "offset:".toList (visible ++ tail) with
  | none =>
    rw [readOffset_unmarked (by rw [shown, marked]), shown] at read
    cases read
    refine ⟨visible, rfl, fun other stops => ?_⟩
    have unmarked := unmarked_of_stops stops marked
    rw [readOffset_unmarked (by rw [shown, unmarked]), shown]
  | some inner =>
    rw [readOffset_marked (by rw [shown, marked])] at read
    obtain ⟨digits, -, -, -, -, left⟩ := offsetDigits_eq_ok.mp read
    have fewer : rest.length ≤ inner.length := left ▸
      (List.dropWhile_sublist _).length_le.trans ((skipBlanks_suffix inner).length_le)
    obtain ⟨later, rfl, rfl⟩ := exists_behind_mark marked (long.trans fewer)
    obtain ⟨middle, rfl, same⟩ := offsetDigits_local read long
    refine ⟨middle, rfl, fun other stops => ?_⟩
    have remarked : dropBeginning "offset:".toList ("offset:".toList ++ later ++ other) =
        some (later ++ other) := dropBeginning_eq_some.mpr (List.append_assoc _ _ _)
    rw [readOffset_marked (by rw [shown, remarked])]
    refine same other ?_
    rintro rfl c first
    obtain ⟨before, d, after, split, inside, -, noDigit⟩ := stops
    obtain rfl := List.length_eq_zero_iff.mp (Nat.le_zero.mp inside)
    rw [List.nil_append] at split
    rw [split] at first
    cases first
    exact noDigit

theorem readOffset_congr {text other : List Char} (same : skipBlanks text = skipBlanks other) :
    readOffset text = readOffset other := by
  simp only [readOffset, same]

/-- The beginning of a choice does not depend on what follows a brace behind it. -/
theorem choiceStart_local {hasOffset : Bool}
    (begun : choiceStart hasOffset (front ++ tail) = .ok (offset, rest))
    (long : tail.length < rest.length) :
    ∃ middle, rest = middle ++ tail ∧ ∀ other, '{' ∈ middle →
      choiceStart hasOffset (front ++ other) = .ok (offset, middle ++ other) := by
  have shorter := (choiceStart_passed begun).shorter
  cases front with
  | nil => exact absurd shorter (Nat.not_lt_of_lt long)
  | cons c front =>
    obtain ⟨inner, passed, begun⟩ := bind_eq_ok.mp begun
    obtain ⟨rfl, rfl⟩ := List.cons.inj (expect_eq_ok.mp passed)
    cases hasOffset with
    | false =>
      cases begun
      exact ⟨front, rfl, fun other _ => rfl⟩
    | true =>
      have begun : readOffset (front ++ tail) = .ok (offset, rest) := begun
      have given : skipBlanks front ≠ [] := by
        intro blank
        rw [readOffset_congr (skipBlanks_append_of_nil blank tail)] at begun
        exact absurd ((readOffset_suffix begun).length_le) (Nat.not_le_of_lt long)
      obtain ⟨middle, rfl, same⟩ := readOffset_local given begun (Nat.le_of_lt long)
      exact ⟨middle, rfl, fun other opened => same other (stops_of_mem opened other)⟩

/-- Blanks that are put behind the beginning of a choice may be passed with it. -/
theorem choiceStart_spaced {hasOffset : Bool} {middle run : List Char} {c : Char}
    (begun : choiceStart hasOffset (front ++ tail) = .ok (offset, middle ++ tail))
    (blank : ∀ d ∈ c :: run, Text.isBlank d = true) :
    ∃ after, choiceStart hasOffset (front ++ (c :: run ++ tail)) = .ok (offset, after) ∧
      skipBlanks after = skipBlanks (middle ++ (c :: run ++ tail)) := by
  have shorter := (choiceStart_passed begun).shorter
  cases front with
  | nil =>
    rw [List.length_append, List.nil_append] at shorter
    omega
  | cons d front =>
    obtain ⟨inner, passed, begun⟩ := bind_eq_ok.mp begun
    obtain ⟨rfl, rfl⟩ := List.cons.inj (expect_eq_ok.mp passed)
    cases hasOffset with
    | false =>
      obtain ⟨rfl, same⟩ := Prod.mk.inj (Except.ok.inj begun)
      obtain rfl := List.append_cancel_right same
      exact ⟨_, rfl, rfl⟩
    | true =>
      have begun : readOffset (front ++ tail) = .ok (offset, middle ++ tail) := begun
      by_cases given : skipBlanks front = []
      · have skips : skipBlanks (c :: run ++ tail) = skipBlanks tail :=
          List.dropWhile_append_of_pos blank
        have same : skipBlanks (front ++ (c :: run ++ tail)) = skipBlanks (front ++ tail) := by
          rw [skipBlanks_append_of_nil given, skipBlanks_append_of_nil given, skips]
        have reads := (readOffset_congr (skipBlanks_append_of_nil given tail)).symm.trans begun
        have left := (readOffset_suffix reads).length_le
        rw [List.length_append] at left
        obtain rfl := List.length_eq_zero_iff.mp (show middle.length = 0 by omega)
        refine ⟨tail, (readOffset_congr same).trans begun, ?_⟩
        rw [List.nil_append, skips]
      · obtain ⟨other, split, same⟩ := readOffset_local given begun (by simp)
        obtain rfl := List.append_cancel_right split
        exact ⟨_, same _ (stops_of_blank middle (blank c List.mem_cons_self) _), rfl⟩

end Offset

/-! ### Patterns -/

theorem patternAt_shortening (inPlural : Bool) : Shortening (patternAt inPlural) := by
  intro text pattern rest found
  obtain ⟨⟨own, left⟩, read, same⟩ := Option.map_eq_some_iff.mp found
  cases same
  exact ((reads _).parts (toOption_eq_some.mp read)).suffix.length_le

theorem optionsAt_shortening (inPlural : Bool) : Shortening (optionsAt inPlural) := by
  intro text choices rest found
  obtain ⟨⟨own, left⟩, read, same⟩ := Option.map_eq_some_iff.mp found
  cases same
  exact ((reads _).options (toOption_eq_some.mp read)).suffix.length_le

theorem optionAt_shortening (inPlural : Bool) (selector : String) :
    Shortening (optionAt inPlural selector) := by
  intro text choices rest found
  obtain ⟨⟨body, last⟩, read, found⟩ := Option.bind_eq_some_iff.mp found
  have first := patternAt_shortening _ _ _ _ read
  have second := shortening_expect ((optionsAt_shortening inPlural).map ((selector, body) :: ·))
    _ _ _ found
  exact second.trans first

theorem choiceAt_shortening (kind : Kind) (inPlural : Bool) (name : String) :
    Shortening (choiceAt kind inPlural name) := by
  intro text part rest found
  obtain ⟨⟨offset, inner⟩, begun, found⟩ := Option.bind_eq_some_iff.mp found
  obtain ⟨⟨choices, last⟩, chosen, found⟩ := Option.bind_eq_some_iff.mp found
  obtain ⟨after, ended, same⟩ := Option.map_eq_some_iff.mp found
  cases same
  have first := (choiceStart_passed (toOption_eq_some.mp begun)).shorter
  have second := optionsAt_shortening _ _ _ _ chosen
  have third := (choiceEnd_passed (toOption_eq_some.mp ended)).shorter
  dsimp only at second third
  omega

theorem kindAt_shortening (inPlural : Bool) (name kind : String) :
    Shortening (kindAt inPlural name kind) := by
  intro text part rest found
  rw [kindAt] at found
  split at found
  · exact choiceAt_shortening _ _ _ _ _ _ found
  · obtain ⟨after, ended, same⟩ := Option.map_eq_some_iff.mp found
    cases same
    exact Nat.le_of_lt ((styleEnd_passed (toOption_eq_some.mp ended)).shorter)

theorem tailAt_shortening (inPlural : Bool) (name : String) :
    Shortening (tailAt inPlural name) := by
  intro text part rest found
  unfold tailAt at found
  split at found
  · cases found
    exact Nat.le_succ _
  · obtain ⟨⟨kind, inner⟩, typed, found⟩ := Option.bind_eq_some_iff.mp found
    have first := (argumentKind_passed (toOption_eq_some.mp typed)).shorter
    have second := kindAt_shortening _ _ _ _ _ _ found
    dsimp only at second
    omega

/-- Texts up to a length are read locally. -/
structure LocalTo (length : Nat) : Prop where
  pattern : ∀ inPlural front tail, (front ++ tail).length ≤ length →
    LocalAt (patternAt inPlural) front tail
  options : ∀ inPlural front tail, (front ++ tail).length ≤ length →
    LocalAt (optionsAt inPlural) front tail

section Step

variable {length : Nat} {front tail : List Char}

/-- A choice has an option, and so a brace that opens one. -/
theorem mem_of_optionsAt {inPlural : Bool} {choices : List (String × Pattern)} {last : List Char}
    (chosen : optionsAt inPlural (front ++ tail) = some (choices, last)) (given : choices ≠ [])
    (long : tail.length < last.length) : '{' ∈ front := by
  obtain ⟨⟨own, left⟩, read, same⟩ := Option.map_eq_some_iff.mp chosen
  cases same
  cases readOptions_eq_ok.mp (toOption_eq_some.mp read) with
  | ends => exact absurd rfl given
  | option begun first later =>
    have left := (later.suffix.trans ((List.suffix_cons _ _).trans first.suffix)).length_le
    obtain ⟨start, whole⟩ := (optionStart_opens begun).trans (skipBlanks_suffix (front ++ tail))
    rcases List.append_eq_append_iff.mp whole with ⟨between, rfl, same⟩ | ⟨between, -, same⟩
    · cases between with
      | nil =>
        have lengths := congrArg List.length same
        simp only [List.nil_append, List.length_cons] at lengths
        dsimp only at long
        omega
      | cons c between =>
        obtain ⟨rfl, -⟩ := List.cons.inj same
        simp
    · rw [same, List.length_append, List.length_cons] at long
      dsimp only at long
      omega

theorem choiceAt_local {kind : Kind} {inPlural : Bool} {name : String}
    (before : ∀ middle, (middle ++ tail).length < (front ++ tail).length →
      LocalAt (optionsAt (kind.inPlural inPlural)) middle tail) :
    LocalAt (choiceAt kind inPlural name) front tail := by
  intro part rest found long
  obtain ⟨⟨offset, inner⟩, begun, found⟩ := Option.bind_eq_some_iff.mp found
  obtain ⟨⟨choices, last⟩, chosen, found⟩ := Option.bind_eq_some_iff.mp found
  obtain ⟨after, ended, same⟩ := Option.map_eq_some_iff.mp found
  have begun := toOption_eq_some.mp begun
  have ended := toOption_eq_some.mp ended
  have left := optionsAt_shortening _ _ _ _ chosen
  have closes := (choiceEnd_passed ended).shorter
  cases same
  dsimp only at chosen left closes ended
  have shorter := (choiceStart_passed begun).shorter
  obtain ⟨middle, rfl, starts⟩ := choiceStart_local begun (by omega)
  obtain ⟨ends, rfl, reads⟩ := before middle shorter choices last chosen (by omega)
  have given : choices ≠ [] := by
    rintro rfl
    cases ended
  rw [choiceEnd, if_neg (by simpa using given)] at ended
  have closed := expect_eq_ok.mp ended
  have opened := mem_of_optionsAt chosen given (by omega)
  cases ends with
  | nil =>
    rw [List.nil_append] at closes
    omega
  | cons d ends =>
    obtain ⟨rfl, rfl⟩ := List.cons.inj closed
    refine ⟨ends, rfl, fun other => ?_⟩
    rw [choiceAt, starts other opened]
    dsimp only [Except.toOption]
    rw [Option.bind_some, reads other, Option.bind_some, List.cons_append,
      choiceEnd_close given]
    rfl

theorem kindAt_local {inPlural : Bool} {name kind : String}
    (before : ∀ inPlural middle, (middle ++ tail).length < (front ++ tail).length →
      LocalAt (optionsAt inPlural) middle tail) :
    LocalAt (kindAt inPlural name kind) front tail := by
  unfold kindAt
  split
  · exact choiceAt_local (before _)
  · exact styleEnd_local kind (Part.argument name "")

theorem tailAt_local {inPlural : Bool} {name : String}
    (before : ∀ inPlural middle, (middle ++ tail).length < (front ++ tail).length →
      LocalAt (optionsAt inPlural) middle tail) :
    LocalAt (tailAt inPlural name) front tail := by
  cases front with
  | nil => exact localAt_nil (tailAt_shortening inPlural name)
  | cons c front =>
    by_cases closed : c = '}'
    · subst closed
      intro part rest found _
      cases found
      exact ⟨front, rfl, fun _ => rfl⟩
    · refine LocalAt.congr (fun other => tailAt_typed inPlural name ?_)
        (argumentKind_local.bind (kindAt_shortening inPlural name) fun kind middle typed => ?_)
      · intro after same
        exact closed (List.cons.inj same).1
      · have shorter := (argumentKind_passed (toOption_eq_some.mp typed)).shorter
        exact kindAt_local fun around later fewer => before around later (fewer.trans shorter)

theorem argumentAt_local {inPlural : Bool}
    (before : ∀ inPlural middle, (middle ++ tail).length < (front ++ tail).length →
      LocalAt (optionsAt inPlural) middle tail) :
    LocalAt (argumentAt inPlural) front tail := by
  refine LocalAt.congr (fun other => argumentAt_eq inPlural (front ++ other))
    (argumentName_local.bind (tailAt_shortening inPlural) fun name middle named => ?_)
  have shorter := (argumentName_passed (toOption_eq_some.mp named)).shorter
  exact tailAt_local fun around later fewer => before around later (fewer.trans shorter)

theorem argumentAt_shorter {inPlural : Bool} {text rest : List Char} {part : Part}
    (found : argumentAt inPlural text = some (part, rest)) : rest.length < text.length := by
  obtain ⟨⟨own, left⟩, read, same⟩ := Option.map_eq_some_iff.mp found
  cases same
  exact ((reads _).argument (toOption_eq_some.mp read)).passed.shorter

theorem localAt_apostrophe (inPlural : Bool) :
    LocalAt (fun text => some (apostrophe inPlural text)) front tail := by
  intro text rest found long
  have same := Option.some.inj found
  obtain ⟨middle, -, reads⟩ := apostrophe_local (same ▸ long :
    tail.length < (apostrophe inPlural (front ++ tail)).2.length)
  have whole := (reads tail).symm.trans same
  obtain ⟨rfl, rfl⟩ := Prod.mk.inj whole
  exact ⟨middle, rfl, fun other => congrArg some (reads other)⟩

theorem patternAt_local {inPlural : Bool} (first : LocalAt (argumentAt inPlural) front tail)
    (before : ∀ middle, (middle ++ tail).length < (front ++ tail).length →
      LocalAt (patternAt inPlural) middle tail) :
    LocalAt (patternAt inPlural) front tail := by
  cases front with
  | nil => exact localAt_nil (patternAt_shortening inPlural)
  | cons c front =>
    have rest := before front (by simp)
    rcases meaning_cases inPlural c with rfl | rfl | rfl | ⟨rfl, rfl⟩ | ⟨plain, mark⟩
    · refine LocalAt.congr ?_ (first.bind
        (fun part => (patternAt_shortening inPlural).map (part :: ·)) fun part middle read =>
          (before middle (argumentAt_shorter read)).map (part :: ·))
      exact fun other => patternAt_open inPlural (front ++ other)
    · intro pattern left found _
      have whole := (patternAt_close inPlural (front ++ tail)).symm.trans found
      cases whole
      exact ⟨'}' :: front, rfl, fun other => patternAt_close inPlural (front ++ other)⟩
    · refine localAt_cons ?_ ((localAt_apostrophe inPlural).bind
        (fun text => (patternAt_shortening inPlural).map (·.prepend text)) fun text middle read =>
          (before middle ?_).map (·.prepend text))
      · exact fun text => patternAt_apostrophe inPlural text
      · have shorter := (apostrophe_suffix inPlural (front ++ tail)).length_le
        rw [Option.some.inj read] at shorter
        exact Nat.lt_succ_of_le shorter
    · exact localAt_cons patternAt_pound (rest.map (.pound :: ·))
    · exact localAt_cons (fun text => patternAt_plain text plain mark) (rest.map (·.prepend [c]))

theorem optionAt_local {inPlural : Bool} {selector : String}
    (body : LocalAt (patternAt inPlural) front tail)
    (before : ∀ middle, (middle ++ tail).length ≤ (front ++ tail).length →
      LocalAt (optionsAt inPlural) middle tail) :
    LocalAt (optionAt inPlural selector) front tail := by
  have shortening (pattern : Pattern) :=
    (optionsAt_shortening inPlural).map ((selector, pattern) :: ·)
  refine body.bind (fun pattern => shortening_expect (shortening pattern))
    fun pattern middle read => localAt_expect (shortening pattern) fun later split => ?_
  have left := patternAt_shortening _ _ _ _ read
  rw [split] at left
  exact (before later (Nat.le_of_succ_le left)).map ((selector, pattern) :: ·)

theorem optionsAt_local {inPlural : Bool}
    (bodies : ∀ middle, (middle ++ tail).length < (front ++ tail).length →
      LocalAt (patternAt inPlural) middle tail)
    (before : ∀ middle, (middle ++ tail).length < (front ++ tail).length →
      LocalAt (optionsAt inPlural) middle tail) :
    LocalAt (optionsAt inPlural) front tail := by
  cases shown : skipBlanks front with
  | nil =>
    intro choices rest found long
    rw [← optionsAt_skipBlanks, skipBlanks_append_of_nil shown, optionsAt_skipBlanks] at found
    exact absurd (optionsAt_shortening _ _ _ _ found) (Nat.not_le_of_lt long)
  | cons c inner =>
    have begins (other : List Char) : skipBlanks (front ++ other) = c :: (inner ++ other) := by
      rw [skipBlanks_append_of_ne_nil (by rw [shown]; exact List.cons_ne_nil c inner), shown]
      rfl
    by_cases closed : c = '}'
    · subst closed
      have ends (other : List Char) :
          optionsAt inPlural (front ++ other) = some ([], '}' :: (inner ++ other)) := by
        rw [← optionsAt_skipBlanks, begins, optionsAt_close]
      intro choices rest found _
      cases (ends tail).symm.trans found
      exact ⟨'}' :: inner, rfl, ends⟩
    · refine LocalAt.congr ?_
        (optionStart_local.bind (optionAt_shortening inPlural) fun selector middle begun => ?_)
      · exact fun other => optionsAt_start inPlural (begins other) closed
      · have opened := (optionStart_passed (toOption_eq_some.mp begun)).shorter
        have blanks := (skipBlanks_suffix (front ++ tail)).length_le
        have shorter : (middle ++ tail).length < (front ++ tail).length := by omega
        exact optionAt_local (bodies middle shorter) fun later fewer =>
          before later (Nat.lt_of_le_of_lt fewer shorter)

end Step

theorem localTo (length : Nat) : LocalTo length := by
  induction length using Nat.strong_induction_on with
  | _ length ih =>
    have options (inPlural : Bool) (front tail : List Char)
        (fits : (front ++ tail).length ≤ length) :
        LocalAt (optionsAt inPlural) front tail :=
      optionsAt_local (fun middle fewer => (ih _ (fewer.trans_le fits)).pattern _ _ _ le_rfl)
        fun middle fewer => (ih _ (fewer.trans_le fits)).options _ _ _ le_rfl
    refine ⟨fun inPlural front tail fits => ?_, options⟩
    exact patternAt_local
      (argumentAt_local fun around middle fewer => options around middle tail (by omega))
      fun middle fewer => (ih _ (fewer.trans_le fits)).pattern _ _ _ le_rfl

/-- What is read of a pattern up to a place is the same whatever follows the place. -/
theorem localAt_pattern (inPlural : Bool) (front tail : List Char) :
    LocalAt (patternAt inPlural) front tail :=
  (localTo _).pattern inPlural front tail le_rfl

theorem localAt_options (inPlural : Bool) (front tail : List Char) :
    LocalAt (optionsAt inPlural) front tail :=
  (localTo _).options inPlural front tail le_rfl

theorem localAt_argument (inPlural : Bool) (front tail : List Char) :
    LocalAt (argumentAt inPlural) front tail :=
  argumentAt_local fun around middle _ => localAt_options around middle tail

end Phrasebook.Message

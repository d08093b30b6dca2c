import Phrasebook.Proofs.Message.Sources
import Phrasebook.Proofs.Untranslated

set_option autoImplicit false

/-!
Texts of variations that stand apart. The texts are written between braces as they are, so a text
that leaves a quotation open quotes the brace that closes it, and takes what follows for its own.
Texts that leave none open are read one by one as if each were alone.
-/
namespace Phrasebook.Plural

open Message
open Outcome (ok_bind bind_eq_ok)

/-- A text without braces. -/
def isUnbraced (text : String) : Bool := text.toList.all fun c => c ≠ '{' && c ≠ '}'

/-- No quotation is open after characters that are read inside of one or not. A last apostrophe
opens one, since a brace follows. -/
def isClosedFrom : Bool → List Char → Bool
  | quoted, [] => !quoted
  | quoted, '\'' :: '\'' :: rest => isClosedFrom quoted rest
  | true, '\'' :: rest => isClosedFrom false rest
  | false, ['\''] => false
  | false, '\'' :: '#' :: rest => isClosedFrom true rest
  | quoted, _ :: rest => isClosedFrom quoted rest

/-- A text after which no quotation is open. -/
def isClosed (text : String) : Bool := isClosedFrom false text.toList

/-- What a text is read as alone, as the body of an option. -/
def bodyOf (text : String) : Pattern :=
  match readParts true text.toList with
  | .ok (body, _) => body
  | .error _ => []

/-! ### Reading inside and outside of quotations -/

/-- Reads a body from a place that may be inside of a quotation. -/
def readFrom (quoted : Bool) (text : List Char) : Except Stuck (Pattern × List Char) :=
  if quoted then do
    let (more, after) ← readParts true (quotation text).2
    .ok (more.prepend (quotation text).1, after)
  else readParts true text

section ReadFrom

variable {c : Char} (rest : List Char)

theorem readFrom_doubled (quoted : Bool) :
    readFrom quoted ('\'' :: '\'' :: rest) = (do
      let (more, after) ← readFrom quoted rest
      .ok (more.prepend ['\''], after)) := by
  cases quoted with
  | false => exact readParts_apostrophe true ('\'' :: rest)
  | true =>
    simp only [readFrom, quotation, if_true]
    cases readParts true (quotation rest).2 <;> simp [prepend_prepend]

theorem readFrom_leave (apart : rest.head? ≠ some '\'') :
    readFrom true ('\'' :: rest) = (do
      let (more, after) ← readFrom false rest
      .ok (more.prepend [], after)) := by
  simp only [readFrom, quotation_close apart, if_true]
  rfl

theorem readFrom_enter (special : isSpecial true c = true) :
    readFrom false ('\'' :: c :: rest) = (do
      let (more, after) ← readFrom true rest
      .ok (more.prepend [c], after)) := by
  have other : c ≠ '\'' := by
    rintro rfl
    cases special
  have opened : apostrophe true (c :: rest) = (c :: (quotation rest).1, (quotation rest).2) := by
    rw [apostrophe, if_neg other, if_pos special, quotation_cons rest other]
  change readParts true ('\'' :: c :: rest) = _
  rw [readParts_apostrophe, opened]
  simp only [readFrom, if_true]
  cases readParts true (quotation rest).2 <;> simp [prepend_prepend]

theorem readFrom_lone (other : c ≠ '\'') (ordinary : isSpecial true c = false) :
    readFrom false ('\'' :: c :: rest) = (do
      let (more, after) ← readFrom false (c :: rest)
      .ok (more.prepend ['\''], after)) := by
  have lone : apostrophe true (c :: rest) = (['\''], c :: rest) := by
    simp [apostrophe, other, ordinary]
  change readParts true ('\'' :: c :: rest) = _
  rw [readParts_apostrophe, lone]
  rfl

theorem readFrom_quoted (other : c ≠ '\'') :
    readFrom true (c :: rest) = (do
      let (more, after) ← readFrom true rest
      .ok (more.prepend [c], after)) := by
  simp only [readFrom, quotation_cons rest other, if_true]
  cases readParts true (quotation rest).2 <;> simp [prepend_prepend]

end ReadFrom

/-! ### The end of a text -/

/-- A text is read alone. In place it is read as the same body up to the brace that closes it, or
past the apostrophe that comes next. -/
structure Ends (quoted : Bool) (text : List Char) (body : Pattern) : Prop where
  alone : readFrom quoted text = .ok (body, [])
  closed : isClosedFrom quoted text = true → ∀ tail,
    readFrom quoted (text ++ '}' :: tail) = .ok (body, '}' :: tail)
  unclosed : isClosedFrom quoted text = false → ∀ tail other rest,
    readFrom quoted (text ++ '}' :: tail) = .ok (other, rest) → rest <:+ (quotation tail).2

/-- Characters that are read for themselves change only the body. -/
theorem Ends.step {quoted next : Bool} {text later : List Char} {body : Pattern}
    (change : Pattern → Pattern) (same : isClosedFrom quoted text = isClosedFrom next later)
    (reads : ∀ more, Closes more → readFrom quoted (text ++ more) = (do
      let (pattern, after) ← readFrom next (later ++ more)
      .ok (change pattern, after)))
    (ends : Ends next later body) : Ends quoted text (change body) := by
  refine ⟨?_, fun closed tail => ?_, fun unclosed tail other rest read => ?_⟩
  · have whole := reads [] (.inl rfl)
    rw [List.append_nil, List.append_nil, ends.alone] at whole
    exact whole
  · rw [reads _ (.inr ⟨tail, rfl⟩), ends.closed (same ▸ closed) tail]
    rfl
  · rw [reads _ (.inr ⟨tail, rfl⟩), bind_eq_ok] at read
    obtain ⟨⟨pattern, after⟩, read, done⟩ := read
    cases done
    exact ends.unclosed (same ▸ unclosed) tail pattern rest read

/-- What is read from inside of a quotation leaves no more than what follows it. -/
theorem suffix_of_readFrom {text rest : List Char} {body : Pattern}
    (read : readFrom true text = .ok (body, rest)) : rest <:+ (quotation text).2 := by
  simp only [readFrom, if_true, bind_eq_ok] at read
  obtain ⟨⟨pattern, after⟩, read, done⟩ := read
  cases done
  exact (readParts_eq_ok.mp read).suffix

theorem readFrom_closes {more : List Char} (closes : Closes more) :
    readFrom false more = .ok ([], more) := readParts_closes true closes

theorem not_special {c : Char} (unbraced : c ≠ '{' ∧ c ≠ '}') (other : c ≠ '#') :
    isSpecial true c = false := by
  simp [isSpecial, unbraced.1, unbraced.2, other]

/-- An apostrophe is not doubled by what follows a text. -/
theorem head?_ne_of_closes {rest more : List Char} (closes : Closes more)
    (single : ∀ later, rest = '\'' :: later → False) : (rest ++ more).head? ≠ some '\'' := by
  cases rest with
  | nil => rcases closes with rfl | ⟨tail, rfl⟩ <;> simp
  | cons c rest =>
    intro same
    exact single rest (by simpa using same)

theorem exists_ends (quoted : Bool) (text : List Char) (unbraced : ∀ c ∈ text, c ≠ '{' ∧ c ≠ '}') :
    ∃ body, Ends quoted text body := by
  fun_induction isClosedFrom quoted text with
  | case1 quoted =>
    cases quoted with
    | false => exact ⟨[], rfl, fun _ tail => readFrom_closes (.inr ⟨tail, rfl⟩), nofun⟩
    | true =>
      refine ⟨[.literal ""], rfl, nofun, fun _ tail other rest read => ?_⟩
      have suffix := suffix_of_readFrom read
      rwa [List.nil_append, quotation_cons tail (by decide)] at suffix
  | case2 quoted rest ih =>
    obtain ⟨body, ends⟩ := ih fun c member => unbraced c (by simp [member])
    exact ⟨_, ends.step _ (by rw [isClosedFrom]) fun more _ =>
      readFrom_doubled (rest ++ more) quoted⟩
  | case3 rest single ih =>
    obtain ⟨body, ends⟩ := ih fun c member => unbraced c (by simp [member])
    exact ⟨_, ends.step _ (by rw [isClosedFrom]; exact single) fun more closes =>
      readFrom_leave (rest ++ more) (head?_ne_of_closes closes single)⟩
  | case4 =>
    refine ⟨[.literal "'"], rfl, nofun, fun _ tail other rest read => ?_⟩
    rw [List.singleton_append, readFrom_enter tail rfl, bind_eq_ok] at read
    obtain ⟨⟨pattern, after⟩, read, done⟩ := read
    cases done
    exact suffix_of_readFrom read
  | case5 rest ih =>
    obtain ⟨body, ends⟩ := ih fun c member => unbraced c (by simp [member])
    exact ⟨_, ends.step _ (by rw [isClosedFrom]) fun more _ =>
      readFrom_enter (rest ++ more) rfl⟩
  | case6 quoted c rest doubled left last entered ih =>
    obtain ⟨body, ends⟩ := ih fun d member => unbraced d (by simp [member])
    have same : isClosedFrom quoted (c :: rest) = isClosedFrom quoted rest :=
      isClosedFrom.eq_6 quoted c rest doubled left last entered
    cases quoted with
    | true => exact ⟨_, ends.step _ same fun more _ => readFrom_quoted (rest ++ more) (left rfl)⟩
    | false =>
      by_cases mark : c = '\''
      · obtain ⟨d, inner, rfl⟩ := List.exists_cons_of_ne_nil (last rfl mark)
        have other : d ≠ '\'' := fun again => doubled inner mark (by rw [again])
        have ordinary : isSpecial true d = false :=
          not_special (unbraced d (by simp)) fun pound => entered inner rfl mark (by rw [pound])
        subst mark
        exact ⟨_, ends.step _ same fun more _ => readFrom_lone (inner ++ more) other ordinary⟩
      · by_cases pound : c = '#'
        · subst pound
          exact ⟨_, ends.step _ same fun more _ => readParts_pound (rest ++ more)⟩
        · exact ⟨_, ends.step _ same fun more _ =>
            readParts_plain (rest ++ more) (not_special (unbraced c (by simp)) pound) mark⟩

/-! ### One text -/

section Text

variable {text : String}

theorem isUnbraced_iff : isUnbraced text = true ↔ ∀ c ∈ text.toList, c ≠ '{' ∧ c ≠ '}' := by
  simp [isUnbraced]

theorem ends_bodyOf (unbraced : isUnbraced text = true) :
    Ends false text.toList (bodyOf text) := by
  obtain ⟨body, ends⟩ := exists_ends false text.toList (isUnbraced_iff.mp unbraced)
  have alone : readParts true text.toList = .ok (body, []) := ends.alone
  rwa [bodyOf, alone]

theorem readsAs_bodyOf (unbraced : isUnbraced text = true) (closed : isClosed text = true) :
    ReadsAs text (bodyOf text) :=
  (ends_bodyOf unbraced).closed closed

end Text

/-! ### The options that are read -/

theorem isName_of_readsOptions {inPlural : Bool} {text rest : List Char}
    {choices : List (String × Pattern)} (read : ReadsOptions inPlural text choices rest) :
    ∀ choice ∈ choices, isName choice.1 = true := by
  refine read.along nofun ?_
  intro _ _ _ _ _ _ begun _ others
  exact List.forall_mem_cons.mpr ⟨isName_of_optionStart begun, others⟩

/-- Each option takes a brace. -/
theorem length_le_count {inPlural : Bool} {text rest : List Char}
    {choices : List (String × Pattern)} (read : ReadsOptions inPlural text choices rest) :
    choices.length ≤ text.count '{' := by
  refine read.along (Nat.zero_le _) ?_
  intro text _ _ _ _ _ begun first others
  have opened := ((optionStart_opens begun).trans (skipBlanks_suffix text)).sublist.count_le '{'
  have left := ((List.suffix_cons _ _).trans first.suffix).sublist.count_le '{'
  rw [List.count_cons_self] at opened
  rw [List.length_cons]
  omega

/-! ### Options after one that is not closed -/

section Options

variable {pairs : List (String × String)}

theorem quotation_append {front : List Char} (unquoted : '\'' ∉ front) (rest : List Char) :
    (quotation (front ++ rest)).2 = (quotation rest).2 := by
  induction front with
  | nil => rfl
  | cons c front ih =>
    rw [List.mem_cons, not_or] at unquoted
    rw [List.cons_append, quotation_cons _ (Ne.symm unquoted.1), ih unquoted.2]

theorem not_mem_of_isName {name : String} (named : isName name = true) {c : Char}
    (ends : endsName c = true) : c ∉ name.toList := by
  obtain ⟨-, -, -, -, letters⟩ := isName_cons named
  intro member
  rw [letters c member] at ends
  cases ends

theorem count_of_isUnbraced {text : String} (unbraced : isUnbraced text = true) :
    text.toList.count '{' = 0 :=
  List.count_eq_zero.mpr fun member => (isUnbraced_iff.mp unbraced _ member).1 rfl

/-- Each option is written with one brace that opens. -/
theorem count_optionsText (named : ∀ pair ∈ pairs, isName pair.1 = true)
    (unbraced : ∀ pair ∈ pairs, isUnbraced pair.2 = true) :
    (optionsText pairs).count '{' = pairs.length := by
  induction pairs with
  | nil => rfl
  | cons pair pairs ih =>
    obtain ⟨name, names⟩ := List.forall_mem_cons.mp named
    obtain ⟨text, texts⟩ := List.forall_mem_cons.mp unbraced
    have selector := List.count_eq_zero.mpr (not_mem_of_isName name (c := '{') (by decide))
    have later := ih names texts
    rw [optionsText] at later
    simp [optionsText, selector, count_of_isUnbraced text, later]

/-- An open quotation takes the next brace that opens, if there is one. -/
theorem count_quotation {pair : String × String}
    (named : ∀ other ∈ pair :: pairs, isName other.1 = true)
    (unbraced : ∀ other ∈ pair :: pairs, isUnbraced other.2 = true) :
    (quotation (optionsText (pair :: pairs) ++ ['}'])).2.count '{' ≤ pairs.length := by
  obtain ⟨name, names⟩ := List.forall_mem_cons.mp named
  obtain ⟨text, texts⟩ := List.forall_mem_cons.mp unbraced
  have unquoted : '\'' ∉ ' ' :: (pair.1.toList ++ [' ', '{']) := by
    simp [not_mem_of_isName name (c := '\'') (by decide)]
  have split : optionsText (pair :: pairs) ++ ['}'] =
      (' ' :: (pair.1.toList ++ [' ', '{'])) ++
        (pair.2.toList ++ '}' :: (optionsText pairs ++ ['}'])) := by
    simp [optionsText]
  rw [split, quotation_append unquoted]
  refine (quotation_suffix _).sublist.count_le '{' |>.trans ?_
  simp [count_of_isUnbraced text, count_optionsText names texts]

/-- If as many options are read as are written, none of them leaves a quotation open. -/
theorem isClosed_of_readOptions (named : ∀ pair ∈ pairs, isName pair.1 = true)
    (unbraced : ∀ pair ∈ pairs, isUnbraced pair.2 = true) {choices : List (String × Pattern)}
    {rest : List Char} (read : readOptions true (optionsText pairs ++ ['}']) = .ok (choices, rest))
    (all : choices.length = pairs.length) : ∀ pair ∈ pairs, isClosed pair.2 = true := by
  induction pairs generalizing choices with
  | nil => exact nofun
  | cons pair pairs ih =>
    obtain ⟨name, names⟩ := List.forall_mem_cons.mp named
    obtain ⟨text, texts⟩ := List.forall_mem_cons.mp unbraced
    have spelled : optionsText (pair :: pairs) ++ ['}'] =
        ' ' :: (pair.1.toList ++ ' ' :: '{' ::
          (pair.2.toList ++ '}' :: (optionsText pairs ++ ['}']))) := by
      simp [optionsText]
    have ends := ends_bodyOf text
    rw [spelled, readOptions_selector true name] at read
    simp only [bind_eq_ok, Prod.exists] at read
    obtain ⟨body, last, first, after, ended, more, final, later, done⟩ := read
    cases done
    have allLater : more.length = pairs.length := Nat.succ.inj all
    cases closed : isClosed pair.2 with
    | true =>
      have own := (ends.closed closed (optionsText pairs ++ ['}'])).symm.trans first
      obtain ⟨-, rfl⟩ := Prod.mk.inj (Except.ok.inj own)
      cases ended
      exact List.forall_mem_cons.mpr ⟨closed, ih names texts later allLater⟩
    | false =>
      -- the quotation takes a brace, so that fewer options are left than are to be read
      have suffix := ends.unclosed closed _ _ _ first
      exfalso
      cases pairs with
      | nil =>
        obtain rfl := List.suffix_nil.mp suffix
        cases ended
      | cons next pairs =>
        have left := ((expect_passed ended).suffix.trans suffix).sublist.count_le '{'
        have few := count_quotation names texts
        have many := length_le_count (readOptions_eq_ok.mp later)
        simp only [List.length_cons] at allLater
        omega

end Options

/-! ### Variations -/

section Variations

variable {pairs : Dictionary String String}

theorem isName_iff {selector : String} (known : isPluralSelector selector = true) :
    isName selector = true ↔ ∀ c ∈ selector.toList, endsName c = false := by
  constructor
  · intro named
    obtain ⟨-, -, -, -, letters⟩ := isName_cons named
    exact letters
  · intro letters
    rcases isPluralSelector_cases known with ⟨category, rfl⟩ | ⟨written, spelled⟩
    · cases category <;> decide
    · rw [spelled] at letters
      rw [isName, spelled]
      simpa [show Text.isBlank '=' = false by decide] using letters

/-- The options of a message text that is read as one choice. -/
theorem readOptions_of_parse {source : String} {choices : List (String × Pattern)}
    (known : ∀ pair ∈ pairs, isPluralSelector pair.1 = true)
    (read : parse (written pairs) = .ok [.plural argumentName source choices 0 false]) :
    ∃ rest, readOptions true (optionsText pairs ++ ['}']) = .ok (choices, rest) := by
  have argument := readArgument_variations known []
  rw [List.append_nil] at argument
  rw [parse_eq_ok, readParts_written, argument] at read
  simp only [bind_eq_ok, Prod.exists] at read
  obtain ⟨part, after, ⟨own, rest, options, last, -, built⟩, more, final, -, done⟩ := read
  cases built
  cases done
  exact ⟨rest, options⟩

/-- Selectors that are read whole, and texts that leave no quotation open. -/
def StandApart (pairs : Dictionary String String) : Prop :=
  ∀ pair ∈ pairs, (∀ c ∈ pair.1.toList, endsName c = false) ∧ isClosed pair.2 = true

/-- The one choice of variations, each text with the body that it has alone. -/
def choiceOf (pairs : Dictionary String String) : Pattern :=
  [.plural argumentName (textual pairs).message
    (pairs.map fun pair => (pair.1, bodyOf pair.2)) 0 false]

theorem standApart_of_parse (known : ∀ pair ∈ pairs, isPluralSelector pair.1 = true)
    (unbraced : ∀ pair ∈ pairs, isUnbraced pair.2 = true)
    (read : parse (textual pairs).message = .ok (choiceOf pairs)) : StandApart pairs := by
  rw [message_textual] at read
  obtain ⟨rest, options⟩ := readOptions_of_parse known read
  have named : ∀ pair ∈ pairs, isName pair.1 = true := fun pair member =>
    isName_of_readsOptions (readOptions_eq_ok.mp options) _ (List.mem_map_of_mem member)
  have closed := isClosed_of_readOptions named unbraced options (List.length_map _)
  exact fun pair member =>
    ⟨(isName_iff (known pair member)).mp (named pair member), closed pair member⟩

theorem parse_of_standApart (given : pairs ≠ [])
    (known : ∀ pair ∈ pairs, isPluralSelector pair.1 = true)
    (unbraced : ∀ pair ∈ pairs, isUnbraced pair.2 = true) (apart : StandApart pairs) :
    parse (textual pairs).message = .ok (choiceOf pairs) := by
  rw [choiceOf, message_textual]
  refine parse_written bodyOf given (fun pair member => ⟨known pair member, ?_⟩)
    fun pair member => ?_
  · exact (isName_iff (known pair member)).mpr (apart pair member).1
  · exact readsAs_bodyOf (unbraced pair member) (apart pair member).2

/-- The message text of variations without braces is read as one choice with their selectors and
the bodies that their texts have alone, if and only if no selector has a character at which names
end and no text leaves a quotation open. -/
theorem parse_message_iff (given : pairs ≠ [])
    (known : ∀ pair ∈ pairs, isPluralSelector pair.1 = true)
    (unbraced : ∀ pair ∈ pairs, isUnbraced pair.2 = true) :
    (∀ pair ∈ pairs, readParts true pair.2.toList = .ok (bodyOf pair.2, [])) ∧
      (parse (textual pairs).message = .ok (choiceOf pairs) ↔ StandApart pairs) :=
  ⟨fun pair member => (ends_bodyOf (unbraced pair member)).alone,
    standApart_of_parse known unbraced, parse_of_standApart given known unbraced⟩

/-- Quotations, pounds and doubled apostrophes that end inside their texts. -/
def dogs : Dictionary String String :=
  [("=0", "no dog's '#'"), ("=1.50", "'#''' and #"), ("other", "the dogs''")]

theorem parse_message_dogs :
    (∀ pair ∈ dogs, isPluralSelector pair.1 = true) ∧
      (∀ pair ∈ dogs, isUnbraced pair.2 = true) ∧ StandApart dogs ∧
      parse (textual dogs).message = .ok (choiceOf dogs) := by
  have known : ∀ pair ∈ dogs, isPluralSelector pair.1 = true := by decide +kernel
  have unbraced : ∀ pair ∈ dogs, isUnbraced pair.2 = true := by decide +kernel
  have apart : StandApart dogs := by
    intro pair member
    have all : (dogs.all fun pair => pair.1.toList.all (!endsName ·) && isClosed pair.2) = true :=
      by decide +kernel
    simpa using List.all_eq_true.mp all pair member
  exact ⟨known, unbraced, apart,
    (parse_message_iff (by decide) known unbraced).2.mpr apart⟩

/-- Two texts that end with an apostrophe. -/
def bones : Dictionary String String := [("one", "the dog'"), ("other", "the dogs'")]

/-- An exact selector with a space behind its number. -/
def spaced : Dictionary String String := [("=1 ", "a dog")]

/-- An apostrophe at the end of a text, or a space in a selector, is enough to break a choice. -/
theorem parse_message_broken :
    ((∀ pair ∈ bones, isPluralSelector pair.1 = true ∧ isUnbraced pair.2 = true) ∧
      parse (textual bones).message ≠ .ok (choiceOf bones)) ∧
    (∀ pair ∈ spaced, isPluralSelector pair.1 = true ∧ isUnbraced pair.2 = true) ∧
      parse (textual spaced).message ≠ .ok (choiceOf spaced) := by
  have inBones : ∀ pair ∈ bones, isPluralSelector pair.1 = true ∧ isUnbraced pair.2 = true := by
    decide +kernel
  have inSpaced : ∀ pair ∈ spaced, isPluralSelector pair.1 = true ∧ isUnbraced pair.2 = true := by
    decide +kernel
  refine ⟨⟨inBones, fun read => ?_⟩, inSpaced, fun read => ?_⟩
  · have apart := standApart_of_parse (fun pair member => (inBones pair member).1)
      (fun pair member => (inBones pair member).2) read
    exact absurd (apart ("one", "the dog'") (by simp [bones])).2 (by decide)
  · have apart := standApart_of_parse (fun pair member => (inSpaced pair member).1)
      (fun pair member => (inSpaced pair member).2) read
    exact absurd ((apart ("=1 ", "a dog") (by simp [spaced])).1 ' ' (by decide)) (by decide)

end Variations

end Phrasebook.Plural

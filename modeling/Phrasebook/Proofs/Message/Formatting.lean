import Phrasebook.Plural.Locale
import Phrasebook.Proofs.Message.Demand
import Phrasebook.Proofs.Plural.Category
import Phrasebook.Proofs.Plural.Exact
import Phrasebook.Proofs.Message.Plain
import Phrasebook.Proofs.Message.RoundTrip

set_option autoImplicit false

/-!
What formatting a text gives, for all texts and values. It reports a text that is no message and a
value that is no number, and it renders everything else, unless an offset is refused or a number
cannot be written, compared, lessened or given a category. None of these happens where offsets have
few digits, whole numbers can be written, and plural choices are between finite numbers of
moderate size.
-/
namespace Phrasebook

open Number (Fault Decimal)
open Outcome (ok_bind error_bind)

/-! ### Values as numbers -/

/-- A value that a plural choice can be given. -/
def Value.isCountable (value : Value) : Bool :=
  value.number?.isSome || (Decimal.read? value.shown.toList).isSome

namespace Message

open Plural

theorem numberOf_error_iff {name : String} {value : Value} {failure : RenderFailure} :
    numberOf name value = .error failure ↔
      value.isCountable = false ∧ failure = .notANumber name value := by
  rw [numberOf, Value.isCountable]
  cases value.number? with
  | some number => simp
  | none => cases Decimal.read? value.shown.toList <;> simp [eq_comm]

/-! ### Calm choices -/

/-- A choice between comparable selectors for a finite number that is finite and short less the
offset too. -/
structure Calm (selectors : List String) (number : Number) (offset : Nat) : Prop where
  comparable : ∀ selector ∈ selectors, isComparable selector = true
  finite : number.isFinite = true
  shifted : ∃ less, shift number offset = .ok less ∧ less.isFinite = true ∧ isShort less = true

theorem pluralChoice_of_calm [Rules] (areCoarse : Rules.AreCoarse) {selectors : List String}
    {number : Number} {offset : Nat} (calm : Calm selectors number offset) (locale : Option String)
    (ordinal : Bool) :
    ∃ place less, pluralChoice selectors number offset locale ordinal = .ok (place, less) ∧
      less.isFinite = true := by
  obtain ⟨exact, tested⟩ := exactPlace_of_areComparable calm.comparable calm.finite
  obtain ⟨less, shifted, finite, short⟩ := calm.shifted
  obtain ⟨category, known⟩ := category_of_isShort areCoarse finite short locale ordinal
  rw [pluralChoice, tested, ok_bind, shifted, ok_bind]
  cases exact with
  | some index => exact ⟨some index, less, rfl, finite⟩
  | none =>
    simp only [categoryPlace, known, ok_bind]
    exact ⟨_, less, rfl, finite⟩

/-! ### The numbers of pound signs -/

section Rendering

variable [Rules] {values : Values} {locale : Option String} {pound outer : Option Number}
  {pattern whole : Pattern} {number : Number}

/-- Rendering comes to a plural choice that shows a number to the option it takes. -/
inductive Chooses (values : Values) (locale : Option String) (pound : Option Number)
    (pattern : Pattern) (shown : Number) : Prop where
  | intro {name : String} {value : Value} {selectors : List String} {offset : Nat}
      {ordinal : Bool} {number : Number} {place : Option Nat}
      (asked : Asks values locale pound pattern (.choice name value selectors offset ordinal))
      (counted : numberOf name value = .ok number)
      (taken : pluralChoice selectors number offset locale ordinal = .ok (place, shown)) :
    Chooses values locale pound pattern shown

theorem Chooses.within (chooses : Chooses values locale pound pattern number)
    (asks : ∀ demand, Asks values locale pound pattern demand →
      Asks values locale outer whole demand) : Chooses values locale outer whole number := by
  cases chooses with
  | intro asked counted taken => exact .intro (asks _ asked) counted taken

/-- The number of a pound sign is the one around the pattern, or one that a choice shows. -/
theorem pound_of_asks (asked : Asks values locale pound pattern (.pound number)) :
    pound = some number ∨ Chooses values locale pound pattern number := by
  generalize same : Demand.pound number = demand at asked
  induction asked with
  | pound => cases same; exact .inl rfl
  | argument given => cases same
  | select given => cases same
  | choice given => cases same
  | selected given written taken option inner ih =>
    rcases ih same with around | chooses
    · exact .inl around
    · exact .inr (chooses.within fun _ asked => .selected given written taken option asked)
  | chosen given counted taken option inner ih =>
    rcases ih same with around | chooses
    · cases around
      exact .inr (.intro (.choice given) counted taken)
    · exact .inr (chooses.within fun _ asked => .chosen given counted taken option asked)
  | later shown inner ih =>
    rcases ih same with around | chooses
    · exact .inl around
    · exact .inr (chooses.within fun _ asked => .later shown asked)

end Rendering

/-! ### Formatting -/

section Formatting

variable [Rules] (text : String) (values : Values) (locale : Option String)

/-- What formatting does not turn into a warning: an offset that is refused, and a fault of what
rendering comes to. -/
inductive Escapes : Escape → Prop where
  | offset {error : SyntaxError} (stuck : parse text = .error error)
      (refused : error.isReported = false) : Escapes .offsetNotDecimal
  | fault {pattern : Pattern} {demand : Demand} {fault : Fault} (read : parse text = .ok pattern)
      (asked : Asks values locale none pattern demand)
      (fails : demand.Fails locale (.fault fault)) : Escapes (.fault fault)

/-- A text that is no message is shown as it is with one warning, and so is one in which rendering
comes to a plural choice for a value that is no number; any other one is rendered without a
warning. -/
structure Returns (outcome : Except Escape Formatted) : Prop where
  unreadable : ∀ error, parse text = .error error →
    outcome = .ok ⟨text, some (.unreadable error)⟩
  uncounted : ∀ pattern name value selectors offset ordinal, parse text = .ok pattern →
    Asks values locale none pattern (.choice name value selectors offset ordinal) →
    value.isCountable = false → outcome = .ok ⟨text, some (.notANumber name value)⟩
  rendered : ∀ pattern, parse text = .ok pattern →
    (∀ name value selectors offset ordinal,
      Asks values locale none pattern (.choice name value selectors offset ordinal) →
      value.isCountable = true) →
    ∃ rendered, renderParts values locale none pattern = .ok rendered ∧
      outcome = .ok ⟨rendered, none⟩

/-- No offset is refused, and what rendering comes to are values that can be written and calm
choices. -/
structure Steady : Prop where
  offsets : ∀ error, parse text = .error error → error.isReported = true
  written : ∀ pattern number, parse text = .ok pattern →
    Asks values locale none pattern (.text (.number number)) → number.isWritable = true
  calm : ∀ pattern name value selectors offset ordinal number, parse text = .ok pattern →
    Asks values locale none pattern (.choice name value selectors offset ordinal) →
    numberOf name value = .ok number → Calm selectors number offset

end Formatting

section Formatting

variable [Rules] {text : String} {values : Values} {locale : Option String}

theorem formatPattern_error_iff {pattern : Pattern} {escape : Escape} :
    formatPattern text pattern values locale = .error escape ↔
      ∃ fault, escape = .fault fault ∧
        renderParts values locale none pattern = .error (.fault fault) := by
  rw [formatPattern]
  cases renderParts values locale none pattern with
  | ok rendered => simp
  | error failure =>
    cases failure with
    | notANumber name value => simp
    | fault fault => simp [eq_comm]

theorem format_error_iff {escape : Escape} :
    format text values locale = .error escape ↔ Escapes text values locale escape := by
  rw [format_eq]
  cases read : parse text with
  | ok pattern =>
    rw [formatPattern_error_iff]
    constructor
    · rintro ⟨fault, rfl, failed⟩
      obtain ⟨demand, asked, fails⟩ := renderParts_error_iff.mp failed
      exact .fault read asked fails
    · intro escapes
      cases escapes with
      | offset stuck refused => cases read.symm.trans stuck
      | fault known asked fails =>
        cases read.symm.trans known
        exact ⟨_, rfl, renderParts_of_asks asked fails⟩
  | error error =>
    have stuck : Escapes text values locale escape ↔
        escape = .offsetNotDecimal ∧ error.isReported = false := by
      constructor
      · intro escapes
        cases escapes with
        | offset stuck refused =>
          cases read.symm.trans stuck
          exact ⟨rfl, refused⟩
        | fault known asked fails => cases read.symm.trans known
      · rintro ⟨rfl, refused⟩
        exact .offset read refused
    rw [stuck]
    cases reported : error.isReported with
    | true => simp [reported]
    | false => simpa [reported] using eq_comm

/-- A demand for a number that is not met is one for a value that is no number. -/
theorem fails_notANumber_iff {demand : Demand} {name : String} {value : Value} :
    demand.Fails locale (.notANumber name value) ↔
      value.isCountable = false ∧
        ∃ selectors offset ordinal, demand = .choice name value selectors offset ordinal := by
  constructor
  · intro fails
    cases fails with
    | uncounted uncounted =>
      obtain ⟨uncountable, same⟩ := numberOf_error_iff.mp uncounted
      cases same
      exact ⟨uncountable, _, _, _, rfl⟩
  · rintro ⟨uncountable, selectors, offset, ordinal, rfl⟩
    exact .uncounted (numberOf_error_iff.mpr ⟨uncountable, rfl⟩)

/-- Where nothing escapes, formatting returns what it is to return. -/
theorem returns_of_not_escapes (held : ∀ escape, ¬ Escapes text values locale escape) :
    Returns text values locale (format text values locale) := by
  refine ⟨?_, ?_, ?_⟩
  · intro error stuck
    have reported : error.isReported = true := by
      cases reported : error.isReported with
      | true => rfl
      | false => exact absurd (.offset stuck reported) (held _)
    rw [format_eq, stuck]
    simp only [reported, if_pos]
  · intro pattern name value selectors offset ordinal read asked uncountable
    have failed := renderParts_of_asks asked
      (fails_notANumber_iff.mpr ⟨uncountable, selectors, offset, ordinal, rfl⟩)
    rw [format_eq, read]
    simp only [formatPattern, failed]
  · intro pattern read countable
    cases outcome : renderParts values locale none pattern with
    | ok rendered =>
      refine ⟨rendered, rfl, ?_⟩
      rw [format_eq, read]
      simp only [formatPattern, outcome]
    | error failure =>
      obtain ⟨demand, asked, fails⟩ := renderParts_error_iff.mp outcome
      cases failure with
      | fault fault => exact absurd (.fault read asked fails) (held _)
      | notANumber name value =>
        obtain ⟨uncountable, selectors, offset, ordinal, rfl⟩ := fails_notANumber_iff.mp fails
        cases (countable _ _ _ _ _ asked).symm.trans uncountable

theorem not_escapes_of_steady (areCoarse : Rules.AreCoarse) (steady : Steady text values locale)
    (escape : Escape) : ¬ Escapes text values locale escape := by
  intro escapes
  cases escapes with
  | offset stuck refused => cases (steady.offsets _ stuck).symm.trans refused
  | @fault pattern demand fault read asked fails =>
    cases fails with
    | @text value _ unwritten =>
      cases value with
      | number number =>
        have writable := steady.written pattern number read asked
        rw [Value.written, Number.written_of_isWritable writable] at unwritten
        cases unwritten
      | _ => cases unwritten
    | @pound number _ unwritten =>
      rcases pound_of_asks asked with around | @⟨_, _, _, _, ordinal, _, _, chosen, known, taken⟩
      · cases around
      · obtain ⟨_, less, settled, finite⟩ := pluralChoice_of_calm areCoarse
          (steady.calm _ _ _ _ _ ordinal _ read chosen known) locale ordinal
        cases taken.symm.trans settled
        rw [Number.plainWritten, if_pos (Number.isWritable_of_isFinite finite)] at unwritten
        cases unwritten
    | uncounted uncounted => cases (numberOf_error_iff.mp uncounted).2
    | @choice _ _ _ _ _ ordinal _ counted undecided =>
      obtain ⟨_, less, settled, -⟩ := pluralChoice_of_calm areCoarse
        (steady.calm _ _ _ _ _ ordinal _ read asked counted) locale ordinal
      cases undecided.symm.trans settled

end Formatting

/-- Formatting fails exactly over a refused offset or a fault of what rendering comes to, and
returns the text with a warning or its rendering without one otherwise; under coarse rules a steady
text never fails. -/
theorem format_returns [Rules] (text : String) (values : Values) (locale : Option String) :
    (∀ escape, format text values locale = .error escape ↔ Escapes text values locale escape) ∧
      ((∀ escape, ¬ Escapes text values locale escape) →
        Returns text values locale (format text values locale)) ∧
      (Rules.AreCoarse → Steady text values locale →
        ∀ escape, ¬ Escapes text values locale escape) :=
  ⟨fun _ => format_error_iff, returns_of_not_escapes, not_escapes_of_steady⟩

/-! ### Guests without their host -/

def guests : String := "\x7bn, plural, offset:1 =0 \x7bnobody\x7d other \x7b# guests\x7d\x7d"

def guestCount : Pattern :=
  [.plural "n" guests [("=0", [.literal "nobody"]), ("other", [.pound, .literal " guests"])] 1
    false]

theorem parse_guests : parse guests = .ok guestCount := by
  have text : printed guestCount = guests := by decide +kernel
  have whole : parse (printed guestCount) = .ok (Pattern.sourced false guestCount) :=
    parse_printed_of_fits (by decide) (by decide)
  have sourced : Pattern.sourced false guestCount =
      [.plural "n" (printed guestCount)
        [("=0", [.literal "nobody"]), ("other", [.pound, .literal " guests"])] 1 false] := rfl
  rw [sourced, text] at whole
  exact whole

/-- Literals and pound signs ask for nothing but the number around them. -/
theorem pound_of_bare [Rules] {values : Values} {locale : Option String} {pound : Option Number}
    {pattern : Pattern} {demand : Demand}
    (bare : ∀ part ∈ pattern, (∃ text, part = .literal text) ∨ part = .pound)
    (asked : Asks values locale pound pattern demand) : ∃ number, demand = .pound number := by
  induction asked with
  | pound => exact ⟨_, rfl⟩
  | later shown inner ih => exact ih fun part member => bare part (by simp [member])
  | _ => simpa using bare _ List.mem_cons_self

theorem asks_guestCount [Rules] {values : Values} {locale : Option String} {demand : Demand}
    (asked : Asks values locale none guestCount demand) :
    (∃ number, demand = .pound number) ∨ ∃ value, values.get? "n" = some value ∧
      demand = .choice "n" value ["=0", "other"] 1 false := by
  cases asked with
  | choice given => exact .inr ⟨_, given, rfl⟩
  | @chosen _ _ _ _ _ _ _ _ body _ _ _ index _ given counted taken option inner =>
    left
    refine pound_of_bare ?_ inner
    match index with
    | 0 =>
      cases option
      simp
    | 1 =>
      cases option
      simp
  | later shown inner => cases inner

theorem steady_guests : Steady guests [("n", .number (.int 3))] (some "en") := by
  refine ⟨?_, ?_, ?_⟩
  · intro error stuck
    cases parse_guests.symm.trans stuck
  · intro pattern number read asked
    cases parse_guests.symm.trans read
    rcases asks_guestCount asked with ⟨_, same⟩ | ⟨_, -, same⟩ <;> cases same
  · intro pattern name value selectors offset ordinal number read asked counted
    cases parse_guests.symm.trans read
    rcases asks_guestCount asked with ⟨_, same⟩ | ⟨_, given, same⟩ <;> cases same
    cases given
    cases counted
    exact ⟨by decide, by decide, .int 2, rfl, by decide, by decide⟩

/-- Three guests, one of whom is not counted. -/
theorem format_guests :
    Rules.AreCoarse ∧ Steady guests [("n", .number (.int 3))] (some "en") ∧
      Returns guests [("n", .number (.int 3))] (some "en")
        (format guests [("n", .number (.int 3))] (some "en")) ∧
      format guests [("n", .number (.int 3))] (some "en") = .ok ⟨"2 guests", none⟩ := by
  obtain ⟨-, returned, held⟩ := format_returns guests [("n", .number (.int 3))] (some "en")
  exact ⟨known_areCoarse, steady_guests, returned (held known_areCoarse steady_guests),
    by decide +kernel⟩

/-- An offset of a digit that is not decimal, and a value that is not a number though it has the
type of one, make formatting fail. -/
theorem format_fails :
    format "\x7bn, plural, offset:² other \x7bx\x7d\x7d" [("n", .number (.int 1))] (some "en") =
        .error .offsetNotDecimal ∧
      format "\x7bn, plural, other \x7bx\x7d\x7d" [("n", .number (.double .nan))] (some "en") =
        .error (.fault .notANumber) :=
  ⟨by decide +kernel, by decide +kernel⟩

end Message

end Phrasebook

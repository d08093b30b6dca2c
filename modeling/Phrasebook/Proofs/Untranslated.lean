import Phrasebook.Plural.Locale
import Phrasebook.Proofs.Plural.Category
import Phrasebook.Proofs.Plural.Choice
import Phrasebook.Proofs.Plural.Message
import Phrasebook.Translate

set_option autoImplicit false

/-!
Plural variations that have no translation. Their message text is built, looked up without a find,
read again and rendered, and what comes out is the text that the plural choice takes, with the
number in place of each pound sign.
-/
namespace Phrasebook

open Message
open Plural
open Number (Fault)
open Outcome (ok_bind error_bind)

/-- Variations all of whose texts are plain and all of whose selectors are categories or exact. -/
def arePlain (pairs : Dictionary String String) : Bool :=
  !pairs.isEmpty && pairs.all fun pair => isSelector pair.1 && isPlain pair.2

/-- Variations of texts. -/
def textual (pairs : Dictionary String String) : Variations :=
  pairs.map fun pair => (.text pair.1, .text pair.2)

/-- A catalog without a translation of variations, or with an empty one. -/
def lacks (translations : Translations) (pairs : Dictionary String String) : Prop :=
  ∀ translation, translations.get? (identifier (written pairs) none) = some translation →
    translation = ""

theorem arePlain_spec {pairs : Dictionary String String} (plain : arePlain pairs = true) :
    pairs ≠ [] ∧ (∀ pair ∈ pairs, isSelector pair.1 = true) ∧
      ∀ pair ∈ pairs, isPlain pair.2 = true := by
  simp only [arePlain, Bool.and_eq_true, Bool.not_eq_true', List.isEmpty_eq_false_iff,
    List.all_eq_true] at plain
  exact ⟨plain.1, fun pair member => (plain.2 pair member).1,
    fun pair member => (plain.2 pair member).2⟩

theorem message_textual (pairs : Dictionary String String) :
    (textual pairs).message = written pairs := by
  have same : (pairs.map fun pair => ((Value.text pair.1).shown, (Value.text pair.2).shown)) =
      pairs := List.map_id pairs
  rw [textual, Variations.message, List.map_map]
  exact congrArg written same

/-- Without a translation, or with an empty one, a message stands for itself. -/
theorem lookup_eq_self {message : String} {context : Option String} {translations : Translations}
    (untranslated : ∀ translation,
      translations.get? (identifier message context) = some translation → translation = "") :
    lookup message context translations = message := by
  rw [lookup]
  split
  · rename_i translation found
    rw [untranslated translation found]
    rfl
  · rfl

/-- Formatting the message text of plain variations gives what the choice shows, without a
warning, or fails as the choice does. -/
theorem format_written [Rules] {pairs : Dictionary String String} {value : Value} {number : Number}
    (locale : String) (plain : arePlain pairs = true) (counted : value.number? = some number)
    (finite : number.isFinite = true) :
    Message.format (written pairs) [(argumentName, value)] (some locale) =
      match shownChoice number pairs locale with
      | .ok text => .ok ⟨text, none⟩
      | .error fault => .error (.fault fault) := by
  obtain ⟨given, named, texts⟩ := arePlain_spec plain
  have parsed : parse (written pairs) =
      .ok [.plural argumentName (written pairs) (plainOptions pairs) 0 false] :=
    parse_written (fun text => plainBody text.toList) given
      (fun pair member => ⟨isPluralSelector_of_isSelector (named pair member),
        isName_of_isSelector (named pair member)⟩)
      fun pair member => readsAs_of_isPlain (texts pair member)
  have rendered := renderParts_choice locale (written pairs) counted finite named
  rw [format_eq, parsed]
  dsimp only
  rw [formatPattern, rendered]
  cases shownChoice number pairs locale with
  | ok text => rfl
  | error fault => rfl

theorem translate_of_number? [Rules] {variations : Variations} {value : Value} {number : Number}
    (locale : String) (translations : Translations) (counted : value.number? = some number) :
    translate (.plural variations) locale translations value =
      formatted (lookup variations.message none translations) [(argumentName, value)] locale := by
  cases value with
  | text s => simp [Value.number?] at counted
  | none => simp [Value.number?] at counted
  | bool b => rfl
  | number n => rfl

theorem translatePlural_textual [Rules] {pairs : Dictionary String String} {value : Value}
    {number : Number} (locale : String) {translations : Translations}
    (plain : arePlain pairs = true) (counted : value.number? = some number)
    (finite : number.isFinite = true) (untranslated : lacks translations pairs) :
    translatePlural value (textual pairs) locale translations =
      match shownChoice number pairs locale with
      | .ok text => .ok ⟨text, none⟩
      | .error fault => .error (.escape (.fault fault)) := by
  have given : (textual pairs).isEmpty = false := by
    have given := (arePlain_spec plain).1
    simpa [textual] using given
  have stated : (Descriptor.ofVariations (textual pairs)).mapError TranslateFailure.descriptor =
      .ok (.plural (textual pairs)) := by
    rw [Descriptor.ofVariations, given]
    rfl
  have shown := format_written locale plain counted finite
  rw [translatePlural, stated, ok_bind, translate_of_number? locale translations counted,
    message_textual, lookup_eq_self untranslated, formatted, shown]
  cases shownChoice number pairs locale with
  | ok text => rfl
  | error fault => rfl

/-- A choice with an exact selector for the number, or by coarse rules for a short number, is always
shown. -/
theorem shownChoice_ok [Rules] {number : Number} {pairs : Dictionary String String} (locale : String)
    (finite : number.isFinite = true)
    (settled : (exactText? number pairs).isSome = true ∨
      Rules.AreCoarse ∧ isShort number = true) :
    ∃ text, shownChoice number pairs locale = .ok text := by
  rw [shownChoice]
  cases exact : exactText? number pairs with
  | some text => exact ⟨_, rfl⟩
  | none =>
    rw [exact] at settled
    obtain ⟨areCoarse, short⟩ := settled.resolve_left (by decide)
    obtain ⟨category, found⟩ := category_of_isShort areCoarse finite short (some locale) false
    rw [found]
    exact ⟨_, rfl⟩

/-- Untranslated variations of plain texts show what the choice between the texts takes, without a
warning. Only the plural category can fail, and never for a number that an exact selector names, nor
for a short one under coarse rules. -/
theorem translatePlural_untranslated [Rules] {pairs : Dictionary String String} {value : Value}
    {number : Number} (locale : String) {translations : Translations}
    (plain : arePlain pairs = true) (counted : value.number? = some number)
    (finite : number.isFinite = true) (untranslated : lacks translations pairs) :
    (∀ text, shownChoice number pairs locale = .ok text →
      translatePlural value (textual pairs) locale translations = .ok ⟨text, none⟩) ∧
    (∀ fault, shownChoice number pairs locale = .error fault →
      translatePlural value (textual pairs) locale translations =
        .error (.escape (.fault fault))) ∧
    ((exactText? number pairs).isSome = true ∨ Rules.AreCoarse ∧ isShort number = true →
      ∃ text, shownChoice number pairs locale = .ok text) := by
  have whole := translatePlural_textual locale plain counted finite untranslated
  refine ⟨?_, ?_, shownChoice_ok locale finite⟩
  · intro text shown
    rw [whole, shown]
  · intro fault failed
    rw [whole, failed]

/-! ### Counting apples -/

/-- Variations with an exact selector among the categories. -/
def apples : Dictionary String String :=
  [("=0", "no apples"), ("one", "# apple"), ("other", "# apples")]

def twoAndAHalf : Number := .decimal (.finite false 25 (-1))

theorem exactValue?_category (category : Category) : exactValue? category.text = none := by
  rw [exactValue?, exactNumber?_category, Option.bind_none]

/-- Among categories no selector is exact. -/
theorem exactText?_of_categories (number : Number) {pairs : Dictionary String String}
    (categories : ∀ pair ∈ pairs, ∃ category ∈ Category.all, category.text = pair.1) :
    exactText? number pairs = none := by
  rw [exactText?, Option.map_eq_none_iff, List.find?_eq_none]
  intro pair member
  obtain ⟨category, -, text⟩ := categories pair member
  simp [← text, exactValue?_category]

theorem exactText?_apples : exactText? twoAndAHalf apples = none := by
  have zero : exactNumber? "=0" = some (.finite false 0 0) := by decide
  have apart : twoAndAHalf.value ≠ 0 := by
    simp [twoAndAHalf, Number.value, Number.Decimal.valueOf_eq_zero_iff]
  have first : exactValue? "=0" ≠ some twoAndAHalf.value := by
    rw [exactValue?, zero, Option.bind_some, Number.Decimal.value?, Number.valueOf_zero]
    simpa using apart.symm
  have later : exactText? twoAndAHalf [("one", "# apple"), ("other", "# apples")] = none :=
    exactText?_of_categories _ (by decide)
  rw [exactText?, apples, List.find?_cons, decide_eq_false first]
  exact later

theorem shownChoice_apples : shownChoice twoAndAHalf apples "en" = .ok "2.5 apples" := by
  have known : category twoAndAHalf (some "en") false = .ok .other := by decide +kernel
  rw [shownChoice, exactText?_apples, known]
  decide

/-- Two and a half apples, with a catalog that has nothing. -/
theorem translatePlural_apples :
    Rules.AreCoarse ∧ arePlain apples = true ∧
      Value.number? (.number twoAndAHalf) = some twoAndAHalf ∧ twoAndAHalf.isFinite = true ∧
      isShort twoAndAHalf = true ∧ lacks [] apples ∧
      (∃ text, shownChoice twoAndAHalf apples "en" = .ok text) ∧
      translatePlural (.number twoAndAHalf) (textual apples) "en" [] =
        .ok ⟨"2.5 apples", none⟩ := by
  have plain : arePlain apples = true := by decide
  have finite : twoAndAHalf.isFinite = true := by decide
  have short : isShort twoAndAHalf = true := by decide
  have untranslated : lacks [] apples := fun _ found => by cases found
  have counted : Value.number? (.number twoAndAHalf) = some twoAndAHalf := rfl
  obtain ⟨shows, -, shown⟩ := translatePlural_untranslated "en" plain counted finite untranslated
  exact ⟨known_areCoarse, plain, counted, finite, short, untranslated,
    shown (.inr ⟨known_areCoarse, short⟩), shows _ shownChoice_apples⟩

/-! ### A number of too many digits -/

def twoForms : Dictionary String String := [("one", "x"), ("other", "y")]

def tenToForty : Number := .decimal (.finite false 1 40)

theorem category_tenToForty : category tenToForty (some "ar") false = .error .invalidOperation := by
  decide +kernel

/-- Arabic asks for the remainder of a number by a hundred, which one of forty digits has not. -/
theorem translatePlural_tenToForty :
    arePlain twoForms = true ∧ tenToForty.isFinite = true ∧ lacks [] twoForms ∧
      translatePlural (.number tenToForty) (textual twoForms) "ar" [] =
        .error (.escape (.fault .invalidOperation)) := by
  have plain : arePlain twoForms = true := by decide
  have finite : tenToForty.isFinite = true := by decide
  have untranslated : lacks [] twoForms := fun _ found => by cases found
  have failed : shownChoice tenToForty twoForms "ar" = .error .invalidOperation := by
    have inexact : exactText? tenToForty twoForms = none :=
      exactText?_of_categories _ (by decide)
    rw [shownChoice, inexact, category_tenToForty]
    rfl
  refine ⟨plain, finite, untranslated, ?_⟩
  rw [translatePlural_textual "ar" plain rfl finite untranslated, failed]

end Phrasebook

import Phrasebook.Message.Render
import Phrasebook.Plural.Selector
import Phrasebook.Proofs.Message.Plain
import Phrasebook.Proofs.Plural.Exact

set_option autoImplicit false

/-!
Which text a plural choice takes: that of the first exact selector that names the number, else that
of the category of the number, else that of the last category, else none.
-/
namespace Phrasebook.Plural

open Number (Fault)
open Message
open Outcome (ok_bind)

/-- The text of the first exact selector that names the value of a number. -/
def exactText? (number : Number) (pairs : Dictionary String String) : Option String :=
  (pairs.find? fun pair => decide (exactValue? pair.1 = some number.value)).map (·.2)

/-- The text of a category, else that of the last category, else the empty text. -/
def categoryText (category : Category) (pairs : Dictionary String String) : String :=
  ((pairs.get? category.text).or (pairs.get? Category.other.text)).getD ""

/-- What a choice shows for a number: the text that it takes, with the number in it. Without an
exact selector for the number it fails where the number has no category. -/
def shownChoice [Rules] (number : Number) (pairs : Dictionary String String) (locale : String) :
    Except Fault String :=
  match exactText? number pairs with
  | some text => .ok (withNumber number.plainText text)
  | none => do
    let category ← category number (some locale) false
    .ok (withNumber number.plainText (categoryText category pairs))

section Places

variable {values : Values} {locale : Option String} {number : Number}

/-- The options of plain texts. -/
def plainOptions (pairs : Dictionary String String) : List (String × Pattern) :=
  pairs.map fun pair => (pair.1, plainBody pair.2.toList)

theorem selectors_plainOptions (pairs : Dictionary String String) :
    (plainOptions pairs).map (·.1) = pairs.map (·.1) := by
  simp [plainOptions]

/-- The option at the place of a selector shows the text of the selector. -/
theorem renderOption_of_findIdx? [Rules] (writable : number.isWritable = true)
    {test : String → Bool} {pairs : Dictionary String String} {index : Nat}
    (placed : (pairs.map (·.1)).findIdx? test = some index) :
    ∃ text, (pairs.find? fun pair => test pair.1).map (·.2) = some text ∧
      renderOption values locale (some number) index (plainOptions pairs) =
        .ok (withNumber number.plainText text) := by
  induction pairs generalizing index with
  | nil => simp at placed
  | cons pair rest ih =>
    rw [List.map_cons, List.findIdx?_cons] at placed
    rw [List.find?_cons]
    cases hit : test pair.1 with
    | true =>
      rw [hit, if_pos rfl] at placed
      obtain rfl := Option.some.inj placed
      have shown := renderParts_plainBody values locale writable pair.2.toList
      rw [String.ofList_toList] at shown
      exact ⟨pair.2, rfl, shown⟩
    | false =>
      rw [hit, if_neg (by decide)] at placed
      obtain ⟨before, earlier, rfl⟩ := Option.map_eq_some_iff.mp placed
      exact ih earlier

theorem find?_of_findIdx? {test : String → Bool} {pairs : Dictionary String String}
    (absent : (pairs.map (·.1)).findIdx? test = none) :
    (pairs.find? fun pair => test pair.1).map (·.2) = none := by
  rw [List.findIdx?_eq_none_iff] at absent
  rw [Option.map_eq_none_iff, List.find?_eq_none]
  intro pair member
  simpa using absent pair.1 (List.mem_map_of_mem member)

/-- The text of a key is that of the first selector that is the key. -/
theorem get?_eq_find? (key : String) (pairs : Dictionary String String) :
    pairs.get? key = (pairs.find? fun pair => pair.1 == key).map (·.2) := by
  induction pairs with
  | nil => rfl
  | cons pair rest ih =>
    rw [Dictionary.get?, List.lookup_cons, List.find?_cons, BEq.comm]
    cases pair.1 == key with
    | true => rfl
    | false => exact ih

/-- Where a category has no option the last category is tried, and then nothing is shown. -/
theorem renderOption_category [Rules] (writable : number.isWritable = true) (category : Category)
    (pairs : Dictionary String String) :
    (match (place category.text (pairs.map (·.1))).or
        (place Category.other.text (pairs.map (·.1))) with
      | some index => renderOption values locale (some number) index (plainOptions pairs)
      | none => .ok "") = .ok (withNumber number.plainText (categoryText category pairs)) := by
  rw [categoryText, get?_eq_find?, get?_eq_find?]
  cases own : place category.text (pairs.map (·.1)) with
  | some index =>
    obtain ⟨text, found, shown⟩ := renderOption_of_findIdx? writable own
    rw [found]
    exact shown
  | none =>
    rw [find?_of_findIdx? own, Option.none_or, Option.none_or]
    cases last : place Category.other.text (pairs.map (·.1)) with
    | some index =>
      obtain ⟨text, found, shown⟩ := renderOption_of_findIdx? writable last
      rw [found]
      exact shown
    | none =>
      rw [find?_of_findIdx? last]
      rfl

end Places

/-! ### The whole choice -/

theorem exactPlace_selectors {number : Number} {pairs : Dictionary String String}
    (finite : number.isFinite = true) (named : ∀ pair ∈ pairs, isSelector pair.1 = true) :
    exactPlace number (pairs.map (·.1)) =
      .ok ((pairs.map (·.1)).findIdx? fun selector =>
        decide (exactValue? selector = some number.value)) := by
  apply exactPlace_of_isFinite finite
  intro selector member
  obtain ⟨pair, inside, rfl⟩ := List.mem_map.mp member
  exact named pair inside

theorem pluralChoice_exact [Rules] {number : Number} {pairs : Dictionary String String}
    {locale : String} (finite : number.isFinite = true)
    (named : ∀ pair ∈ pairs, isSelector pair.1 = true) {index : Nat} (placed : (pairs.map (·.1)).findIdx? (fun selector =>
      decide (exactValue? selector = some number.value)) = some index) :
    pluralChoice (pairs.map (·.1)) number 0 (some locale) false = .ok (some index, number) := by
  rw [pluralChoice, exactPlace_selectors finite named, placed, ok_bind]
  rfl

theorem pluralChoice_category [Rules] {number : Number} {pairs : Dictionary String String}
    {locale : String} (finite : number.isFinite = true)
    (named : ∀ pair ∈ pairs, isSelector pair.1 = true)
    (absent : (pairs.map (·.1)).findIdx? (fun selector =>
      decide (exactValue? selector = some number.value)) = none) :
    pluralChoice (pairs.map (·.1)) number 0 (some locale) false = (do
      let category ← category number (some locale) false
      .ok ((place category.text (pairs.map (·.1))).or
        (place Category.other.text (pairs.map (·.1))), number)) := by
  rw [pluralChoice, exactPlace_selectors finite named, absent, ok_bind, shift, if_pos rfl, ok_bind]
  simp only [categoryPlace]
  cases category number (some locale) false with
  | ok category => rfl
  | error fault => rfl

/-- A choice between plain texts is shown as the choice says, or fails as the category does. -/
theorem renderParts_choice [Rules] {number : Number} {value : Value}
    {pairs : Dictionary String String} (locale source : String)
    (counted : value.number? = some number) (finite : number.isFinite = true) (named : ∀ pair ∈ pairs, isSelector pair.1 = true) :
    renderParts [(argumentName, value)] (some locale) none
        [.plural argumentName source (plainOptions pairs) 0 false] =
      (shownChoice number pairs locale).mapError .fault := by
  have given : Dictionary.get? argumentName [(argumentName, value)] = some value := by
    simp [Dictionary.get?]
  have number' : numberOf argumentName value = .ok number := by simp [numberOf, counted]
  have writable := Number.isWritable_of_isFinite finite
  have alone : ∀ outcome : Except RenderFailure String, (do
      let text ← outcome
      .ok (text ++ "")) = outcome := by
    intro outcome
    cases outcome with
    | ok text => simp
    | error failure => rfl
  rw [renderParts, renderPart]
  simp only [given, number', ok_bind, selectors_plainOptions, renderParts]
  refine (alone _).trans ?_
  rw [shownChoice, exactText?]
  cases placed : (pairs.map (·.1)).findIdx? (fun selector =>
      decide (exactValue? selector = some number.value)) with
  | some index =>
    obtain ⟨text, found, shown⟩ := renderOption_of_findIdx? writable placed
    rw [pluralChoice_exact finite named placed, found]
    exact shown
  | none =>
    rw [pluralChoice_category finite named placed, find?_of_findIdx? placed]
    cases category number (some locale) false with
    | error fault => rfl
    | ok category => exact renderOption_category writable category pairs

end Phrasebook.Plural

import Phrasebook.Message.Render
import Phrasebook.Proofs.Message.Written
import Phrasebook.Proofs.Number.Grammar
import Phrasebook.Proofs.Number.Shortest
import Phrasebook.Proofs.Outcome

set_option autoImplicit false

/-!
Exact selectors compare values: a selector names a finite number exactly when the values of both
are equal, in whatever way the two are written.
-/
namespace Phrasebook.Plural

open Number (Fault Decimal)
open Outcome (ok_bind)

/-- The value that an exact selector names. -/
def exactValue? (selector : String) : Option ℚ := (exactNumber? selector).bind Decimal.value?

/-- A selector that is exact names a finite number. -/
def namesFinite (selector : String) : Prop :=
  ∀ wanted, exactNumber? selector = some wanted → wanted.value?.isSome

theorem isSignaling_of_value {wanted : Decimal} (finite : wanted.value?.isSome = true) :
    wanted.isSignaling = false := by
  cases wanted with
  | nan negative signaling payload => cases finite
  | _ => rfl

/-- Numbers of which one is finite are the same if they have the same value. -/
theorem sameNumber_eq {wanted actual : Decimal}
    (finite : wanted.value?.isSome = true ∨ actual.value?.isSome = true) :
    wanted.sameNumber actual = decide (wanted.value? = actual.value?) := by
  rw [Bool.eq_iff_iff, decide_eq_true_iff]
  cases wanted with
  | finite negative coefficient exponent =>
    cases actual with
    | finite negative' coefficient' exponent' =>
      rw [Decimal.sameNumber_finite_iff]
      simp [Decimal.value?]
    | _ => simp [Decimal.sameNumber, Decimal.value?]
  | _ =>
    cases actual with
    | finite negative' coefficient' exponent' => simp [Decimal.sameNumber, Decimal.value?]
    | _ => simp [Decimal.value?] at finite

section Finite

variable {number : Number}

/-- What is asked of a finite number: its text reads back with its value. -/
theorem matchesExact_finite (finite : number.isFinite = true) (selector : String) :
    matchesExact selector number =
      match exactNumber? selector with
      | none => .ok false
      | some wanted =>
        if wanted.isSignaling then .error .invalidOperation
        else .ok (decide (wanted.value? = some number.value)) := by
  obtain ⟨negative, coefficient, exponent, read, same⟩ := Number.read?_of_isFinite finite
  have written := Number.written_of_isWritable (Number.isWritable_of_isFinite finite)
  have value : (Decimal.finite negative coefficient exponent).value? = some number.value :=
    congrArg some same
  have plain : (Decimal.finite negative coefficient exponent).isSignaling = false := rfl
  rw [matchesExact, isExact, written, ok_bind, matchesText]
  cases exactNumber? selector with
  | none => rfl
  | some wanted =>
    rw [Option.isSome_some, if_pos rfl, read]
    dsimp only
    rw [compare, plain, Bool.or_false, sameNumber_eq (.inr (by rw [value]; rfl)), value]

theorem matchesExact_of_isFinite {selector : String} (named : namesFinite selector)
    (finite : number.isFinite = true) :
    matchesExact selector number =
      .ok (decide (exactValue? selector = some number.value)) := by
  rw [matchesExact_finite finite, exactValue?]
  cases exact : exactNumber? selector with
  | none => rfl
  | some wanted =>
    have plain : wanted.isSignaling = false := isSignaling_of_value (named wanted exact)
    simp only [plain, Option.bind_some]
    rfl

end Finite

/-! ### The numbers that selectors name -/

/-- A selector is an equals sign and a spelling of the number. -/
def Names (selector : String) (wanted : Decimal) : Prop :=
  ∃ written, selector.toList = '=' :: written ∧ Decimal.Spells written wanted

/-- An exact selector is an equals sign and the text of its number. -/
theorem exactNumber?_eq_some {selector : String} {wanted : Decimal}
    (exact : exactNumber? selector = some wanted) :
    ∃ written, selector.toList = '=' :: written ∧ Decimal.read? written = some wanted := by
  unfold exactNumber? at exact
  split at exact
  · rename_i written spelled
    exact ⟨written, spelled, exact⟩
  · contradiction

theorem exactNumber?_eq_some_iff {selector : String} {wanted : Decimal} :
    exactNumber? selector = some wanted ↔ Names selector wanted := by
  constructor
  · intro exact
    obtain ⟨written, spelled, read⟩ := exactNumber?_eq_some exact
    exact ⟨written, spelled, Decimal.read?_eq_some_iff.mp read⟩
  · rintro ⟨written, spelled, spells⟩
    rw [exactNumber?, spelled]
    exact Decimal.read?_eq_some_iff.mpr spells

/-- An exact selector and a finite number are compared by their values, however they are spelled; a
double counts as the decimal number that it is written as. A selector that spells no number matches
none, and neither does one of an infinity or of a quiet value that is no number. One of a signaling
value cannot be compared. -/
theorem matchesExact_iff {number : Number} (finite : number.isFinite = true) (selector : String) :
    (matchesExact selector number = .ok true ↔
      ∃ wanted, Names selector wanted ∧ wanted.value? = some number.value) ∧
    ((∀ wanted, ¬ Names selector wanted) → matchesExact selector number = .ok false) ∧
    (∀ wanted, Names selector wanted → wanted.isSignaling = false →
      wanted.value? ≠ some number.value → matchesExact selector number = .ok false) ∧
    (∀ wanted, Names selector wanted → wanted.isSignaling = true →
      matchesExact selector number = .error .invalidOperation) := by
  have answer : ∀ wanted, Names selector wanted → matchesExact selector number =
      if wanted.isSignaling then .error .invalidOperation
      else .ok (decide (wanted.value? = some number.value)) := by
    intro wanted names
    rw [matchesExact_finite finite, exactNumber?_eq_some_iff.mpr names]
  have unnamed : (∀ wanted, ¬ Names selector wanted) →
      matchesExact selector number = .ok false := by
    intro nameless
    have none : exactNumber? selector = none := Option.eq_none_iff_forall_ne_some.mpr
      fun wanted exact => nameless wanted (exactNumber?_eq_some_iff.mp exact)
    rw [matchesExact_finite finite, none]
  refine ⟨⟨?_, ?_⟩, unnamed, ?_, ?_⟩
  · intro hit
    rw [matchesExact_finite finite] at hit
    cases exact : exactNumber? selector with
    | none =>
      rw [exact] at hit
      cases hit
    | some wanted =>
      rw [exact] at hit
      dsimp only at hit
      split at hit
      · cases hit
      · exact ⟨wanted, exactNumber?_eq_some_iff.mp exact, of_decide_eq_true (Except.ok.inj hit)⟩
  · rintro ⟨wanted, names, value⟩
    have quiet : wanted.isSignaling = false := isSignaling_of_value (by rw [value]; rfl)
    rw [answer wanted names]
    simp [quiet, value]
  · intro wanted names quiet apart
    rw [answer wanted names]
    simp [quiet, apart]
  · intro wanted names loud
    rw [answer wanted names]
    simp [loud]

/-- A number in scientific notation, and an exact selector of its value with a sign, a digit of
another script, underscores, zeros, an exponent and blanks. -/
theorem matchesExact_iff_mixed :
    Number.isFinite (.decimal (.finite false 105 38)) = true ∧
    (Number.decimal (.finite false 105 38)).text = "1.05E+40" ∧
    matchesExact "=\u00a0+\u0661_0_5.00e38 " (.decimal (.finite false 105 38)) = .ok true ∧
    matchesExact "=-NaN" (.decimal (.finite false 105 38)) = .ok false ∧
    matchesExact "=1e40" (.decimal (.finite false 105 38)) = .ok false ∧
    matchesExact "=2 3" (.decimal (.finite false 105 38)) = .ok false := by
  have finite : Number.isFinite (.decimal (.finite false 105 38)) = true := by decide
  have own : (Number.decimal (.finite false 105 38)).value = Number.valueOf false 105 38 := rfl
  obtain ⟨hits, -, -, -⟩ := matchesExact_iff finite "=\u00a0+\u0661_0_5.00e38 "
  obtain ⟨-, -, quiet, -⟩ := matchesExact_iff finite "=-NaN"
  obtain ⟨-, -, other, -⟩ := matchesExact_iff finite "=1e40"
  obtain ⟨-, unnamed, -, -⟩ := matchesExact_iff finite "=2 3"
  have mixed : Names "=\u00a0+\u0661_0_5.00e38 " (.finite false 10500 36) :=
    exactNumber?_eq_some_iff.mp (by decide)
  refine ⟨finite, by decide, hits.mpr ⟨_, mixed, ?_⟩, quiet (.nan true false 0) ?_ rfl ?_,
    other (.finite false 1 40) ?_ rfl ?_, unnamed ?_⟩
  · rw [own, Decimal.value?, show 10500 = 105 * 10 ^ 2 by rfl, Number.valueOf_shift]
    rfl
  · exact exactNumber?_eq_some_iff.mp (by decide)
  · exact nofun
  · exact exactNumber?_eq_some_iff.mp (by decide)
  · rw [own]
    norm_num [Decimal.value?, Number.valueOf, Decimal.signed]
  · intro wanted names
    have none : exactNumber? "=2 3" = none := by decide
    rw [exactNumber?_eq_some_iff.mpr names] at none
    cases none

/-! ### The selectors of plural texts -/

/-- A category, or the exact selector of a finite number in visible ASCII characters. -/
def isSelector (selector : String) : Bool :=
  Category.all.any (fun category => category.text = selector) ||
    ((exactValue? selector).isSome &&
      selector.toList.all fun c => c.toNat < 0x80 && !Text.isBlank c)

theorem isSelector_cases {selector : String} (named : isSelector selector = true) :
    (∃ category : Category, category.text = selector) ∨
      ((exactValue? selector).isSome = true ∧
        ∀ c ∈ selector.toList, c.toNat < 0x80 ∧ Text.isBlank c = false) := by
  rcases Bool.or_eq_true_iff.mp named with listed | exact
  · obtain ⟨category, -, text⟩ := List.any_eq_true.mp listed
    exact .inl ⟨category, by simpa using text⟩
  · right
    simpa using exact

theorem exactNumber?_category (category : Category) : exactNumber? category.text = none := by
  cases category <;> decide

theorem namesFinite_of_isSelector {selector : String} (named : isSelector selector = true) :
    namesFinite selector := by
  intro wanted exact
  rcases isSelector_cases named with ⟨category, rfl⟩ | ⟨given, -⟩
  · rw [exactNumber?_category] at exact
    contradiction
  · rwa [exactValue?, exact, Option.bind_some] at given

theorem not_endsName_of_spells {c : Char} (spelled : Decimal.spells c = true) :
    Message.endsName c = false := by
  simp only [Decimal.spells, Bool.or_eq_true, decide_eq_true_eq] at spelled
  rcases spelled with ((((digit | rfl) | rfl) | rfl) | rfl) | rfl
  · have bounds := Text.isDigit_iff.mp digit
    have apart : ∀ mark : Char, mark.toNat < 48 ∨ 57 < mark.toNat → c ≠ mark := by
      rintro mark outside rfl
      omega
    simp [Message.endsName, apart]
  all_goals decide

/-- A selector with a value is an equals sign before the characters of a number. -/
theorem exact_spelled {selector : String} (given : (exactValue? selector).isSome = true)
    (ascii : ∀ c ∈ selector.toList, c.toNat < 0x80 ∧ Text.isBlank c = false) :
    ∃ written, selector.toList = '=' :: written ∧
      ∀ c ∈ written, Decimal.spells c = true ∨ c = '_' := by
  obtain ⟨value, named⟩ := Option.isSome_iff_exists.mp given
  obtain ⟨wanted, exact, finite⟩ := Option.bind_eq_some_iff.mp named
  obtain ⟨written, spelled, read⟩ := exactNumber?_eq_some exact
  refine ⟨written, spelled, ?_⟩
  have inside : ∀ c ∈ written, c.toNat < 0x80 ∧ Text.isBlank c = false := by
    intro c member
    exact ascii c (by simp [spelled, member])
  cases wanted with
  | finite negative coefficient exponent => exact Decimal.spells_of_read? inside read
  | infinity negative => simp [Decimal.value?] at finite
  | nan negative signaling payload => simp [Decimal.value?] at finite

theorem isName_of_isSelector {selector : String} (named : isSelector selector = true) :
    Message.isName selector = true := by
  rcases isSelector_cases named with ⟨category, rfl⟩ | ⟨given, ascii⟩
  · cases category <;> decide
  · obtain ⟨written, spelled, characters⟩ := exact_spelled given ascii
    have letters : ∀ c ∈ '=' :: written, Message.endsName c = false := by
      intro c member
      rcases List.mem_cons.mp member with rfl | inside
      · decide
      · rcases characters c inside with plain | rfl
        · exact not_endsName_of_spells plain
        · decide
    have shown : Text.isBlank '=' = false := by decide
    rw [Message.isName, spelled]
    simp only [shown, Bool.not_false, Bool.true_and, List.all_eq_true]
    intro c member
    rw [letters c member]
    rfl

/-! ### The first exact selector -/

/-- The place of the first exact selector is that of the first selector with the value. -/
theorem exactPlace_of_isFinite {number : Number} (finite : number.isFinite = true)
    {selectors : List String} (named : ∀ selector ∈ selectors, isSelector selector = true) :
    Message.exactPlace number selectors =
      .ok (selectors.findIdx? fun selector =>
        decide (exactValue? selector = some number.value)) := by
  induction selectors with
  | nil => rfl
  | cons selector rest ih =>
    have first := matchesExact_of_isFinite (namesFinite_of_isSelector (named selector (by simp)))
      finite
    have later := ih fun other member => named other (by simp [member])
    rw [Message.exactPlace, first, List.findIdx?_cons]
    by_cases hit : exactValue? selector = some number.value
    · simp [hit]
      rfl
    · simp [hit, later]

/-! ### Comparable selectors -/

/-- A selector that can be compared with every finite number. -/
def isComparable (selector : String) : Bool :=
  (exactNumber? selector).all fun wanted => !wanted.isSignaling

theorem matchesExact_of_isComparable {selector : String} {number : Number}
    (comparable : isComparable selector = true) (finite : number.isFinite = true) :
    ∃ answer, matchesExact selector number = .ok answer := by
  rw [matchesExact_finite finite]
  cases exact : exactNumber? selector with
  | none => exact ⟨false, rfl⟩
  | some wanted =>
    have plain : wanted.isSignaling = false := by simpa [isComparable, exact] using comparable
    simp only [plain]
    exact ⟨_, rfl⟩

theorem exactPlace_of_areComparable {selectors : List String} {number : Number}
    (comparable : ∀ selector ∈ selectors, isComparable selector = true)
    (finite : number.isFinite = true) :
    ∃ exact, Message.exactPlace number selectors = .ok exact := by
  induction selectors with
  | nil => exact ⟨none, rfl⟩
  | cons selector rest ih =>
    obtain ⟨first, tested⟩ :=
      matchesExact_of_isComparable (comparable selector (by simp)) finite
    obtain ⟨later, done⟩ := ih fun other member => comparable other (by simp [member])
    rw [Message.exactPlace, tested, ok_bind, done]
    cases first with
    | true => exact ⟨some 0, rfl⟩
    | false => exact ⟨later.map (· + 1), rfl⟩

end Phrasebook.Plural

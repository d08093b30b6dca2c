import Phrasebook.Plural.Rule
import Phrasebook.Proofs.Number.Rounding
import Phrasebook.Proofs.Number.Shortest
import Phrasebook.Proofs.Outcome

set_option autoImplicit false

/-!
Numbers that have a plural category in every locale. Only a remainder can fail, and coarse rules take
remainders by ten or more, which every number of at most twenty-eight whole digits has.
-/
namespace Phrasebook.Plural

open Number (Fault Decimal Double)
open Outcome (ok_bind)

/-- A magnitude that has remainders by ten and more. -/
def Magnitude.Divides (magnitude : Magnitude) : Prop :=
  ∀ modulus, 10 ≤ modulus → ∃ result, magnitude.remainder modulus = .ok result

theorem Magnitude.divides_whole (n : Nat) : (Magnitude.whole n).Divides := fun _ _ => ⟨_, rfl⟩

section Evaluation

variable {operands : Operands}

theorem holds_ok (divides : operands.absolute.Divides) {relation : Relation}
    (coarse : relation.modulus.all (10 ≤ ·) = true) :
    ∃ answer, relation.holds operands = .ok answer := by
  have value : (relation.operand.value operands).Divides := by
    cases relation.operand with
    | n => exact divides
    | _ => exact Magnitude.divides_whole _
  rw [Relation.holds]
  cases modulus : relation.modulus with
  | none => exact ⟨_, rfl⟩
  | some amount =>
    rw [modulus] at coarse
    obtain ⟨result, done⟩ := value amount (by simpa using coarse)
    simp only [done, ok_bind]
    exact ⟨_, rfl⟩

theorem holdTogether_ok (divides : operands.absolute.Divides) {relations : List Relation}
    (coarse : ∀ relation ∈ relations, relation.modulus.all (10 ≤ ·) = true) :
    ∃ answer, holdTogether operands relations = .ok answer := by
  induction relations with
  | nil => exact ⟨_, rfl⟩
  | cons relation rest ih =>
    obtain ⟨first, held⟩ := holds_ok divides (coarse relation (by simp))
    obtain ⟨later, done⟩ := ih fun other member => coarse other (by simp [member])
    rw [holdTogether, held, ok_bind]
    cases first with
    | true => exact ⟨later, done⟩
    | false => exact ⟨false, rfl⟩

theorem condition_ok (divides : operands.absolute.Divides) {condition : Condition}
    (coarse : ∀ relations ∈ condition, ∀ relation ∈ relations,
      relation.modulus.all (10 ≤ ·) = true) :
    ∃ answer, Condition.holds operands condition = .ok answer := by
  induction condition with
  | nil => exact ⟨_, rfl⟩
  | cons relations rest ih =>
    obtain ⟨first, held⟩ := holdTogether_ok divides (coarse relations (by simp))
    obtain ⟨later, done⟩ := ih fun other member => coarse other (by simp [member])
    rw [Condition.holds, held, ok_bind]
    cases first with
    | true => exact ⟨true, rfl⟩
    | false => exact ⟨later, done⟩

theorem ruleCategory_ok (divides : operands.absolute.Divides) {rule : Rule}
    (coarse : ∀ entry ∈ rule, ∀ relations ∈ entry.2, ∀ relation ∈ relations,
      relation.modulus.all (10 ≤ ·) = true) :
    ∃ category, Rule.category operands rule = .ok category := by
  induction rule with
  | nil => exact ⟨_, rfl⟩
  | cons entry rest ih =>
    obtain ⟨first, held⟩ := condition_ok divides (coarse entry (by simp))
    obtain ⟨later, done⟩ := ih fun other member => coarse other (by simp [member])
    rw [Rule.category, held, ok_bind]
    cases first with
    | true => exact ⟨entry.1, rfl⟩
    | false => exact ⟨later, done⟩

end Evaluation

/-! ### Numbers of few digits -/

/-- Whole numbers and doubles, and the decimal numbers below ten to the twenty-eighth. -/
def isShort : Number → Bool
  | .decimal (.finite _ coefficient exponent) =>
    Decimal.firstExponent coefficient exponent < Decimal.precision
  | _ => true

theorem divides_written {negative : Bool} {coefficient : Nat} {exponent : Int}
    (below : Decimal.firstExponent coefficient exponent ≤ Decimal.precision) :
    (Magnitude.written (.finite negative coefficient exponent)).Divides := by
  intro modulus wide
  obtain ⟨result, done⟩ := Decimal.remainder_ok negative below wide
  rw [Magnitude.remainder, done]
  exact ⟨.written result, rfl⟩

/-- A short finite number has operands, and all the remainders that a rule can take. -/
theorem operands_ok {number : Number} (finite : number.isFinite = true)
    (short : isShort number = true) :
    ∃ operands, Operands.ofNumber number = .ok operands ∧ operands.absolute.Divides := by
  cases number with
  | int i => exact ⟨_, rfl, Magnitude.divides_whole _⟩
  | double d =>
    cases d with
    | finite negative significand exponent =>
      rw [Operands.ofNumber]
      cases whole : Double.whole? significand exponent with
      | some n => exact ⟨_, rfl, Magnitude.divides_whole n⟩
      | none =>
        obtain ⟨coefficient, exponent', written, few⟩ :=
          Double.toDecimal_of_fractional finite whole
        simp only [written]
        exact ⟨_, rfl, divides_written (le_trans few (by decide))⟩
    | infinity negative => simp [Number.isFinite] at finite
    | nan => simp [Number.isFinite] at finite
  | decimal d =>
    cases d with
    | finite negative coefficient exponent =>
      have start : Decimal.firstExponent coefficient exponent ≤ 27 :=
        Int.le_of_lt_add_one (of_decide_eq_true short)
      obtain ⟨coefficient', exponent', rounded, below⟩ :=
        Decimal.rounded_ok false (show (0 : Int) ≤ 27 by decide) (by decide) start
      rw [Operands.ofNumber, Decimal.abs, rounded, ok_bind]
      exact ⟨_, rfl, divides_written below⟩
    | infinity negative => simp [Number.isFinite] at finite
    | nan negative signaling payload => simp [Number.isFinite] at finite

/-- Every whole number and double, and every decimal number below ten to the twenty-eighth, has a
category in every locale if the rules are coarse. -/
theorem category_of_isShort [Rules] (areCoarse : Rules.AreCoarse) {number : Number}
    (finite : number.isFinite = true) (short : isShort number = true) (locale : Option String)
    (ordinal : Bool) : ∃ category, Plural.category number locale ordinal = .ok category := by
  obtain ⟨operands, given, divides⟩ := operands_ok finite short
  rw [category]
  cases known : rule? (locale.getD "") ordinal with
  | none => exact ⟨_, rfl⟩
  | some rule =>
    have coarse := areCoarse known
    simp only [Rule.isCoarse, List.all_eq_true] at coarse
    obtain ⟨result, done⟩ := ruleCategory_ok divides coarse
    simp only [given, ok_bind]
    exact ⟨result, done⟩

end Phrasebook.Plural

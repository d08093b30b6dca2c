import Mathlib.Algebra.Order.Field.Power
import Mathlib.Algebra.Order.Ring.Rat
import Mathlib.Tactic.Linarith
import Mathlib.Tactic.Positivity
import Mathlib.Tactic.Ring
import Phrasebook.Number.Arithmetic
import Phrasebook.Proofs.Number.Digits

set_option autoImplicit false

/-!
The values of decimal numbers, as fractions. A value has one spelling without trailing zeros, so
two decimal numbers are the same exactly when their values are.
-/
namespace Phrasebook.Number

/-- The value of a coefficient at a power of ten. -/
def valueOf (negative : Bool) (coefficient : Nat) (exponent : Int) : ℚ :=
  Decimal.signed negative coefficient * 10 ^ exponent

theorem ten_ne_zero : (10 : ℚ) ≠ 0 := by norm_num

@[simp] theorem valueOf_zero (negative : Bool) (exponent : Int) :
    valueOf negative 0 exponent = 0 := by
  cases negative <;> simp [valueOf, Decimal.signed]

theorem valueOf_false (coefficient : Nat) (exponent : Int) :
    valueOf false coefficient exponent = coefficient * 10 ^ exponent := by
  simp [valueOf, Decimal.signed]

theorem valueOf_true (coefficient : Nat) (exponent : Int) :
    valueOf true coefficient exponent = -valueOf false coefficient exponent := by
  simp [valueOf, Decimal.signed]

theorem valueOf_shift (negative : Bool) (coefficient : Nat) (exponent : Int) (count : Nat) :
    valueOf negative (coefficient * 10 ^ count) exponent =
      valueOf negative coefficient (exponent + count) := by
  have split : (10 : ℚ) ^ (exponent + count) = 10 ^ exponent * 10 ^ count := by
    rw [zpow_add₀ ten_ne_zero, zpow_natCast]
  cases negative with
  | false => rw [valueOf_false, valueOf_false, split]; push_cast; ring
  | true => rw [valueOf_true, valueOf_true, valueOf_false, valueOf_false, split]; push_cast; ring

theorem valueOf_nonneg (coefficient : Nat) (exponent : Int) :
    0 ≤ valueOf false coefficient exponent := by
  rw [valueOf_false]
  positivity

theorem valueOf_pos {coefficient : Nat} (nonzero : coefficient ≠ 0) (exponent : Int) :
    0 < valueOf false coefficient exponent := by
  have positive : 0 < coefficient := Nat.pos_of_ne_zero nonzero
  rw [valueOf_false]
  positivity

namespace Decimal

/-! ### Trailing zeros -/

/-- What is left after zeros are stripped has the same value, and no zero at its end. -/
theorem stripZeros_spec (negative : Bool) {fuel coefficient : Nat} (exponent : Int)
    (nonzero : coefficient ≠ 0) (enough : coefficient < 10 ^ fuel) :
    (stripZeros fuel coefficient exponent).1 % 10 ≠ 0 ∧
      exponent ≤ (stripZeros fuel coefficient exponent).2 ∧
      valueOf negative (stripZeros fuel coefficient exponent).1
        (stripZeros fuel coefficient exponent).2 = valueOf negative coefficient exponent := by
  induction fuel generalizing coefficient exponent with
  | zero => omega
  | succ fuel ih =>
    rw [stripZeros, if_neg nonzero]
    by_cases last : coefficient % 10 = 0
    · rw [if_pos last]
      have shorter : coefficient / 10 < 10 ^ fuel := by
        rw [Nat.div_lt_iff_lt_mul (by decide)]
        exact enough
      have stripped := ih (exponent + 1) (show coefficient / 10 ≠ 0 by omega) shorter
      have whole : coefficient / 10 * 10 ^ 1 = coefficient := by omega
      refine ⟨stripped.1, by omega, ?_⟩
      rw [stripped.2.2, ← whole, valueOf_shift]
      simp
    · rw [if_neg last]
      exact ⟨last, le_rfl, rfl⟩

theorem reduced_zero (exponent : Int) : reduced 0 exponent = (0, 0) := rfl

theorem reduced_spec (negative : Bool) {coefficient : Nat} (exponent : Int)
    (nonzero : coefficient ≠ 0) :
    (reduced coefficient exponent).1 % 10 ≠ 0 ∧ exponent ≤ (reduced coefficient exponent).2 ∧
      valueOf negative (reduced coefficient exponent).1 (reduced coefficient exponent).2 =
        valueOf negative coefficient exponent :=
  stripZeros_spec negative exponent nonzero (lt_tenTo_digitCount coefficient)

theorem reduced_value (negative : Bool) (coefficient : Nat) (exponent : Int) :
    valueOf negative (reduced coefficient exponent).1 (reduced coefficient exponent).2 =
      valueOf negative coefficient exponent := by
  by_cases nonzero : coefficient = 0
  · simp [nonzero, reduced_zero]
  · exact (reduced_spec negative exponent nonzero).2.2

/-- Of two coefficients of one value, the one at the lower exponent ends in zeros. -/
theorem exponent_le_of_value {coefficient other : Nat} {exponent later : Int}
    (trimmed : coefficient % 10 ≠ 0)
    (same : valueOf false coefficient exponent = valueOf false other later) :
    later ≤ exponent := by
  by_contra above
  obtain ⟨count, reached⟩ : ∃ count : Nat, later = exponent + (count + 1 : Nat) :=
    ⟨(later - exponent - 1).toNat, by omega⟩
  rw [reached, ← valueOf_shift, valueOf_false, valueOf_false] at same
  have equal := mul_right_cancel₀ (zpow_ne_zero exponent ten_ne_zero) same
  have whole : coefficient = other * 10 ^ (count + 1) := by exact_mod_cast equal
  rw [pow_succ, ← mul_assoc] at whole
  omega

theorem trimmed_unique {coefficient other : Nat} {exponent later : Int}
    (trimmed : coefficient % 10 ≠ 0) (trimmedOther : other % 10 ≠ 0)
    (same : valueOf false coefficient exponent = valueOf false other later) :
    coefficient = other ∧ exponent = later := by
  have low := exponent_le_of_value trimmed same
  have high := exponent_le_of_value trimmedOther same.symm
  have level : exponent = later := le_antisymm high low
  rw [level, valueOf_false, valueOf_false] at same
  have equal := mul_right_cancel₀ (zpow_ne_zero later ten_ne_zero) same
  exact ⟨by exact_mod_cast equal, level⟩

theorem reduced_eq_iff {coefficient other : Nat} (exponent later : Int)
    (nonzero : coefficient ≠ 0) (nonzeroOther : other ≠ 0) :
    reduced coefficient exponent = reduced other later ↔
      valueOf false coefficient exponent = valueOf false other later := by
  have left := reduced_spec false exponent nonzero
  have right := reduced_spec false later nonzeroOther
  constructor
  · intro same
    rw [← left.2.2, ← right.2.2, same]
  · intro same
    rw [← left.2.2, ← right.2.2] at same
    have unique := trimmed_unique left.1 right.1 same
    exact Prod.ext unique.1 unique.2

/-! ### Comparing -/

theorem valueOf_eq_zero_iff {negative : Bool} {coefficient : Nat} {exponent : Int} :
    valueOf negative coefficient exponent = 0 ↔ coefficient = 0 := by
  constructor
  · intro zero
    by_contra nonzero
    have positive := valueOf_pos nonzero exponent
    cases negative with
    | false => exact absurd zero positive.ne'
    | true =>
      rw [valueOf_true, neg_eq_zero] at zero
      exact absurd zero positive.ne'
  · rintro rfl
    exact valueOf_zero negative exponent

/-- Values of opposite signs differ. -/
theorem valueOf_signs {coefficient other : Nat} {exponent later : Int} (nonzero : coefficient ≠ 0) :
    valueOf false coefficient exponent ≠ valueOf true other later := by
  have positive := valueOf_pos nonzero exponent
  have positive' := valueOf_nonneg other later
  rw [valueOf_true]
  intro same
  linarith

theorem sameNumber_finite_iff {negative negative' : Bool} {coefficient coefficient' : Nat}
    {exponent exponent' : Int} :
    sameNumber (finite negative coefficient exponent) (finite negative' coefficient' exponent') =
        true ↔
      valueOf negative coefficient exponent = valueOf negative' coefficient' exponent' := by
  rw [sameNumber]
  by_cases zero : coefficient = 0
  · have level : reduced coefficient exponent = reduced coefficient' exponent' →
        coefficient' = 0 := by
      intro same
      by_contra nonzero
      have trimmed := (reduced_spec false exponent' nonzero).1
      rw [← same, zero, reduced_zero] at trimmed
      exact trimmed rfl
    rw [zero, valueOf_zero, @eq_comm ℚ 0, valueOf_eq_zero_iff]
    subst zero
    constructor
    · intro same
      simp only [decide_true, Bool.true_and, Bool.or_eq_true, decide_eq_true_eq,
        Bool.and_eq_true] at same
      rcases same with done | ⟨-, same⟩
      · exact done
      · exact level same
    · intro zero'
      simp [zero']
  · by_cases zero' : coefficient' = 0
    · have apart : reduced coefficient exponent ≠ reduced 0 exponent' := by
        intro same
        have trimmed := (reduced_spec false exponent zero).1
        rw [same] at trimmed
        exact trimmed rfl
      rw [zero', valueOf_zero, valueOf_eq_zero_iff]
      simp [zero, apart]
    · have magnitudes := reduced_eq_iff exponent exponent' zero zero'
      cases negative <;> cases negative'
      · simpa [zero] using magnitudes
      · simpa [zero] using valueOf_signs zero
      · simpa [zero] using (valueOf_signs zero').symm
      · rw [valueOf_true, valueOf_true, neg_inj]
        simpa [zero] using magnitudes

end Decimal

end Phrasebook.Number

import Mathlib.Tactic.GCongr
import Phrasebook.Proofs.Number.Value

set_option autoImplicit false

/-!
Rounding and remainders that have a result. Rounding moves the first digit up by one place at most,
so a number of few whole digits always rounds, and it always has a remainder by ten or more.
-/
namespace Phrasebook.Number

theorem digitCount_mono {n m : Nat} (order : n ≤ m) : digitCount n ≤ digitCount m :=
  (digitCount_le_iff (digitCount_pos m)).mpr (lt_of_le_of_lt order (lt_tenTo_digitCount m))

theorem digitCount_div_ten {n : Nat} (long : 1 < digitCount n) :
    digitCount (n / 10) ≤ digitCount n - 1 := by
  have split : digitCount n = digitCount n - 1 + 1 := by omega
  have below := lt_tenTo_digitCount n
  rw [split, pow_succ] at below
  apply (digitCount_le_iff (by omega)).mpr
  rw [Nat.div_lt_iff_lt_mul (by decide)]
  exact below

theorem divideNearest_le (numerator denominator : Nat) :
    divideNearest numerator denominator ≤ numerator / denominator + 1 := by
  simp only [divideNearest]
  split
  · omega
  · split
    · omega
    · split <;> omega

/-- Cutting digits off leaves one digit more at most than those that are kept. -/
theorem digitCount_divideNearest {coefficient cut : Nat} (inside : cut ≤ digitCount coefficient) :
    digitCount (divideNearest coefficient (tenTo cut)) ≤ digitCount coefficient - cut + 1 := by
  have whole : coefficient / 10 ^ cut < 10 ^ (digitCount coefficient - cut) := by
    rw [Nat.div_lt_iff_lt_mul (by positivity), ← pow_add, Nat.sub_add_cancel inside]
    exact lt_tenTo_digitCount coefficient
  have near := divideNearest_le coefficient (tenTo cut)
  apply (digitCount_le_iff (by omega)).mpr
  calc divideNearest coefficient (tenTo cut) ≤ coefficient / 10 ^ cut + 1 := near
    _ ≤ 10 ^ (digitCount coefficient - cut) := whole
    _ < 10 ^ (digitCount coefficient - cut + 1) := Nat.pow_lt_pow_right (by decide) (by omega)

namespace Decimal

theorem firstExponent_zero (exponent : Int) : firstExponent 0 exponent = exponent := by
  have count : digitCount 0 = 1 := rfl
  rw [firstExponent, count]
  omega

theorem trimCarry_first (coefficient : Nat) (exponent : Int) :
    firstExponent (trimCarry coefficient exponent).1 (trimCarry coefficient exponent).2 ≤
      firstExponent coefficient exponent := by
  rw [trimCarry]
  split
  · rename_i long
    rw [precision] at long
    have shorter := digitCount_div_ten (show 1 < digitCount coefficient by omega)
    simp only [firstExponent]
    omega
  · exact le_rfl

theorem trimCarry_exponent (coefficient : Nat) (exponent : Int) :
    (trimCarry coefficient exponent).2 ≤ exponent + 1 := by
  rw [trimCarry]
  split
  · exact le_rfl
  · dsimp only
    omega

/-- Rounding at a later digit moves the first digit up by one place at most. -/
theorem shortened_first (coefficient : Nat) {exponent last : Int} (later : exponent < last) :
    firstExponent (if (digitCount coefficient : Int) < (last - exponent).toNat then 0
      else divideNearest coefficient (tenTo (last - exponent).toNat)) last ≤
        max last (firstExponent coefficient exponent + 1) := by
  split
  · rw [firstExponent_zero]
    exact le_max_left _ _
  · rename_i inside
    have count := digitCount_divideNearest
      (show (last - exponent).toNat ≤ digitCount coefficient by omega)
    simp only [firstExponent]
    omega

/-- A number that begins below the limit of results has a rounded result. -/
theorem rounded_ok (negative : Bool) {coefficient : Nat} {exponent limit : Int}
    (natural : 0 ≤ limit) (room : limit < resultLimit)
    (below : firstExponent coefficient exponent ≤ limit) :
    ∃ coefficient' exponent',
      rounded negative coefficient exponent = .ok (finite negative coefficient' exponent') ∧
        firstExponent coefficient' exponent' ≤ limit + 1 := by
  have zeroBound : ∀ place : Int, place ≤ limit + 1 →
      firstExponent 0 (max resultFloor (min place resultLimit)) ≤ limit + 1 := by
    intro place low
    rw [firstExponent_zero, resultFloor]
    omega
  have start : exponent + (digitCount coefficient : Int) - 1 ≤ limit := below
  have count := digitCount_pos coefficient
  rw [rounded]
  by_cases zero : coefficient = 0
  · rw [if_pos zero]
    exact ⟨0, _, rfl, zeroBound exponent (by omega)⟩
  · rw [if_neg zero]
    dsimp only
    rw [if_neg (by omega)]
    generalize atLast :
      max ((digitCount coefficient : Int) + exponent - precision) resultFloor = last
    by_cases kept : last ≤ exponent
    · rw [if_pos kept]
      exact ⟨coefficient, exponent, rfl, by omega⟩
    · rw [if_neg kept]
      have low : last ≤ limit := by
        rw [precision, resultFloor] at atLast
        omega
      have first := shortened_first coefficient (lt_of_not_ge kept)
      revert first
      generalize (if (digitCount coefficient : Int) < (last - exponent).toNat then 0
        else divideNearest coefficient (tenTo (last - exponent).toNat)) = shortened
      intro first
      have carried := trimCarry_first shortened last
      have place := trimCarry_exponent shortened last
      generalize (trimCarry shortened last).1 = coefficient' at carried ⊢
      generalize (trimCarry shortened last).2 = exponent' at carried place ⊢
      by_cases lost : coefficient' = 0
      · rw [if_pos lost]
        exact ⟨0, _, rfl, zeroBound exponent' (by omega)⟩
      · have bound : firstExponent coefficient' exponent' ≤ limit + 1 := by omega
        have within : ¬resultLimit < exponent' + (digitCount coefficient' : Int) - 1 := by
          rw [firstExponent] at bound
          omega
        rw [if_neg lost, if_neg within]
        exact ⟨coefficient', exponent', rfl, bound⟩

/-- Numbers of thirty whole digits at most are far below the limit of results. -/
theorem rounded_of_short (negative : Bool) {coefficient : Nat} {exponent : Int}
    (below : firstExponent coefficient exponent ≤ 29) :
    ∃ result, rounded negative coefficient exponent = .ok result := by
  obtain ⟨coefficient', exponent', done, -⟩ :=
    rounded_ok negative (show (0 : Int) ≤ 29 by decide) (by decide) below
  exact ⟨_, done⟩

theorem scaled_lt (coefficient more : Nat) :
    coefficient * 10 ^ more < 10 ^ (digitCount coefficient + more) := by
  rw [pow_add]
  exact Nat.mul_lt_mul_of_pos_right (lt_tenTo_digitCount coefficient) (by positivity)

/-- The quotient of a number of twenty-nine whole digits by ten or more keeps within the precision
of arithmetic. -/
theorem quotient_lt {coefficient modulus more places : Nat}
    (size : digitCount coefficient + more ≤ 29 + places) (wide : 10 ≤ modulus) :
    coefficient * 10 ^ more / (modulus * 10 ^ places) < 10 ^ precision := by
  have fits : coefficient * 10 ^ more < 10 ^ precision * (modulus * 10 ^ places) :=
    calc coefficient * 10 ^ more < 10 ^ (digitCount coefficient + more) :=
          scaled_lt coefficient more
      _ ≤ 10 ^ (29 + places) := Nat.pow_le_pow_right (by decide) size
      _ = 10 ^ precision * (10 * 10 ^ places) := by rw [precision]; ring
      _ ≤ 10 ^ precision * (modulus * 10 ^ places) := by gcongr
  exact (Nat.div_lt_iff_lt_mul (Nat.mul_pos (by omega) (by positivity))).mpr fits

/-- A number of twenty-nine whole digits has a remainder by ten or more. -/
theorem remainder_ok (negative : Bool) {coefficient modulus : Nat} {exponent : Int}
    (below : firstExponent coefficient exponent ≤ precision) (wide : 10 ≤ modulus) :
    ∃ result, remainder (finite negative coefficient exponent) modulus = .ok result := by
  have short : firstExponent coefficient exponent ≤ 29 := le_trans below (by decide)
  have count := digitCount_pos modulus
  rw [remainder]
  by_cases zero : coefficient = 0
  · rw [if_pos zero]
    apply rounded_of_short
    rw [zero, firstExponent_zero] at short
    rw [firstExponent_zero]
    omega
  · rw [if_neg zero]
    dsimp only
    split
    · exact rounded_of_short negative short
    · rw [if_neg (by omega)]
      obtain ⟨places, ideal⟩ : ∃ places : Nat, min exponent 0 = -(places : Int) :=
        ⟨(min exponent 0).natAbs, by omega⟩
      obtain ⟨more, above⟩ : ∃ more : Nat, exponent - -(places : Int) = more :=
        ⟨(exponent + places).toNat, by omega⟩
      have start : exponent + (digitCount coefficient : Int) - 1 ≤ 28 := below
      have size : digitCount coefficient + more ≤ 29 + places := by omega
      have given := digitCount_pos coefficient
      have quotient := quotient_lt size wide
      have left : digitCount (coefficient * 10 ^ more % (modulus * 10 ^ places)) ≤
          digitCount coefficient + more :=
        le_trans (digitCount_mono (Nat.mod_le _ _))
          ((digitCount_le_iff (by omega)).mpr (scaled_lt coefficient more))
      have zeroed : (0 : Int) - -(places : Int) = places := by omega
      rw [ideal]
      simp only [rescaled, above, zeroed, Int.toNat_natCast, Nat.pow_eq]
      rw [if_pos quotient]
      apply rounded_of_short
      rw [firstExponent]
      omega

end Decimal

end Phrasebook.Number

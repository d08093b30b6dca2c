import Mathlib.Tactic.GCongr
import Phrasebook.Number.Basic
import Phrasebook.Proofs.Number.Spelling

set_option autoImplicit false

/-!
The texts of finite numbers. The shortest decimal of a double is never above the end of the interval
of the double, which bounds its digits, so its text reads back as a decimal number of the same value;
and so does the text of a finite number of any kind.
-/
namespace Phrasebook.Number

/-! ### Digits and values -/

theorem pow_le_of_digitCount {n : Nat} (nonzero : n ≠ 0) : 10 ^ (digitCount n - 1) ≤ n := by
  by_cases single : digitCount n - 1 = 0
  · rw [single]
    omega
  · by_contra above
    have fewer : digitCount n ≤ digitCount n - 1 :=
      (digitCount_le_iff (by omega)).mpr (Nat.lt_of_not_le above)
    omega

/-- A value below a power of ten begins at most at that power. -/
theorem firstExponent_le_of_value {coefficient : Nat} {exponent limit : Int}
    (nonzero : coefficient ≠ 0) (below : valueOf false coefficient exponent ≤ 10 ^ limit) :
    Decimal.firstExponent coefficient exponent ≤ limit := by
  have count := digitCount_pos coefficient
  have lead : (10 : ℚ) ^ (digitCount coefficient - 1) ≤ coefficient := by
    exact_mod_cast pow_le_of_digitCount nonzero
  have start : Decimal.firstExponent coefficient exponent =
      ((digitCount coefficient - 1 : Nat) : Int) + exponent := by
    rw [Decimal.firstExponent]
    omega
  have bound : (10 : ℚ) ^ Decimal.firstExponent coefficient exponent ≤ 10 ^ limit := by
    rw [valueOf_false] at below
    rw [start, zpow_add₀ ten_ne_zero, zpow_natCast]
    exact le_trans (by gcongr) below
  exact (zpow_le_zpow_iff_right₀ (by norm_num)).mp bound

theorem digitCount_twoTo (n : Nat) : digitCount (twoTo n) ≤ n + 1 := by
  apply (digitCount_le_iff (by omega)).mpr
  calc twoTo n = 2 ^ n := rfl
    _ ≤ 10 ^ n := Nat.pow_le_pow_left (by decide) n
    _ < 10 ^ (n + 1) := Nat.pow_lt_pow_right (by decide) (by omega)

namespace Shortest

/-! ### The grids that are tried -/

/-- The factor of a positive power and the one of a negative power, of which one is one. -/
theorem factor_spec {base : Nat} (positive : 0 < base) (power : Int) :
    ((if 0 ≤ power then base.pow power.natAbs else 1 : Nat) : ℚ) =
      (if power < 0 then base.pow power.natAbs else 1 : Nat) * (base : ℚ) ^ power := by
  have nonzero : (base : ℚ) ≠ 0 := by exact_mod_cast positive.ne'
  by_cases below : power < 0
  · obtain ⟨count, rfl⟩ : ∃ count : Nat, power = -(count : Int) := ⟨power.natAbs, by omega⟩
    rw [if_neg (by omega), if_pos below, zpow_neg, zpow_natCast, Int.natAbs_neg, Int.natAbs_natCast]
    have unit : ((base.pow count : Nat) : ℚ) * ((base : ℚ) ^ count)⁻¹ = 1 := by
      rw [Nat.pow_eq, Nat.cast_pow]
      exact mul_inv_cancel₀ (pow_ne_zero count nonzero)
    rw [unit, Nat.cast_one]
  · obtain ⟨count, rfl⟩ : ∃ count : Nat, power = count := ⟨power.natAbs, by omega⟩
    rw [if_pos (by omega), if_neg below, zpow_natCast, Int.natAbs_natCast, Nat.pow_eq]
    push_cast
    ring

/-- Two factors bring a power of two and a power of ten to whole numbers. -/
theorem factors_spec (binary decimal : Int) :
    ((factors binary decimal).1 : ℚ) * 10 ^ decimal = (factors binary decimal).2 * 2 ^ binary := by
  have twos := factor_spec (show 0 < 2 by decide) binary
  have tens := factor_spec (show 0 < 10 by decide) decimal
  simp only [factors, twoTo, tenTo, Nat.cast_mul]
  rw [twos, tens]
  push_cast
  ring

theorem factors_pos (binary decimal : Int) : 0 < (factors binary decimal).1 := by
  simp only [factors, Nat.pow_eq]
  apply Nat.mul_pos
  · split <;> positivity
  · split <;> positivity

/-- A multiple of a power of ten in an interval is not above the end of the interval. -/
theorem value_le_of_contains {i : Interval} {coefficient : Nat} {exponent : Int}
    (inside : i.contains coefficient exponent = true) :
    valueOf false coefficient exponent ≤ i.high * 2 ^ i.exponent := by
  have order : coefficient * (factors i.exponent exponent).2 ≤
      i.high * (factors i.exponent exponent).1 := by
    simp only [Interval.contains] at inside
    split at inside <;>
      simp only [Bool.and_eq_true, decide_eq_true_eq] at inside <;> omega
  have level := factors_spec i.exponent exponent
  have positive : (0 : ℚ) < (factors i.exponent exponent).1 := by
    exact_mod_cast factors_pos i.exponent exponent
  have scaled : (coefficient : ℚ) * (factors i.exponent exponent).2 ≤
      i.high * (factors i.exponent exponent).1 := by exact_mod_cast order
  have two : (0 : ℚ) < 2 ^ i.exponent := by positivity
  rw [valueOf_false]
  apply le_of_mul_le_mul_left _ positive
  calc (factors i.exponent exponent).1 * ((coefficient : ℚ) * 10 ^ exponent)
      = coefficient * (factors i.exponent exponent).2 * 2 ^ i.exponent := by
        rw [mul_left_comm, level]
        ring
    _ ≤ i.high * (factors i.exponent exponent).1 * 2 ^ i.exponent := by gcongr
    _ = (factors i.exponent exponent).1 * (i.high * 2 ^ i.exponent) := by ring

/-- What the search needs to find: a decimal that is not zero, has no exponent below a given one
and no value above a given one. -/
structure Within (low : Int) (limit : ℚ) (short : ShortDecimal) : Prop where
  nonzero : short.coefficient ≠ 0
  low : low ≤ short.exponent
  value : valueOf false short.coefficient short.exponent ≤ limit

theorem onGrid?_within {i : Interval} {exponent : Int} {found : ShortDecimal}
    (hit : onGrid? i exponent = some found) :
    Within exponent (i.high * 2 ^ i.exponent) found := by
  simp only [onGrid?] at hit
  split at hit
  · rename_i low high
    rw [Bool.and_eq_true, decide_eq_true_eq] at low
    split at hit
    · obtain rfl := Option.some.inj hit
      exact ⟨low.2, le_rfl, value_le_of_contains low.1⟩
    · obtain rfl := Option.some.inj hit
      exact ⟨Nat.succ_ne_zero _, le_rfl, value_le_of_contains high⟩
  · rename_i low _
    rw [Bool.and_eq_true, decide_eq_true_eq] at low
    obtain rfl := Option.some.inj hit
    exact ⟨low.2, le_rfl, value_le_of_contains low.1⟩
  · rename_i high
    obtain rfl := Option.some.inj hit
    exact ⟨Nat.succ_ne_zero _, le_rfl, value_le_of_contains high⟩
  · contradiction

/-- Where no grid has a decimal the search gives four times the significand. -/
theorem search_within {i : Interval} {first low : Int} {limit : ℚ} (grids count : Nat)
    (given : i.value ≠ 0) (last : low ≤ 0) (reached : low ≤ first - (count + grids : Nat) + 1)
    (inside : (i.high : ℚ) * 2 ^ i.exponent ≤ limit) (most : (i.value : ℚ) ≤ limit) :
    Within low limit (search i first grids count) := by
  induction grids generalizing count with
  | zero =>
    rw [search]
    exact ⟨given, last, by simpa [valueOf_false] using most⟩
  | succ grids ih =>
    rw [search]
    split
    · rename_i found hit
      have within := onGrid?_within hit
      have low' := within.low
      exact ⟨within.nonzero, by omega, le_trans within.value inside⟩
    · exact ih (count + 1) (by omega)

theorem firstExponent_ge (numerator denominator : Nat) :
    -(digitCount denominator : Int) ≤ firstExponent numerator denominator := by
  have count := digitCount_pos numerator
  simp only [firstExponent]
  split <;> omega

/-- Below every exponent that the search for a double tries. -/
def leastShort : Int := -1100

/-- Above the first digit of every double. -/
def mostShort : Int := 1100

theorem digitCount_denominator (significand : Nat) {exponent : Int}
    (least : Double.leastExponent ≤ exponent) :
    digitCount (Double.fraction significand exponent).2 ≤ 1075 := by
  rw [Double.leastExponent] at least
  by_cases below : exponent < 0
  · rw [Double.fraction, if_pos below]
    have count := digitCount_twoTo exponent.natAbs
    dsimp only
    omega
  · rw [Double.fraction, if_neg below]
    have count : digitCount 1 = 1 := rfl
    dsimp only
    omega

theorem decimal_within {significand : Nat} {exponent : Int} {limit : ℚ}
    (nonzero : significand ≠ 0) (least : Double.leastExponent ≤ exponent)
    (inside : ((4 * significand + 2 : Nat) : ℚ) * 2 ^ (exponent - 2) ≤ limit)
    (most : ((4 * significand : Nat) : ℚ) ≤ limit) :
    Within leastShort limit (decimal significand exponent) := by
  have opened : decimal significand exponent = search (interval significand exponent)
      (firstExponent (Double.fraction significand exponent).1
        (Double.fraction significand exponent).2) 17 1 := rfl
  have denominator := digitCount_denominator significand least
  have first := firstExponent_ge (Double.fraction significand exponent).1
    (Double.fraction significand exponent).2
  rw [opened]
  apply search_within 17 1
  · exact Nat.mul_ne_zero (by decide) nonzero
  · decide
  · rw [leastShort]
    omega
  · exact inside
  · exact most

end Shortest

namespace Double

/-! ### The texts of doubles -/

/-- Zeros after the digits of a coefficient, and one more after the point, move the exponent. -/
theorem readFinite?_padded (negative : Bool) {coefficient count : Nat} {exponent : Int}
    (nonzero : coefficient ≠ 0) (level : (count : Int) = exponent)
    (small : valueOf false coefficient exponent ≤ 10 ^ Shortest.mostShort) :
    ∃ coefficient' exponent',
      Decimal.readFinite? negative
        (digits coefficient ++ List.replicate count '0' ++ '.' :: (['0'] ++ [])) =
          some (.finite negative coefficient' exponent') ∧
        valueOf negative coefficient' exponent' = valueOf negative coefficient exponent := by
  have plain : ∀ c ∈ digits coefficient ++ List.replicate count '0', c.isDigit = true := by
    intro c member
    rcases List.mem_append.mp member with left | right
    · exact plain_of_mem_digits left
    · exact Decimal.replicate_zero_plain c right
  have given : digits coefficient ++ List.replicate count '0' ≠ [] := by
    simp [digits_ne_nil]
  have unscaled : Decimal.readScale? [] = some 0 := rfl
  have padded : ofDigits (digits coefficient ++ List.replicate count '0' ++ ['0']) =
      coefficient * 10 ^ (count + 1) := by
    rw [List.append_assoc, ← List.replicate_succ', ofDigits_append (fun _ => plain_of_mem_digits)
      Decimal.replicate_zero_plain, ofDigits_digits, ofDigits_zeros, List.length_replicate,
      Nat.add_zero]
  have moved : ∀ sign, valueOf sign (coefficient * 10 ^ (count + 1)) (-1) =
      valueOf sign coefficient exponent := by
    intro sign
    have back : -1 + ((count + 1 : Nat) : Int) = exponent := by omega
    rw [valueOf_shift, back]
  have high : Decimal.firstExponent (coefficient * 10 ^ (count + 1)) (-1) ≤
      Shortest.mostShort := by
    apply firstExponent_le_of_value
    · exact Nat.mul_ne_zero nonzero (by positivity)
    · rw [moved]
      exact small
  refine ⟨coefficient * 10 ^ (count + 1), -1, ?_, moved negative⟩
  rw [Decimal.readFinite?_point (List.append_ne_nil_of_left_ne_nil given _) plain
    Decimal.zero_plain unscaled, padded]
  exact Decimal.limited?_of_bounds negative (by decide) (le_trans high (by decide))

/-- The digits of an exponent, of which there are two at least. -/
def padded (n : Nat) : List Char := if (digits n).length < 2 then '0' :: digits n else digits n

theorem padded_ne_nil (n : Nat) : padded n ≠ [] := by
  rw [padded]
  split
  · simp
  · exact digits_ne_nil n

theorem padded_plain {n : Nat} : ∀ c ∈ padded n, c.isDigit = true := by
  intro c member
  rw [padded] at member
  split at member
  · rcases List.mem_cons.mp member with rfl | digit
    · decide
    · exact plain_of_mem_digits digit
  · exact plain_of_mem_digits member

theorem ofDigits_padded (n : Nat) : ofDigits (padded n) = n := by
  rw [padded]
  split
  · exact (Decimal.ofDigits_leading 1 fun _ => plain_of_mem_digits).trans (ofDigits_digits n)
  · exact ofDigits_digits n

/-- A whole value is written with its zeros, and with one more after the point. -/
theorem placePoint_whole {coefficient count : Nat} {exponent : Int}
    (level : (count : Int) = exponent) :
    (Decimal.placePoint (digits coefficient) (exponent + digitCount coefficient) ++ ".0").toList =
      digits coefficient ++ List.replicate count '0' ++ '.' :: (['0'] ++ []) := by
  have long := digitCount_pos coefficient
  have length : (digits coefficient).length = digitCount coefficient := rfl
  have place : exponent + digitCount coefficient =
      ((digitCount coefficient + count : Nat) : Int) := by omega
  have left : digitCount coefficient + count - (digits coefficient).length = count := by omega
  rw [String.toList_append, place, Decimal.placePoint_after (by omega) (by omega), left]
  rfl

theorem numeral_whole (coefficient count : Nat) :
    Decimal.Numeral
      (digits coefficient ++ List.replicate count '0' ++ '.' :: (['0'] ++ [])) := by
  rw [List.append_assoc]
  have plain : ∀ c ∈ digits coefficient, c.isDigit = true := fun _ => plain_of_mem_digits
  apply (Decimal.numeral_of_digits (digits_ne_nil coefficient) plain).append
  intro c member
  rcases List.mem_append.mp member with zero | point
  · exact Decimal.spells_of_isDigit (Decimal.replicate_zero_plain c zero)
  · rcases List.mem_cons.mp point with rfl | last
    · decide
    · exact Decimal.spells_of_isDigit (Decimal.zero_plain c last)

/-- The digits of a double with its exponent read back as they are. -/
theorem read?_scaledText (negative : Bool) {coefficient : Nat} {exponent scale : Int}
    (least : Decimal.leastExponent ≤ exponent)
    (most : Decimal.firstExponent coefficient exponent ≤ Decimal.largestExponent)
    (level : exponent + digitCount coefficient - 1 = scale) :
    Decimal.read? ((Decimal.signText negative).toList ++
      (Decimal.placePoint (digits coefficient) 1 ++ "e" ++ (if scale < 0 then "-" else "+") ++
        String.ofList (padded scale.natAbs)).toList) =
          some (.finite negative coefficient exponent) := by
  have long := digitCount_pos coefficient
  have scaled := Decimal.readScale?_signed (show 'e'.toLower = 'e' by decide) scale
    (padded_ne_nil scale.natAbs) padded_plain (ofDigits_padded scale.natAbs)
  have written : (Decimal.placePoint (digits coefficient) 1 ++ "e" ++
      (if scale < 0 then "-" else "+") ++ String.ofList (padded scale.natAbs)).toList =
        (Decimal.placePoint (digits coefficient) 1).toList ++
          'e' :: (if scale < 0 then '-' else '+') :: padded scale.natAbs := by
    by_cases below : scale < 0 <;> simp [below]
  rw [written]
  apply Decimal.read?_placed negative least most (by omega) scaled
    (Decimal.spells_signed (by decide) _ padded_plain)
  omega

/-- What the text of a nonzero double writes reads back with the same value. -/
theorem read?_finiteText (negative : Bool) {coefficient : Nat} {exponent : Int}
    (nonzero : coefficient ≠ 0) (low : Shortest.leastShort ≤ exponent)
    (small : valueOf false coefficient exponent ≤ 10 ^ Shortest.mostShort) :
    ∃ coefficient' exponent',
      Decimal.read? ((Decimal.signText negative).toList ++
        (finiteText coefficient exponent).toList) =
          some (.finite negative coefficient' exponent') ∧
        valueOf negative coefficient' exponent' = valueOf negative coefficient exponent := by
  obtain ⟨trimmed, above, -⟩ := Decimal.reduced_spec false exponent nonzero
  have value := fun sign => Decimal.reduced_value sign coefficient exponent
  rw [← value false] at small
  rw [← value negative]
  simp only [finiteText]
  generalize (Decimal.reduced coefficient exponent).1 = short at *
  generalize (Decimal.reduced coefficient exponent).2 = power at *
  clear value
  have given : short ≠ 0 := by
    rintro rfl
    exact trimmed rfl
  have count : (digits short).length = digitCount short := rfl
  have least : Decimal.leastExponent ≤ power := by
    rw [Decimal.leastExponent]
    rw [Shortest.leastShort] at low
    omega
  have most : Decimal.firstExponent short power ≤ Decimal.largestExponent :=
    le_trans (firstExponent_le_of_value given small) (by decide)
  simp only [count]
  by_cases plain : -4 < power + digitCount short ∧ power + digitCount short ≤ 16
  · rw [if_pos plain]
    by_cases whole : (digitCount short : Int) ≤ power + digitCount short
    · obtain ⟨zeros, level⟩ : ∃ zeros : Nat, (zeros : Int) = power := ⟨power.toNat, by omega⟩
      rw [if_pos whole, placePoint_whole level,
        Decimal.read?_numeral negative (numeral_whole short zeros)]
      exact readFinite?_padded negative given level small
    · have unscaled : Decimal.readScale? [] = some 0 := rfl
      rw [if_neg whole]
      refine ⟨short, power, ?_, rfl⟩
      simpa using Decimal.read?_placed negative least most (by omega) unscaled (by simp) (by omega)
  · rw [if_neg plain]
    exact ⟨short, power, read?_scaledText negative least most rfl, rfl⟩

/-! ### The values of doubles -/

/-- The doubles of the format. -/
def hasPlace (significand : Nat) (exponent : Int) : Bool :=
  significand < twoTo 53 && leastExponent ≤ exponent && exponent ≤ greatestExponent

/-- The value of the decimal that a double is written as. -/
def writtenValue (negative : Bool) (significand : Nat) (exponent : Int) : ℚ :=
  if significand = 0 then 0
  else valueOf negative (Shortest.decimal significand exponent).coefficient
    (Shortest.decimal significand exponent).exponent

theorem hasPlace_bounds {significand : Nat} {exponent : Int}
    (placed : hasPlace significand exponent = true) :
    (significand < 9007199254740992 ∧ leastExponent ≤ exponent) ∧ exponent ≤ 971 := by
  simp only [hasPlace, Bool.and_eq_true, decide_eq_true_eq] at placed
  exact placed

/-- The significand of a double and the end of its interval have seventeen digits at most. -/
theorem significand_le {significand : Nat} (below : significand < 9007199254740992) :
    ((4 * significand : Nat) : ℚ) ≤ 10 ^ (17 : Int) ∧
      ((4 * significand + 2 : Nat) : ℚ) ≤ 10 ^ (17 : Int) := by
  have limit : (10 : ℚ) ^ (17 : Int) = (100000000000000000 : Nat) := by norm_num
  rw [limit]
  constructor <;> (norm_cast; omega)

theorem decimal_small {significand : Nat} {exponent : Int}
    (placed : hasPlace significand exponent = true) (nonzero : significand ≠ 0) :
    Shortest.Within Shortest.leastShort (10 ^ Shortest.mostShort)
      (Shortest.decimal significand exponent) := by
  obtain ⟨⟨below, least⟩, most⟩ := hasPlace_bounds placed
  obtain ⟨value, high⟩ := significand_le below
  have power : (2 : ℚ) ^ (exponent - 2) ≤ 10 ^ (1000 : Int) :=
    calc (2 : ℚ) ^ (exponent - 2) ≤ 2 ^ (1000 : Int) :=
          zpow_le_zpow_right₀ (by norm_num) (by omega)
      _ ≤ 10 ^ (1000 : Int) := zpow_le_zpow_left₀ (by decide) (by norm_num) (by norm_num)
  have wide : (10 : ℚ) ^ (17 : Int) ≤ 10 ^ Shortest.mostShort :=
    zpow_le_zpow_right₀ (by norm_num) (by decide)
  apply Shortest.decimal_within nonzero least
  · calc ((4 * significand + 2 : Nat) : ℚ) * 2 ^ (exponent - 2)
        ≤ 10 ^ (17 : Int) * 10 ^ (1000 : Int) := by gcongr
      _ = 10 ^ (17 + 1000 : Int) := (zpow_add₀ ten_ne_zero 17 1000).symm
      _ ≤ 10 ^ Shortest.mostShort := zpow_le_zpow_right₀ (by norm_num) (by decide)
  · exact le_trans value wide

/-- A double that is not whole has seventeen whole digits at most. -/
theorem decimal_fractional {significand : Nat} {exponent : Int}
    (placed : hasPlace significand exponent = true) (nonzero : significand ≠ 0)
    (fractional : exponent < 0) :
    Shortest.Within Shortest.leastShort (10 ^ (17 : Int))
      (Shortest.decimal significand exponent) := by
  obtain ⟨⟨below, least⟩, -⟩ := hasPlace_bounds placed
  obtain ⟨value, high⟩ := significand_le below
  have power : (2 : ℚ) ^ (exponent - 2) ≤ 1 :=
    zpow_le_one_of_nonpos₀ (by norm_num) (by omega)
  apply Shortest.decimal_within nonzero least
  · calc ((4 * significand + 2 : Nat) : ℚ) * 2 ^ (exponent - 2)
        ≤ 10 ^ (17 : Int) * 1 := by gcongr
      _ = 10 ^ (17 : Int) := mul_one _
  · exact value

theorem text_toList (negative : Bool) {significand : Nat} (exponent : Int)
    (nonzero : significand ≠ 0) :
    (text (finite negative significand exponent)).toList =
      (Decimal.signText negative).toList ++
        (finiteText (Shortest.decimal significand exponent).coefficient
          (Shortest.decimal significand exponent).exponent).toList := by
  rw [text, String.toList_append]
  simp only [if_neg nonzero]

/-- The text of a double reads back as a decimal number of the value that it writes. -/
theorem read?_text (negative : Bool) {significand : Nat} {exponent : Int}
    (placed : hasPlace significand exponent = true) :
    ∃ coefficient exponent',
      Decimal.read? (text (finite negative significand exponent)).toList =
          some (.finite negative coefficient exponent') ∧
        valueOf negative coefficient exponent' = writtenValue negative significand exponent := by
  by_cases zero : significand = 0
  · have written : text (finite negative 0 exponent) = Decimal.signText negative ++ "0.0" := rfl
    refine ⟨0, -1, ?_, ?_⟩
    · rw [zero, written]
      cases negative <;> decide
    · rw [zero, valueOf_zero, writtenValue, if_pos rfl]
  · have within := decimal_small placed zero
    rw [text_toList negative exponent zero, writtenValue, if_neg zero]
    exact read?_finiteText negative within.nonzero within.low within.value

theorem fractional_of_whole? {significand : Nat} {exponent : Int}
    (fractional : whole? significand exponent = none) : significand ≠ 0 ∧ exponent < 0 := by
  constructor
  · rintro rfl
    simp [whole?, fraction] at fractional
    split at fractional <;> simp at fractional
  · by_contra whole
    simp [whole?, fraction, whole, Nat.mod_one] at fractional

/-- The decimal number that stands for a double that is not whole. -/
theorem toDecimal_of_fractional {significand : Nat} {exponent : Int}
    (placed : hasPlace significand exponent = true)
    (fractional : whole? significand exponent = none) :
    ∃ coefficient exponent', toDecimal (finite false significand exponent) =
        .finite false coefficient exponent' ∧
      Decimal.firstExponent coefficient exponent' ≤ 17 := by
  obtain ⟨nonzero, below⟩ := fractional_of_whole? fractional
  obtain ⟨coefficient, exponent', read, value⟩ := read?_text false placed
  have within := decimal_fractional placed nonzero below
  rw [writtenValue, if_neg nonzero] at value
  have given : coefficient ≠ 0 := by
    rintro rfl
    rw [valueOf_zero] at value
    exact absurd value (valueOf_pos within.nonzero _).ne
  refine ⟨coefficient, exponent', by rw [toDecimal, read]; rfl, ?_⟩
  exact firstExponent_le_of_value given (value ▸ within.value)

end Double

/-! ### Numbers of every kind -/

/-- The value of a decimal number that is finite. -/
def Decimal.value? : Decimal → Option ℚ
  | finite negative coefficient exponent => some (valueOf negative coefficient exponent)
  | _ => none

/-- The finite numbers: whole numbers that have a text, the doubles of the format, and the decimal
numbers that can be written. -/
def isFinite : Number → Bool
  | int i => digitCount i.natAbs ≤ digitLimit
  | double (.finite _ significand exponent) => Double.hasPlace significand exponent
  | decimal (.finite _ coefficient exponent) =>
    Decimal.leastExponent ≤ exponent &&
      Decimal.firstExponent coefficient exponent ≤ Decimal.largestExponent
  | _ => false

/-- The value of a finite number. A double has that of the decimal that it is written as. -/
def value : Number → ℚ
  | int i => i
  | double (.finite negative significand exponent) =>
    Double.writtenValue negative significand exponent
  | decimal (.finite negative coefficient exponent) => valueOf negative coefficient exponent
  | _ => 0

theorem isWritable_of_isFinite {number : Number} (finite : number.isFinite = true) :
    number.isWritable = true := by
  cases number with
  | int i => exact finite
  | _ => rfl

theorem written_of_isWritable {number : Number} (writable : number.isWritable = true) :
    number.written = .ok number.text := by
  rw [written, if_pos writable]

theorem valueOf_int (i : Int) : valueOf (decide (i < 0)) i.natAbs 0 = i := by
  by_cases below : i < 0
  · rw [decide_eq_true below, valueOf_true, valueOf_false, zpow_zero, mul_one]
    have whole : ((i.natAbs : Int) : ℚ) = -(i : ℚ) := by
      rw [Int.ofNat_natAbs_of_nonpos below.le]
      push_cast
      rfl
    rw [Int.cast_natCast] at whole
    rw [whole, neg_neg]
  · rw [decide_eq_false below, valueOf_false, zpow_zero, mul_one]
    have whole : ((i.natAbs : Int) : ℚ) = (i : ℚ) := by
      rw [Int.natAbs_of_nonneg (by omega)]
    rwa [Int.cast_natCast] at whole

/-- The text of a finite number reads back as a decimal number of its value. -/
theorem read?_of_isFinite {number : Number} (finite : number.isFinite = true) :
    ∃ negative coefficient exponent,
      Decimal.read? number.text.toList = some (.finite negative coefficient exponent) ∧
        valueOf negative coefficient exponent = number.value := by
  cases number with
  | int i =>
    have fits : digitCount i.natAbs ≤ digitLimit := by simpa [isFinite] using finite
    exact ⟨_, _, _, Decimal.read?_intText i fits, valueOf_int i⟩
  | double d =>
    cases d with
    | finite negative significand exponent =>
      obtain ⟨coefficient, exponent', read, same⟩ := Double.read?_text negative finite
      exact ⟨negative, coefficient, exponent', read, same⟩
    | infinity negative => simp [isFinite] at finite
    | nan => simp [isFinite] at finite
  | decimal d =>
    cases d with
    | finite negative coefficient exponent =>
      simp only [isFinite, Bool.and_eq_true, decide_eq_true_eq] at finite
      exact ⟨_, _, _, Decimal.read?_text negative finite.1 finite.2, rfl⟩
    | infinity negative => simp [isFinite] at finite
    | nan negative signaling payload => simp [isFinite] at finite

end Phrasebook.Number

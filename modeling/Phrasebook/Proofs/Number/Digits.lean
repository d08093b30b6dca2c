import Mathlib.Algebra.Group.Nat.Defs
import Phrasebook.Number.Digits
import Phrasebook.Proofs.Text.Class

set_option autoImplicit false

/-!
The decimal digits of a number read back as the number, and the text of a whole number is the text of no
other.
-/
namespace Phrasebook.Number

theorem decimalValue?_of_isDigit {c : Char} (digit : c.isDigit = true) :
    Text.decimalValue? c = some (c.toNat - 48) := by
  have bounds := Text.isDigit_iff.mp digit
  rw [Text.decimalValue?, Text.decimalZeros, List.find?_cons_of_pos (by simp; omega)]
  rfl

theorem isDigit_of_plain {c : Char} (digit : c.isDigit = true) : Text.isDigit c = true := by
  simp [Text.isDigit, decimalValue?_of_isDigit digit]

theorem not_blank_of_plain {c : Char} (digit : c.isDigit = true) : Text.isBlank c = false := by
  have bounds := Text.isDigit_iff.mp digit
  simp [Text.isBlank, Text.isBlankCode, Text.within, Text.blankRanges]
  omega

theorem toLower_of_isDigit {c : Char} (digit : c.isDigit = true) : c.toLower = c := by
  have bounds := Text.isDigit_iff.mp digit
  apply dif_neg
  rintro ⟨above, -⟩
  have above : 65 ≤ c.toNat := by simpa [UInt32.le_iff_toNat_le] using above
  omega

theorem plain_of_mem_digits {n : Nat} {c : Char} (member : c ∈ digits n) : c.isDigit = true :=
  Nat.isDigit_of_mem_toDigits (by decide) (by decide) member

theorem digits_ne_nil (n : Nat) : digits n ≠ [] := Nat.toDigits_ne_nil

theorem toString_toList (n : Nat) : (toString n).toList = digits n := by
  simp [digits]

theorem digitCount_pos (n : Nat) : 0 < digitCount n := List.length_pos_iff.mpr (digits_ne_nil n)

theorem digitCount_le_iff {n count : Nat} (positive : 0 < count) :
    digitCount n ≤ count ↔ n < 10 ^ count :=
  Nat.length_toDigits_le_iff (by decide) positive

theorem lt_tenTo_digitCount (n : Nat) : n < 10 ^ digitCount n :=
  (digitCount_le_iff (digitCount_pos n)).mp (Nat.le_refl _)

theorem foldl_eq_ofDigitChars {chars : List Char} (plain : ∀ c ∈ chars, c.isDigit = true)
    (start : Nat) :
    chars.foldl (fun value c => 10 * value + (Text.decimalValue? c).getD 0) start =
      Nat.ofDigitChars 10 chars start := by
  rw [Nat.ofDigitChars_eq_foldl]
  induction chars generalizing start with
  | nil => rfl
  | cons c chars ih =>
    have first := decimalValue?_of_isDigit (plain c (by simp))
    rw [List.foldl_cons, List.foldl_cons, first, ih fun d member => plain d (by simp [member])]
    rfl

theorem ofDigits_eq_ofDigitChars {chars : List Char} (plain : ∀ c ∈ chars, c.isDigit = true) :
    ofDigits chars = Nat.ofDigitChars 10 chars 0 :=
  foldl_eq_ofDigitChars plain 0

@[simp] theorem ofDigits_digits (n : Nat) : ofDigits (digits n) = n := by
  rw [ofDigits_eq_ofDigitChars fun _ => plain_of_mem_digits]
  exact Nat.ofDigitChars_ten_toDigits

theorem ofDigits_append {front back : List Char} (plainFront : ∀ c ∈ front, c.isDigit = true)
    (plainBack : ∀ c ∈ back, c.isDigit = true) :
    ofDigits (front ++ back) = ofDigits front * 10 ^ back.length + ofDigits back := by
  have plain : ∀ c ∈ front ++ back, c.isDigit = true := by
    intro c member
    rcases List.mem_append.mp member with left | right
    · exact plainFront c left
    · exact plainBack c right
  rw [ofDigits_eq_ofDigitChars plain, ofDigits_eq_ofDigitChars plainFront,
    ofDigits_eq_ofDigitChars plainBack, Nat.ofDigitChars_append,
    Nat.ofDigitChars_eq_ofDigitChars_zero, Nat.mul_comm]

/-- A run of digits writes a number with no more digits. -/
theorem ofDigits_lt {chars : List Char} (plain : ∀ c ∈ chars, c.isDigit = true) :
    ofDigits chars < 10 ^ chars.length := by
  induction chars with
  | nil => exact Nat.one_pos
  | cons c rest ih =>
    have first := Text.isDigit_iff.mp (plain c List.mem_cons_self)
    have later := ih fun d member => plain d (List.mem_cons_of_mem _ member)
    have single : ofDigits [c] = c.toNat - 48 := by
      rw [ofDigits, List.foldl_cons, decimalValue?_of_isDigit (plain c List.mem_cons_self)]
      simp
    have small : ofDigits [c] * 10 ^ rest.length ≤ 9 * 10 ^ rest.length :=
      Nat.mul_le_mul_right _ (by omega)
    rw [← List.singleton_append, ofDigits_append (by simpa using plain c List.mem_cons_self)
      fun d member => plain d (List.mem_cons_of_mem _ member), List.length_append,
      List.length_singleton, Nat.pow_add, Nat.pow_one]
    omega

theorem ofDigits_zeros (count : Nat) : ofDigits (List.replicate count '0') = 0 := by
  rw [ofDigits_eq_ofDigitChars (by simp +contextual [List.mem_replicate]),
    Nat.ofDigitChars_replicate_zero, Nat.mul_zero]

/-! ### Whole numbers -/

theorem digits_injective {n m : Nat} (same : digits n = digits m) : n = m := by
  rw [← ofDigits_digits n, same, ofDigits_digits]

theorem intText_toList (i : Int) :
    (intText i).toList = (if i < 0 then ['-'] else []) ++ digits i.natAbs := by
  cases i with
  | ofNat n => simp [intText]
  | negSucc n =>
    have below : Int.negSucc n < 0 := Int.negSucc_lt_zero n
    simp [intText, below]

theorem mem_intText {i : Int} {c : Char} (member : c ∈ (intText i).toList) :
    c = '-' ∨ c.isDigit = true := by
  rw [intText_toList, List.mem_append] at member
  rcases member with sign | digit
  · split at sign
    · exact .inl (List.mem_singleton.mp sign)
    · cases sign
  · exact .inr (plain_of_mem_digits digit)

theorem intText_ne_nil (i : Int) : (intText i).toList ≠ [] := by
  simp [intText_toList, digits_ne_nil]

theorem intText_injective {i j : Int} (same : (intText i).toList = (intText j).toList) : i = j := by
  have unsigned : ∀ n rest, digits n ≠ '-' :: rest := by
    intro n rest signed
    have digit := plain_of_mem_digits (signed ▸ List.mem_cons_self)
    cases digit
  rw [intText_toList, intText_toList] at same
  split at same <;> split at same
  · have size := digits_injective (List.append_cancel_left same)
    omega
  · exact absurd same.symm (unsigned _ _)
  · exact absurd same (unsigned _ _)
  · have size := digits_injective same
    omega

end Phrasebook.Number

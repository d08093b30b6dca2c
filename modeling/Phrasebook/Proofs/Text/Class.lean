import Phrasebook.Text.Class

set_option autoImplicit false

/-!
Classes of characters: runs of characters of one class, and classes that have nothing in common.
-/
namespace Phrasebook.Text

/-! ### Runs -/

section Runs

variable {p : Char → Bool} {run rest : List Char}

theorem takeWhile_run (inside : ∀ c ∈ run, p c = true) (stops : ∀ c ∈ rest.head?, p c = false) :
    (run ++ rest).takeWhile p = run := by
  rw [List.takeWhile_append_of_pos inside]
  cases rest with
  | nil => rw [List.takeWhile_nil, List.append_nil]
  | cons c rest => rw [List.takeWhile_cons_of_neg (by simp [stops c rfl]), List.append_nil]

/-- A run at the start of a text does not go on in what comes after the text and stops it. -/
theorem takeWhile_append_of_stops (text : List Char) (stops : ∀ c ∈ rest.head?, p c = false) :
    (text ++ rest).takeWhile p = text.takeWhile p := by
  induction text with
  | nil => exact takeWhile_run nofun stops
  | cons c text ih =>
    rw [List.cons_append, List.takeWhile_cons, List.takeWhile_cons, ih]

theorem dropWhile_run (inside : ∀ c ∈ run, p c = true) (stops : ∀ c ∈ rest.head?, p c = false) :
    (run ++ rest).dropWhile p = rest := by
  rw [List.dropWhile_append_of_pos inside]
  cases rest with
  | nil => rfl
  | cons c rest => rw [List.dropWhile_cons_of_neg (by simp [stops c rfl])]

end Runs

theorem within_iff {ranges : List (Nat × Nat)} {code : Nat} :
    within ranges code = true ↔ ∃ range ∈ ranges, range.1 ≤ code ∧ code ≤ range.2 := by
  simp [within]

/-! ### Letters and digits of ASCII -/

theorem isUpper_iff {c : Char} : c.isUpper = true ↔ 0x41 ≤ c.toNat ∧ c.toNat ≤ 0x5A := by
  change decide (c.val ≥ 'A'.val ∧ c.val ≤ 'Z'.val) = true ↔ _
  rw [decide_eq_true_eq]
  exact Iff.rfl

theorem isLower_iff {c : Char} : c.isLower = true ↔ 0x61 ≤ c.toNat ∧ c.toNat ≤ 0x7A := by
  change (decide (c.val ≥ 'a'.val) && decide (c.val ≤ 'z'.val)) = true ↔ _
  rw [Bool.and_eq_true, decide_eq_true_eq, decide_eq_true_eq]
  exact Iff.rfl

theorem isDigit_iff {c : Char} : c.isDigit = true ↔ 0x30 ≤ c.toNat ∧ c.toNat ≤ 0x39 :=
  Char.isDigit_iff_toNat

theorem isAlpha_iff {c : Char} : c.isAlpha = true ↔ c.isUpper = true ∨ c.isLower = true := by
  change (c.isUpper || c.isLower) = true ↔ _
  rw [Bool.or_eq_true]

theorem isAlphanum_iff {c : Char} :
    c.isAlphanum = true ↔ c.isAlpha = true ∨ c.isDigit = true := by
  change (c.isAlpha || c.isDigit) = true ↔ _
  rw [Bool.or_eq_true]

theorem toLower_eq_or_isUpper (c : Char) : c.toLower = c ∨ c.isUpper = true := by
  by_cases upper : c.isUpper = true
  · exact .inr upper
  · refine .inl (dif_neg fun range => upper ?_)
    exact isUpper_iff.mpr range

/-! ### Blanks and words -/

/-- No range of blanks meets a range of word characters. -/
theorem blankRanges_apart : ∀ blank ∈ blankRanges, ∀ word ∈ wordRanges,
    blank.2 < word.1 ∨ word.2 < blank.1 := by
  decide +kernel

theorem blankRanges_low : ∀ blank ∈ blankRanges,
    0x80 ≤ blank.1 ∨ blank.2 < 0x30 := by
  decide

/-- No blank is part of a word. -/
theorem isWord_of_isBlank {c : Char} (blank : isBlank c = true) : isWord c = false := by
  obtain ⟨range, listed, first, last⟩ := within_iff.mp blank
  rw [isWord, Bool.eq_false_iff]
  intro word
  split at word
  · -- below 0x80, digits and letters start at 0x30
    rename_i ascii
    have low : c.toNat < 0x30 := by
      rcases blankRanges_low range listed with high | low
      · omega
      · omega
    rw [Bool.or_eq_true, decide_eq_true_eq, isAlphanum_iff, isAlpha_iff, isUpper_iff, isLower_iff,
      isDigit_iff] at word
    rcases word with letter | rfl
    · omega
    · exact absurd low (by decide)
  · obtain ⟨other, member, from_, upTo⟩ := within_iff.mp word
    rcases blankRanges_apart range listed other member with before | after
    · omega
    · omega

/-- No decimal digit is a blank. -/
theorem isBlank_of_decimal {c : Char} (digit : (decimalValue? c).isSome = true) :
    isBlank c = false := by
  have apart : ∀ first ∈ decimalZeros, ∀ range ∈ blankRanges,
      first + 9 < range.1 ∨ range.2 < first := by
    decide
  rw [decimalValue?, Option.isSome_map, List.find?_isSome] at digit
  obtain ⟨first, listed, bounds⟩ := digit
  rw [Bool.and_eq_true, decide_eq_true_iff, decide_eq_true_iff] at bounds
  rw [Bool.eq_false_iff]
  intro blank
  obtain ⟨range, member, low, high⟩ := within_iff.mp blank
  have := apart first listed range member
  omega

theorem isDigit_of_isBlank {c : Char} (blank : isBlank c = true) : isDigit c = false := by
  have apart : ∀ digits ∈ isolatedDigitRanges, ∀ range ∈ blankRanges,
      digits.2 < range.1 ∨ range.2 < digits.1 := by
    decide
  rw [isDigit, Bool.or_eq_false_iff]
  constructor
  · rw [Bool.eq_false_iff]
    intro decimal
    rw [isBlank_of_decimal decimal] at blank
    cases blank
  · rw [Bool.eq_false_iff]
    intro digit
    obtain ⟨digits, listed, least, most⟩ := within_iff.mp digit
    obtain ⟨range, member, low, high⟩ := within_iff.mp blank
    have := apart digits listed range member
    omega

theorem isWord_of_isAsciiLetter {c : Char} (letter : isAsciiLetter c = true) : isWord c = true := by
  rw [isAsciiLetter] at letter
  have low : c.toNat < 0x80 := by
    rw [isAlpha_iff, isUpper_iff, isLower_iff] at letter
    omega
  rw [isWord, if_pos low, isAlphanum_iff.mpr (.inl letter), Bool.true_or]

end Phrasebook.Text

import Mathlib.Data.List.TakeWhile
import Phrasebook.Number.Basic
import Phrasebook.Proofs.Number.Value
import Phrasebook.Proofs.Text.Class

set_option autoImplicit false

/-!
Reading the spellings of numbers. The text that is written for a finite number reads back as the
number, with the coefficient and the exponent that it was written with where the text keeps them.
-/
namespace Phrasebook.Number.Decimal

/-! ### The characters of a number -/

/-- The characters that a finite number is spelled with, besides underscores. -/
def spells (c : Char) : Bool :=
  c.isDigit || c = '.' || c = '-' || c = '+' || c = 'e' || c = 'E'

theorem spells_of_isDigit {c : Char} (digit : c.isDigit = true) : spells c = true := by
  simp [spells, digit]

/-- A character of a number is a visible ASCII character other than the underscore. -/
theorem spells_bounds {c : Char} (spelled : spells c = true) :
    c.toNat ≠ 0 ∧ c.toNat < 0x80 ∧ Text.isBlank c = false ∧ c ≠ '_' := by
  simp only [spells, Bool.or_eq_true, decide_eq_true_eq] at spelled
  rcases spelled with ((((digit | rfl) | rfl) | rfl) | rfl) | rfl
  · have bounds := Text.isDigit_iff.mp digit
    refine ⟨by omega, by omega, not_blank_of_plain digit, ?_⟩
    rintro rfl
    exact absurd digit (by decide)
  all_goals decide

theorem dropWhile_of_not {p : Char → Bool} {text : List Char} (none : ∀ c ∈ text, p c = false) :
    text.dropWhile p = text := by
  cases text with
  | nil => rfl
  | cons c rest => exact List.dropWhile_cons_of_neg (by simp [none c])

theorem plainText?_of_ascii {text : List Char}
    (ascii : ∀ c ∈ text, c.toNat < 0x80 ∧ Text.isBlank c = false) :
    plainText? text = (text.filter (· ≠ '_')).mapM plainChar? := by
  rw [plainText?, dropWhile_of_not fun c member => (ascii c member).2, dropWhile_of_not,
    List.reverse_reverse]
  intro c member
  exact (ascii c (List.mem_reverse.mp member)).2

/-- ASCII characters are kept as they are, unless one of them is none at all. -/
theorem mapM_plainChar? {text plain : List Char} (ascii : ∀ c ∈ text, c.toNat < 0x80)
    (kept : text.mapM plainChar? = some plain) : plain = text := by
  induction text generalizing plain with
  | nil => simpa using kept.symm
  | cons c rest ih =>
    rw [List.mapM_cons] at kept
    obtain ⟨first, read, kept⟩ := Option.bind_eq_some_iff.mp kept
    obtain ⟨more, readMore, done⟩ := Option.bind_eq_some_iff.mp kept
    have same := ih (fun d member => ascii d (by simp [member])) readMore
    have plain : first = c := by
      rw [plainChar?, if_pos (ascii c (by simp))] at read
      split at read
      · contradiction
      · simpa using read.symm
    rw [same, plain] at done
    simpa using done.symm

theorem mapM_plainChar?_of_spells {text : List Char} (spelled : ∀ c ∈ text, spells c = true) :
    text.mapM plainChar? = some text := by
  induction text with
  | nil => rfl
  | cons c rest ih =>
    have bounds := spells_bounds (spelled c (by simp))
    rw [List.mapM_cons, ih fun d member => spelled d (by simp [member]), plainChar?,
      if_neg bounds.1, if_pos bounds.2.1]
    rfl

theorem plainText?_of_spells {text : List Char} (spelled : ∀ c ∈ text, spells c = true) :
    plainText? text = some text := by
  have visible : text.filter (· ≠ '_') = text := by
    apply List.filter_eq_self.mpr
    intro c member
    simpa using (spells_bounds (spelled c member)).2.2.2
  rw [plainText?_of_ascii, visible, mapM_plainChar?_of_spells spelled]
  intro c member
  have bounds := spells_bounds (spelled c member)
  exact ⟨bounds.2.1, bounds.2.2.1⟩

theorem read?_of_spells {text : List Char} (spelled : ∀ c ∈ text, spells c = true) :
    read? text = (readSpecial? (splitSign text).1 (splitSign text).2).or
      (readFinite? (splitSign text).1 (splitSign text).2) := by
  rw [read?, plainText?_of_spells spelled]
  rfl

/-- Words that stand for special values begin with one of three letters. -/
theorem readSpecial?_of_not_letter (negative : Bool) {c : Char} (rest : List Char)
    (apart : c.toLower ∉ ['i', 'n', 's']) : readSpecial? negative (c :: rest) = none := by
  have other : ∀ letter ∈ ['i', 'n', 's'], letter ≠ c.toLower := by
    rintro letter member rfl
    exact apart member
  simp [readSpecial?, dropLetters, other]

theorem readSpecial?_of_digit (negative : Bool) {c : Char} (rest : List Char)
    (digit : c.isDigit = true) : readSpecial? negative (c :: rest) = none := by
  apply readSpecial?_of_not_letter
  have bounds := Text.isDigit_iff.mp digit
  have below : ∀ letter ∈ ['i', 'n', 's'], 57 < letter.toNat := by simp
  rw [toLower_of_isDigit digit]
  intro member
  have := below c member
  omega

/-- A text that is spelled like a number and begins with a digit. -/
structure Numeral (text : List Char) : Prop where
  begins : ∃ c rest, text = c :: rest ∧ c.isDigit = true
  spelled : ∀ c ∈ text, spells c = true

theorem Numeral.append {text tail : List Char} (numeral : Numeral text)
    (spelled : ∀ c ∈ tail, spells c = true) : Numeral (text ++ tail) where
  begins := by
    obtain ⟨c, rest, rfl, digit⟩ := numeral.begins
    exact ⟨c, rest ++ tail, rfl, digit⟩
  spelled := by
    intro c member
    rcases List.mem_append.mp member with left | right
    · exact numeral.spelled c left
    · exact spelled c right

theorem numeral_of_digits {ds : List Char} (given : ds ≠ [])
    (plain : ∀ c ∈ ds, c.isDigit = true) : Numeral ds where
  begins := by
    cases ds with
    | nil => contradiction
    | cons c rest => exact ⟨c, rest, rfl, plain c (by simp)⟩
  spelled c member := spells_of_isDigit (plain c member)

theorem signText_toList (negative : Bool) :
    (signText negative).toList = if negative then ['-'] else [] := by
  cases negative <;> rfl

/-- A sign before a numeral is the sign of the number that the numeral writes. -/
theorem read?_numeral (negative : Bool) {text : List Char} (numeral : Numeral text) :
    read? ((signText negative).toList ++ text) = readFinite? negative text := by
  obtain ⟨c, rest, rfl, digit⟩ := numeral.begins
  have split : splitSign ((signText negative).toList ++ c :: rest) = (negative, c :: rest) := by
    rw [signText_toList]
    cases negative with
    | true => rfl
    | false =>
      have minus : c ≠ '-' := by
        rintro rfl
        exact absurd digit (by decide)
      have plus : c ≠ '+' := by
        rintro rfl
        exact absurd digit (by decide)
      simp [splitSign, minus, plus]
  have spelled : ∀ d ∈ (signText negative).toList ++ c :: rest, spells d = true := by
    intro d member
    rcases List.mem_append.mp member with sign | inside
    · rw [signText_toList] at sign
      cases negative with
      | true =>
        rw [if_pos rfl, List.mem_singleton] at sign
        rw [sign]
        decide
      | false => simp at sign
    · exact numeral.spelled d inside
  rw [read?_of_spells spelled, split, readSpecial?_of_digit negative rest digit, Option.none_or]

/-! ### Digits, point and exponent -/

section Parts

variable {negative : Bool} {whole fraction tail ds : List Char} {scale : Int}

theorem takeWhile_digits (plain : ∀ c ∈ ds, c.isDigit = true)
    (stops : ∀ c ∈ tail.head?, c.isDigit = false) :
    (ds ++ tail).takeWhile isPlainDigit = ds :=
  Text.takeWhile_run (p := isPlainDigit) plain stops

theorem dropWhile_digits (plain : ∀ c ∈ ds, c.isDigit = true)
    (stops : ∀ c ∈ tail.head?, c.isDigit = false) :
    (ds ++ tail).dropWhile isPlainDigit = tail :=
  Text.dropWhile_run (p := isPlainDigit) plain stops

/-- The mark of an exponent is neither a digit nor a point. -/
theorem head_of_readScale? (scaled : readScale? tail = some scale) :
    ∀ c ∈ tail.head?, c.isDigit = false ∧ c ≠ '.' := by
  intro c first
  cases tail with
  | nil => simp at first
  | cons mark rest =>
    obtain rfl : mark = c := by simpa using first
    rw [readScale?] at scaled
    split at scaled
    · rename_i lower
      constructor
      · by_contra digit
        rw [Bool.not_eq_false] at digit
        rw [toLower_of_isDigit digit] at lower
        rw [lower] at digit
        exact absurd digit (by decide)
      · rintro rfl
        exact absurd lower (by decide)
    · contradiction

theorem readFraction_of_scale (scaled : readScale? tail = some scale) :
    readFraction tail = ([], tail) := by
  have stops := head_of_readScale? scaled
  cases tail with
  | nil => rfl
  | cons c rest => simp [readFraction, (stops c rfl).2]

theorem readFinite?_whole (given : whole ≠ []) (plain : ∀ c ∈ whole, c.isDigit = true)
    (scaled : readScale? tail = some scale) :
    readFinite? negative (whole ++ tail) = limited? negative (ofDigits whole) scale := by
  have stops : ∀ c ∈ tail.head?, c.isDigit = false := fun c first =>
    (head_of_readScale? scaled c first).1
  rw [readFinite?, takeWhile_digits plain stops, dropWhile_digits plain stops,
    readFraction_of_scale scaled]
  simp [given, scaled]

theorem readFinite?_point (given : whole ++ fraction ≠ []) (plain : ∀ c ∈ whole, c.isDigit = true)
    (plainFraction : ∀ c ∈ fraction, c.isDigit = true) (scaled : readScale? tail = some scale) :
    readFinite? negative (whole ++ '.' :: (fraction ++ tail)) =
      limited? negative (ofDigits (whole ++ fraction)) (scale - fraction.length) := by
  have point : ∀ c ∈ ('.' :: (fraction ++ tail)).head?, c.isDigit = false := by
    intro c first
    obtain rfl : '.' = c := by simpa using first
    decide
  have stops : ∀ c ∈ tail.head?, c.isDigit = false := fun c first =>
    (head_of_readScale? scaled c first).1
  have left : readFraction ('.' :: (fraction ++ tail)) = (fraction, tail) := by
    rw [readFraction, takeWhile_digits plainFraction stops, dropWhile_digits plainFraction stops]
  rw [readFinite?, takeWhile_digits plain point, dropWhile_digits plain point, left]
  dsimp only
  rw [if_neg given, scaled]
  rfl

theorem readExponent?_signed (down : Bool) (given : ds ≠ [])
    (plain : ∀ c ∈ ds, c.isDigit = true) :
    readExponent? ((if down then '-' else '+') :: ds) =
      some (if down then -(ofDigits ds : Int) else ofDigits ds) := by
  have digits : ds.all isPlainDigit = true := List.all_eq_true.mpr plain
  cases down with
  | true => simp [readExponent?, splitSign, given, digits]
  | false => simp [readExponent?, splitSign, given, digits]

/-- An exponent that is written with its sign is read. -/
theorem readScale?_signed {mark : Char} (marked : mark.toLower = 'e') (exponent : Int)
    (given : ds ≠ []) (plain : ∀ c ∈ ds, c.isDigit = true)
    (size : ofDigits ds = exponent.natAbs) :
    readScale? (mark :: (if exponent < 0 then '-' else '+') :: ds) = some exponent := by
  have read := readExponent?_signed (decide (exponent < 0)) given plain
  rw [readScale?, if_pos marked]
  by_cases below : exponent < 0
  · simp only [below, decide_true, if_true] at read ⊢
    rw [read, size]
    congr 1
    omega
  · simp only [below, decide_false, if_false, Bool.false_eq_true] at read ⊢
    rw [read, size]
    congr 1
    omega

/-! ### Plain notation -/

theorem replicate_zero_plain {count : Nat} : ∀ c ∈ List.replicate count '0', c.isDigit = true := by
  intro c member
  rw [(List.mem_replicate.mp member).2]
  decide

theorem zero_plain : ∀ c ∈ ['0'], c.isDigit = true := fun c member => by
  rw [List.mem_singleton.mp member]
  decide

theorem ofDigits_leading (count : Nat) (plain : ∀ c ∈ ds, c.isDigit = true) :
    ofDigits (List.replicate count '0' ++ ds) = ofDigits ds := by
  rw [ofDigits_append replicate_zero_plain plain, ofDigits_zeros, Nat.zero_mul, Nat.zero_add]

theorem placePoint_before {place : Int} (before : place ≤ 0) :
    (placePoint ds place).toList = ['0'] ++ '.' :: (List.replicate place.natAbs '0' ++ ds) := by
  simp [placePoint, before]

theorem placePoint_inside {place : Nat} (positive : 0 < place) (inside : place < ds.length) :
    (placePoint ds place).toList = ds.take place ++ '.' :: ds.drop place := by
  have nonzero : place ≠ 0 := by omega
  simp [placePoint, nonzero, inside]

theorem placePoint_after {place : Nat} (positive : 0 < place) (after : ds.length ≤ place) :
    (placePoint ds place).toList = ds ++ List.replicate (place - ds.length) '0' := by
  have nonzero : place ≠ 0 := by omega
  simp [placePoint, nonzero, Nat.not_lt.mpr after]

/-- A point among the digits, or before them, moves the exponent. -/
theorem readFinite?_placePoint {place : Int} (inside : place ≤ ds.length) (given : ds ≠ [])
    (plain : ∀ c ∈ ds, c.isDigit = true) (scaled : readScale? tail = some scale) :
    readFinite? negative ((placePoint ds place).toList ++ tail) =
      limited? negative (ofDigits ds) (scale + place - ds.length) := by
  by_cases before : place ≤ 0
  · have plainFraction : ∀ c ∈ List.replicate place.natAbs '0' ++ ds, c.isDigit = true := by
      intro c member
      rcases List.mem_append.mp member with left | right
      · exact replicate_zero_plain c left
      · exact plain c right
    have leading : ['0'] ++ (List.replicate place.natAbs '0' ++ ds) =
        List.replicate (place.natAbs + 1) '0' ++ ds := rfl
    have moved : scale - ((List.replicate place.natAbs '0' ++ ds).length : Int) =
        scale + place - ds.length := by
      rw [List.length_append, List.length_replicate]
      omega
    have written : (placePoint ds place).toList ++ tail =
        ['0'] ++ '.' :: (List.replicate place.natAbs '0' ++ ds ++ tail) := by
      rw [placePoint_before before]
      rfl
    rw [written, readFinite?_point (by simp) zero_plain plainFraction scaled, leading,
      ofDigits_leading _ plain, moved]
  · obtain ⟨count, rfl⟩ : ∃ count : Nat, place = count := ⟨place.toNat, by omega⟩
    by_cases last : count < ds.length
    · have front : ds.take count ≠ [] := by
        rw [← List.length_pos_iff, List.length_take]
        omega
      have moved : scale - ((ds.drop count).length : Int) = scale + count - ds.length := by
        rw [List.length_drop]
        omega
      rw [placePoint_inside (by omega) last, List.append_assoc, List.cons_append,
        readFinite?_point (List.append_ne_nil_of_left_ne_nil front _)
          (fun c member => plain c (List.mem_of_mem_take member))
          (fun c member => plain c (List.mem_of_mem_drop member)) scaled,
        List.take_append_drop, moved]
    · have level : count = ds.length := by omega
      have same : scale + (ds.length : Int) - ds.length = scale := by omega
      rw [placePoint_after (by omega) (by omega), level, Nat.sub_self, List.replicate_zero,
        List.append_nil, readFinite?_whole given plain scaled, same]

theorem numeral_placePoint (place : Int) (given : ds ≠ []) (plain : ∀ c ∈ ds, c.isDigit = true) :
    Numeral (placePoint ds place).toList := by
  have spelled : ∀ c ∈ ds, spells c = true := fun c member => spells_of_isDigit (plain c member)
  have zeros : ∀ count, ∀ c ∈ List.replicate count '0', spells c = true := fun _ c member =>
    spells_of_isDigit (replicate_zero_plain c member)
  by_cases before : place ≤ 0
  · rw [placePoint_before before]
    apply (numeral_of_digits (by decide) zero_plain).append
    intro c member
    rcases List.mem_cons.mp member with rfl | member
    · decide
    · rcases List.mem_append.mp member with left | right
      · exact zeros _ c left
      · exact spelled c right
  · obtain ⟨count, rfl⟩ : ∃ count : Nat, place = count := ⟨place.toNat, by omega⟩
    by_cases last : count < ds.length
    · have front : ds.take count ≠ [] := by
        rw [← List.length_pos_iff, List.length_take]
        omega
      rw [placePoint_inside (by omega) last]
      apply (numeral_of_digits front fun c member => plain c (List.mem_of_mem_take member)).append
      intro c member
      rcases List.mem_cons.mp member with rfl | member
      · decide
      · exact spelled c (List.mem_of_mem_drop member)
    · rw [placePoint_after (by omega) (by omega)]
      exact (numeral_of_digits given plain).append (zeros _)

end Parts

/-! ### Texts of whole and decimal numbers -/

theorem limited?_of_bounds (negative : Bool) {coefficient : Nat} {exponent : Int}
    (low : leastExponent ≤ exponent)
    (high : firstExponent coefficient exponent ≤ largestExponent) :
    limited? negative coefficient exponent = some (finite negative coefficient exponent) :=
  if_pos ⟨low, high⟩

/-- Digits with a point, before an exponent or none, read back as the number. -/
theorem read?_placed (negative : Bool) {coefficient : Nat} {exponent place scale : Int}
    {tail : List Char} (low : leastExponent ≤ exponent)
    (high : firstExponent coefficient exponent ≤ largestExponent)
    (inside : place ≤ digitCount coefficient) (scaled : readScale? tail = some scale)
    (spelled : ∀ c ∈ tail, spells c = true)
    (level : scale + place - digitCount coefficient = exponent) :
    read? ((signText negative).toList ++ ((placePoint (digits coefficient) place).toList ++ tail)) =
      some (finite negative coefficient exponent) := by
  have given := digits_ne_nil coefficient
  have plain : ∀ c ∈ digits coefficient, c.isDigit = true := fun _ => plain_of_mem_digits
  have numeral := (numeral_placePoint place given plain).append spelled
  rw [read?_numeral negative numeral, readFinite?_placePoint inside given plain scaled,
    ofDigits_digits, ← limited?_of_bounds negative low high, ← level]
  rfl

theorem exponentText_toList (mark : String) (exponent : Int) :
    (exponentText mark exponent).toList =
      mark.toList ++ (if exponent < 0 then '-' else '+') :: digits exponent.natAbs := by
  rw [exponentText]
  split <;> simp

theorem spells_signed {mark : Char} (marked : spells mark = true) (down : Prop) [Decidable down]
    {ds : List Char} (plain : ∀ c ∈ ds, c.isDigit = true) :
    ∀ c ∈ mark :: (if down then '-' else '+') :: ds, spells c = true := by
  intro c member
  rcases List.mem_cons.mp member with rfl | member
  · exact marked
  · rcases List.mem_cons.mp member with rfl | member
    · split <;> decide
    · exact spells_of_isDigit (plain c member)

/-- The text of a decimal number reads back as the number, coefficient and exponent included. -/
theorem read?_text (negative : Bool) {coefficient : Nat} {exponent : Int}
    (low : leastExponent ≤ exponent)
    (high : firstExponent coefficient exponent ≤ largestExponent) :
    read? (text (finite negative coefficient exponent)).toList =
      some (finite negative coefficient exponent) := by
  have long := digitCount_pos coefficient
  have count : (digits coefficient).length = digitCount coefficient := rfl
  have unscaled : readScale? [] = some 0 := rfl
  rw [text, String.toList_append]
  simp only [count]
  by_cases plain : exponent ≤ 0 ∧ -6 < exponent + digitCount coefficient
  · rw [if_pos plain]
    simpa using read?_placed negative low high (by omega) unscaled (by simp) (by omega)
  · rw [if_neg plain, String.toList_append]
    by_cases level : exponent + digitCount coefficient = 1
    · rw [if_pos level]
      exact read?_placed negative low high (by omega) unscaled (by simp) (by omega)
    · rw [if_neg level, exponentText_toList]
      have scaled := readScale?_signed (show 'E'.toLower = 'e' by decide)
        (exponent + digitCount coefficient - 1) (digits_ne_nil _) (fun _ => plain_of_mem_digits)
        (ofDigits_digits _)
      exact read?_placed negative low high (by omega) scaled
        (spells_signed (by decide) _ fun _ => plain_of_mem_digits) (by omega)

/-- The text of a whole number reads back as the number. -/
theorem read?_intText (i : Int) (fits : digitCount i.natAbs ≤ digitLimit) :
    read? (intText i).toList = some (ofInt i) := by
  have high : firstExponent i.natAbs 0 ≤ largestExponent := by
    simp only [firstExponent, largestExponent, digitLimit] at fits ⊢
    omega
  have limited := limited?_of_bounds (decide (i < 0)) (by decide) high
  have written : (intText i).toList =
      (signText (decide (i < 0))).toList ++ (digits i.natAbs ++ []) := by
    rw [List.append_nil, signText_toList, intText_toList]
    simp only [decide_eq_true_eq]
  have given := digits_ne_nil i.natAbs
  have plain : ∀ c ∈ digits i.natAbs, c.isDigit = true := fun _ => plain_of_mem_digits
  have numeral := numeral_of_digits given plain
  have unscaled : readScale? [] = some 0 := rfl
  rw [written, read?_numeral _ (numeral.append (by simp)),
    readFinite?_whole given plain unscaled, ofDigits_digits, limited, ofInt]

/-! ### The characters that are read -/

theorem eq_of_toLower {c : Char} (lower : c.toLower = 'e') : c = 'e' ∨ c = 'E' := by
  delta Char.toLower at lower
  split at lower
  · rename_i upper
    right
    have below : c.val.toNat ≤ 90 := by simpa [UInt32.le_iff_toNat_le] using upper.2
    have moved := congrArg (fun d : Char => d.val.toNat) lower
    simp only [UInt32.toNat_add, UInt32.toNat_sub] at moved
    apply Char.ext
    apply UInt32.toNat_inj.mp
    change (c.val.toNat + (2 ^ 32 - 65 + 97) % 2 ^ 32) % 2 ^ 32 = 101 at moved
    change c.val.toNat = 69
    omega
  · exact .inl lower

theorem mem_splitSign {text : List Char} {c : Char} (member : c ∈ text) :
    c = '-' ∨ c = '+' ∨ c ∈ (splitSign text).2 := by
  unfold splitSign
  split
  · rcases List.mem_cons.mp member with rfl | inside
    · exact .inl rfl
    · exact .inr (.inr inside)
  · rcases List.mem_cons.mp member with rfl | inside
    · exact .inr (.inl rfl)
    · exact .inr (.inr inside)
  · exact .inr (.inr member)

theorem spells_of_readScale? {text : List Char} {scale : Int}
    (scaled : readScale? text = some scale) : ∀ c ∈ text, spells c = true := by
  cases text with
  | nil => simp
  | cons mark rest =>
    rw [readScale?] at scaled
    split at scaled
    · rename_i lower
      intro c member
      rcases List.mem_cons.mp member with rfl | inside
      · rcases eq_of_toLower lower with rfl | rfl <;> decide
      · rcases mem_splitSign inside with rfl | rfl | digit
        · decide
        · decide
        · simp only [readExponent?, Option.ite_none_right_eq_some] at scaled
          exact spells_of_isDigit (List.all_eq_true.mp scaled.1.2 c digit)
    · contradiction

theorem mem_readFraction {text : List Char} {c : Char} (member : c ∈ text) :
    c = '.' ∨ c.isDigit = true ∨ c ∈ (readFraction text).2 := by
  unfold readFraction
  split
  · rename_i rest
    rcases List.mem_cons.mp member with rfl | inside
    · exact .inl rfl
    · rw [← List.takeWhile_append_dropWhile (p := isPlainDigit) (l := rest)] at inside
      rcases List.mem_append.mp inside with digit | later
      · exact .inr (.inl (List.mem_takeWhile_imp digit))
      · exact .inr (.inr later)
  · exact .inr (.inr member)

theorem spells_of_readFinite? {negative : Bool} {text : List Char} {number : Decimal}
    (read : readFinite? negative text = some number) : ∀ c ∈ text, spells c = true := by
  simp only [readFinite?] at read
  split at read
  · contradiction
  · obtain ⟨scale, scaled, -⟩ := Option.bind_eq_some_iff.mp read
    intro c member
    rw [← List.takeWhile_append_dropWhile (p := isPlainDigit) (l := text)] at member
    rcases List.mem_append.mp member with digit | later
    · exact spells_of_isDigit (List.mem_takeWhile_imp digit)
    · rcases mem_readFraction later with rfl | digit | last
      · decide
      · exact spells_of_isDigit digit
      · exact spells_of_readScale? scaled c last

theorem readSpecial?_not_finite {negative sign : Bool} {text : List Char} {coefficient : Nat}
    {exponent : Int} : readSpecial? negative text ≠ some (finite sign coefficient exponent) := by
  rw [readSpecial?]
  split
  · simp
  · simp
  · split
    · split <;> simp
    · split <;> simp
    · simp

/-- A finite number in visible ASCII characters has no others than those of numbers. -/
theorem spells_of_read? {text : List Char} {negative : Bool} {coefficient : Nat} {exponent : Int}
    (ascii : ∀ c ∈ text, c.toNat < 0x80 ∧ Text.isBlank c = false)
    (read : read? text = some (finite negative coefficient exponent)) :
    ∀ c ∈ text, spells c = true ∨ c = '_' := by
  rw [read?, plainText?_of_ascii ascii] at read
  obtain ⟨plain, kept, read⟩ := Option.bind_eq_some_iff.mp read
  have same := mapM_plainChar? (fun c member => (ascii c (List.mem_of_mem_filter member)).1) kept
  rcases Option.or_eq_some_iff.mp read with special | ⟨-, finite⟩
  · exact absurd special readSpecial?_not_finite
  · intro c member
    by_cases line : c = '_'
    · exact .inr line
    · left
      have inside : c ∈ plain := by
        rw [same, List.mem_filter]
        exact ⟨member, by simpa using line⟩
      rcases mem_splitSign inside with rfl | rfl | last
      · decide
      · decide
      · exact spells_of_readFinite? finite c last

end Phrasebook.Number.Decimal

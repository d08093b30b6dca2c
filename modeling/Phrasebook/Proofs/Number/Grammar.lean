import Phrasebook.Proofs.Number.Spelling
import Phrasebook.Proofs.Outcome
import Phrasebook.Proofs.Text.Trim

set_option autoImplicit false

/-!
The spellings of decimal numbers, as a grammar apart from the reader. Blanks around a number and
underscores in it do not count, digits may be of any script, letters of either case, and zeros may
stand before the digits and behind them. The reader accepts these texts and no others, each as the
number that it spells.
-/
namespace Phrasebook.Number.Decimal

/-! ### The grammar -/

/-- A sign that may be left out, and whether it is a minus. -/
inductive Sign : List Char → Bool → Prop
  | none : Sign [] false
  | plus : Sign ['+'] false
  | minus : Sign ['-'] true

/-- Digits before a point and behind it, where the point may be left out if none are behind it. -/
inductive Pointed : List Char → List Char → List Char → Prop
  | without (ds : List Char) : Pointed ds ds []
  | point (whole fraction : List Char) : Pointed (whole ++ '.' :: fraction) whole fraction

/-- A power of ten that may be left out. -/
inductive Scale : List Char → Int → Prop
  | none : Scale [] 0
  | power {mark : Char} {sign ds : List Char} {down : Bool} (marked : mark = 'e' ∨ mark = 'E')
      (signs : Sign sign down) (given : ds ≠ []) (plain : ∀ c ∈ ds, c.isDigit = true) :
      Scale (mark :: (sign ++ ds)) (signed down (ofDigits ds))

/-- A word in letters of either case. -/
def IsWord (word : String) (text : List Char) : Prop := text.map Char.toLower = word.toList

/-- What is written behind the sign of a number. -/
inductive Unsigned (negative : Bool) : List Char → Decimal → Prop
  | finite {front whole fraction back : List Char} {scale : Int}
      (pointed : Pointed front whole fraction) (given : whole ++ fraction ≠ [])
      (plain : ∀ c ∈ whole ++ fraction, c.isDigit = true) (scaled : Scale back scale)
      (low : leastExponent ≤ scale - fraction.length)
      (high : firstExponent (ofDigits (whole ++ fraction)) (scale - fraction.length) ≤
        largestExponent) :
      Unsigned negative (front ++ back)
        (.finite negative (ofDigits (whole ++ fraction)) (scale - fraction.length))
  | infinity {word : List Char} (named : IsWord "inf" word ∨ IsWord "infinity" word) :
      Unsigned negative word (.infinity negative)
  | quiet {word payload : List Char} (named : IsWord "nan" word)
      (plain : ∀ c ∈ payload, c.isDigit = true) :
      Unsigned negative (word ++ payload) (.nan negative false (ofDigits payload))
  | signaling {word payload : List Char} (named : IsWord "snan" word)
      (plain : ∀ c ∈ payload, c.isDigit = true) :
      Unsigned negative (word ++ payload) (.nan negative true (ofDigits payload))

/-- An ASCII character stands for itself, and a digit of another script for the ASCII digit of its
value. -/
inductive Stands : Char → Char → Prop
  | self {c : Char} (ascii : c.toNat < 0x80) : Stands c c
  | digit {c : Char} {value : Nat} (beyond : 0x80 ≤ c.toNat)
      (valued : Text.decimalValue? c = some value) : Stands c (Nat.digitChar value)

/-- A text spells a number if it stands for one between its blanks and besides its underscores. -/
inductive Spells : List Char → Decimal → Prop
  | intro {text sign rest : List Char} {negative : Bool} {number : Decimal}
      (stands : List.Forall₂ Stands ((Text.stripped text).filter (· ≠ '_')) (sign ++ rest))
      (signs : Sign sign negative) (written : Unsigned negative rest number) : Spells text number

/-! ### Signs and powers of ten -/

section Parts

variable {negative : Bool} {sign text rest : List Char} {scale : Int} {number : Decimal}

theorem sign_splitSign (text : List Char) :
    ∃ sign, text = sign ++ (splitSign text).2 ∧ Sign sign (splitSign text).1 := by
  unfold splitSign
  split
  · exact ⟨_, rfl, .minus⟩
  · exact ⟨_, rfl, .plus⟩
  · exact ⟨_, rfl, .none⟩

/-- The sign is what stands before a text that begins with none. -/
theorem Sign.split (is : Sign sign negative) (apart : ∀ c ∈ rest.head?, c ≠ '-' ∧ c ≠ '+') :
    splitSign (sign ++ rest) = (negative, rest) := by
  cases is with
  | plus => rfl
  | minus => rfl
  | none =>
    cases rest with
    | nil => rfl
    | cons c rest =>
      obtain ⟨minus, plus⟩ := apart c rfl
      simp [splitSign, minus, plus]

theorem not_sign_of_isDigit {c : Char} (digit : c.isDigit = true) : c ≠ '-' ∧ c ≠ '+' := by
  constructor
  · rintro rfl
    exact absurd digit (by decide)
  · rintro rfl
    exact absurd digit (by decide)

theorem readScale?_eq_some_iff : readScale? text = some scale ↔ Scale text scale := by
  constructor
  · intro read
    cases text with
    | nil =>
      cases read
      exact .none
    | cons mark rest =>
      rw [readScale?] at read
      split at read
      · rename_i lower
        obtain ⟨sign, cut, is⟩ := sign_splitSign rest
        rw [readExponent?] at read
        generalize splitSign rest = parts at read cut is
        obtain ⟨down, ds⟩ := parts
        obtain ⟨⟨given, plain⟩, done⟩ := Option.ite_none_right_eq_some.mp read
        cases done
        rw [cut]
        exact .power (eq_of_toLower lower) is given (List.all_eq_true.mp plain)
      · cases read
  · intro is
    cases is with
    | none => rfl
    | @power mark sign ds down marked is given plain =>
      have lower : mark.toLower = 'e' := by
        rcases marked with rfl | rfl
        · decide
        · decide
      have apart : ∀ c ∈ ds.head?, c ≠ '-' ∧ c ≠ '+' := fun c first =>
        not_sign_of_isDigit (plain c (List.mem_of_head? first))
      have digits : ds.all isPlainDigit = true := List.all_eq_true.mpr plain
      rw [readScale?, if_pos lower, readExponent?, is.split apart]
      exact if_pos ⟨given, digits⟩

/-! ### Finite numbers -/

section Finite

variable {front whole fraction back : List Char}

theorem Pointed.head (pointed : Pointed front whole fraction) (given : whole ++ fraction ≠ [])
    (plain : ∀ c ∈ whole ++ fraction, c.isDigit = true) :
    ∃ c rest, front = c :: rest ∧ (c.isDigit = true ∨ c = '.') := by
  cases pointed with
  | without =>
    cases front with
    | nil => exact absurd rfl given
    | cons c rest => exact ⟨c, rest, rfl, .inl (plain c (by simp))⟩
  | point =>
    cases whole with
    | nil => exact ⟨'.', fraction, rfl, .inr rfl⟩
    | cons c rest => exact ⟨c, rest ++ '.' :: fraction, rfl, .inl (plain c (by simp))⟩

theorem limited?_eq_some_iff {coefficient : Nat} {exponent : Int} :
    limited? negative coefficient exponent = some number ↔
      leastExponent ≤ exponent ∧ firstExponent coefficient exponent ≤ largestExponent ∧
        number = finite negative coefficient exponent := by
  rw [@eq_comm _ number, limited?]
  simp only [firstExponent, Option.ite_none_right_eq_some, Option.some.injEq, and_assoc]

/-- A point with the digits behind it, or none. -/
theorem readFraction_cases (text : List Char) :
    (∃ fraction back, text = '.' :: (fraction ++ back) ∧ readFraction text = (fraction, back) ∧
      ∀ c ∈ fraction, c.isDigit = true) ∨ readFraction text = ([], text) := by
  unfold readFraction
  split
  · rename_i rest
    refine .inl ⟨_, _, ?_, rfl, fun c member => List.mem_takeWhile_imp member⟩
    rw [List.takeWhile_append_dropWhile]
  · exact .inr rfl

theorem unsigned_of_readFinite? (read : readFinite? negative text = some number) :
    Unsigned negative text number := by
  have cut := List.takeWhile_append_dropWhile (p := isPlainDigit) (l := text)
  have plain : ∀ c ∈ text.takeWhile isPlainDigit, c.isDigit = true :=
    fun c member => List.mem_takeWhile_imp member
  rw [readFinite?] at read
  generalize text.takeWhile isPlainDigit = whole at cut plain read
  generalize text.dropWhile isPlainDigit = rest at cut read
  dsimp only at read
  split at read
  · cases read
  rename_i given
  obtain ⟨scale, scaled, limited⟩ := Option.bind_eq_some_iff.mp read
  obtain ⟨low, high, rfl⟩ := limited?_eq_some_iff.mp limited
  have scaled := readScale?_eq_some_iff.mp scaled
  rcases readFraction_cases rest with ⟨fraction, back, pointed, parts, digits⟩ | unpointed
  · rw [parts] at given scaled low high ⊢
    have all : ∀ c ∈ whole ++ fraction, c.isDigit = true := fun c member =>
      (List.mem_append.mp member).elim (plain c) (digits c)
    rw [← cut, pointed]
    simpa using Unsigned.finite (.point whole fraction) given all scaled low high
  · rw [unpointed] at given scaled low high ⊢
    have all : ∀ c ∈ whole ++ [], c.isDigit = true := by simpa using plain
    rw [← cut]
    exact .finite (.without whole) given all scaled low high

theorem readFinite?_pointed (pointed : Pointed front whole fraction)
    (given : whole ++ fraction ≠ []) (plain : ∀ c ∈ whole ++ fraction, c.isDigit = true)
    (scaled : Scale back scale) :
    readFinite? negative (front ++ back) =
      limited? negative (ofDigits (whole ++ fraction)) (scale - fraction.length) := by
  have read := readScale?_eq_some_iff.mpr scaled
  cases pointed with
  | without =>
    rw [List.append_nil] at given plain ⊢
    rw [readFinite?_whole given plain read]
    simp
  | point =>
    have before : ∀ c ∈ whole, c.isDigit = true := fun c member =>
      plain c (List.mem_append_left _ member)
    have behind : ∀ c ∈ fraction, c.isDigit = true := fun c member =>
      plain c (List.mem_append_right _ member)
    rw [List.append_assoc, List.cons_append, readFinite?_point given before behind read]

end Finite

/-! ### Infinities and values that are no numbers -/

theorem dropLetters_eq_some_iff {word : List Char} :
    dropLetters word text = some rest ↔
      ∃ front, text = front ++ rest ∧ front.map Char.toLower = word := by
  fun_induction dropLetters word text with
  | case1 text => simp [eq_comm]
  | case2 letter letters => simp
  | case3 letters c text ih =>
    rw [ih]
    constructor
    · rintro ⟨front, rfl, rfl⟩
      exact ⟨c :: front, rfl, rfl⟩
    · rintro ⟨front, cut, same⟩
      cases front with
      | nil => cases same
      | cons d front =>
        obtain ⟨rfl, rfl⟩ := List.cons.inj cut
        exact ⟨front, rfl, (List.cons.inj same).2⟩
  | case4 letter letters c text other =>
    constructor
    · exact nofun
    · rintro ⟨front, cut, same⟩
      cases front with
      | nil => cases same
      | cons d front =>
        obtain ⟨rfl, rfl⟩ := List.cons.inj cut
        exact absurd (List.cons.inj same).1.symm other

theorem dropLetters_isWord {word : String} (named : IsWord word text) (rest : List Char) :
    dropLetters word.toList (text ++ rest) = some rest :=
  dropLetters_eq_some_iff.mpr ⟨text, rfl, named⟩

theorem isWord_of_dropLetters {word : String} (read : dropLetters word.toList text = some rest) :
    ∃ front, text = front ++ rest ∧ IsWord word front :=
  dropLetters_eq_some_iff.mp read

theorem dropLetters_head {word : List Char} (given : word ≠ [])
    (read : dropLetters word text = some rest) : text.head?.map Char.toLower = word.head? := by
  obtain ⟨front, rfl, rfl⟩ := dropLetters_eq_some_iff.mp read
  cases front with
  | nil => exact absurd rfl given
  | cons c front => rfl

/-- Of two words with different first letters, one text does not begin with both. -/
theorem dropLetters_other {word other : List Char} (given : word ≠ []) (givenOther : other ≠ [])
    (apart : word.head? ≠ other.head?) (read : dropLetters word text = some rest) :
    dropLetters other text = none := by
  cases found : dropLetters other text with
  | none => rfl
  | some after =>
    have same := (dropLetters_head given read).symm.trans (dropLetters_head givenOther found)
    exact absurd same apart

theorem unsigned_of_readSpecial? (read : readSpecial? negative text = some number) :
    Unsigned negative text number := by
  rw [readSpecial?] at read
  split at read
  · rename_i whole
    obtain ⟨front, rfl, named⟩ := isWord_of_dropLetters whole
    cases read
    rw [List.append_nil]
    exact .infinity (.inr named)
  · rename_i whole _
    obtain ⟨front, rfl, named⟩ := isWord_of_dropLetters whole
    cases read
    rw [List.append_nil]
    exact .infinity (.inl named)
  · split at read
    · rename_i payload whole
      obtain ⟨front, rfl, named⟩ := isWord_of_dropLetters whole
      obtain ⟨plain, done⟩ := Option.ite_none_right_eq_some.mp read
      cases done
      exact .quiet named (List.all_eq_true.mp plain)
    · rename_i payload whole _
      obtain ⟨front, rfl, named⟩ := isWord_of_dropLetters whole
      obtain ⟨plain, done⟩ := Option.ite_none_right_eq_some.mp read
      cases done
      exact .signaling named (List.all_eq_true.mp plain)
    · cases read

theorem readSpecial?_infinity {word : List Char}
    (named : IsWord "inf" word ∨ IsWord "infinity" word) :
    readSpecial? negative word = some (infinity negative) := by
  rw [readSpecial?]
  split
  · rfl
  · rfl
  · rename_i long short
    rcases named with named | named
    · exact absurd (by simpa using dropLetters_isWord named []) short
    · exact absurd (by simpa using dropLetters_isWord named []) long

section Payload

variable {word payload : List Char}

theorem readSpecial?_quiet (named : IsWord "nan" word) (plain : ∀ c ∈ payload, c.isDigit = true) :
    readSpecial? negative (word ++ payload) = some (nan negative false (ofDigits payload)) := by
  have read := dropLetters_isWord named payload
  have long := dropLetters_other (by decide) (by decide : "infinity".toList ≠ []) (by decide) read
  have short := dropLetters_other (by decide) (by decide : "inf".toList ≠ []) (by decide) read
  rw [readSpecial?, long, short, read]
  exact if_pos (List.all_eq_true.mpr plain)

theorem readSpecial?_signaling (named : IsWord "snan" word)
    (plain : ∀ c ∈ payload, c.isDigit = true) :
    readSpecial? negative (word ++ payload) = some (nan negative true (ofDigits payload)) := by
  have read := dropLetters_isWord named payload
  have long := dropLetters_other (by decide) (by decide : "infinity".toList ≠ []) (by decide) read
  have short := dropLetters_other (by decide) (by decide : "inf".toList ≠ []) (by decide) read
  have quiet := dropLetters_other (by decide) (by decide : "nan".toList ≠ []) (by decide) read
  rw [readSpecial?, long, short, quiet, read]
  exact if_pos (List.all_eq_true.mpr plain)

end Payload

theorem unsigned_iff :
    (readSpecial? negative text).or (readFinite? negative text) = some number ↔
      Unsigned negative text number := by
  constructor
  · intro read
    rcases Option.or_eq_some_iff.mp read with special | ⟨-, finite⟩
    · exact unsigned_of_readSpecial? special
    · exact unsigned_of_readFinite? finite
  · intro written
    cases written with
    | infinity named => rw [readSpecial?_infinity named, Option.some_or]
    | quiet named plain => rw [readSpecial?_quiet named plain, Option.some_or]
    | signaling named plain => rw [readSpecial?_signaling named plain, Option.some_or]
    | @finite front whole fraction back scale pointed given plain scaled low high =>
      obtain ⟨c, rest, begins, first⟩ := pointed.head given plain
      have none : readSpecial? negative (front ++ back) = none := by
        rw [begins]
        rcases first with digit | rfl
        · exact readSpecial?_of_digit negative _ digit
        · exact readSpecial?_of_not_letter negative _ (by decide)
      rw [none, Option.none_or, readFinite?_pointed pointed given plain scaled]
      exact limited?_eq_some_iff.mpr ⟨low, high, rfl⟩

end Parts

/-! ### Characters -/

/-- A character that is none of the blanks and not the one without a number. -/
def IsVisible (c : Char) : Prop := c.toNat ≠ 0 ∧ Text.isBlank c = false

theorem isVisible_of_spells {c : Char} (spelled : spells c = true) : IsVisible c :=
  ⟨(spells_bounds spelled).1, (spells_bounds spelled).2.2.1⟩

theorem isAlpha_of_toLower {c : Char} (small : c.toLower.isLower = true) : c.isAlpha = true := by
  rcases Text.toLower_eq_or_isUpper c with same | upper
  · exact Text.isAlpha_iff.mpr (.inr (same ▸ small))
  · exact Text.isAlpha_iff.mpr (.inl upper)

theorem isVisible_of_isAlpha {c : Char} (letter : c.isAlpha = true) : IsVisible c := by
  have bounds := Text.isAlpha_iff.mp letter
  rw [Text.isUpper_iff, Text.isLower_iff] at bounds
  refine ⟨by omega, Bool.eq_false_iff.mpr fun blank => ?_⟩
  have word := Text.isWord_of_isAsciiLetter letter
  rw [Text.isWord_of_isBlank blank] at word
  cases word

/-- The words of infinities and of values that are no numbers have letters alone. -/
theorem IsWord.isAlpha {word : String} {text : List Char} (named : IsWord word text)
    (listed : word ∈ ["inf", "infinity", "nan", "snan"]) : ∀ c ∈ text, c.isAlpha = true := by
  have small : ∀ word ∈ ["inf", "infinity", "nan", "snan"],
      word.toList.all Char.isLower = true := by
    decide
  intro c member
  apply isAlpha_of_toLower
  apply List.all_eq_true.mp (small word listed)
  rw [← named]
  exact List.mem_map_of_mem member

section Visible

variable {negative : Bool} {sign rest : List Char} {number : Decimal}

theorem Sign.visible (is : Sign sign negative) : ∀ c ∈ sign, IsVisible c := by
  have spelled : ∀ c ∈ sign, spells c = true := by
    cases is with
    | none => simp
    | plus => simp [spells]
    | minus => simp [spells]
  exact fun c member => isVisible_of_spells (spelled c member)

/-- Behind its sign a number has a digit or a point and then what numbers are spelled with, or else
letters and digits. -/
theorem Unsigned.spelled (written : Unsigned negative rest number) :
    ((∀ c ∈ rest, spells c = true) ∧ ∀ c ∈ rest.head?, c.isDigit = true ∨ c = '.') ∨
      ∀ c ∈ rest, c.isAlpha = true ∨ c.isDigit = true := by
  cases written with
  | finite pointed given plain scaled low high =>
    have read := (readFinite?_pointed pointed given plain scaled).trans
      (limited?_of_bounds negative low high)
    obtain ⟨c, more, begins, first⟩ := pointed.head given plain
    refine .inl ⟨spells_of_readFinite? read, fun d head => ?_⟩
    rw [begins] at head
    cases head
    exact first
  | infinity named =>
    right
    rcases named with named | named
    · exact fun c member => .inl (named.isAlpha (by simp) c member)
    · exact fun c member => .inl (named.isAlpha (by simp) c member)
  | quiet named plain =>
    exact .inr fun c member => (List.mem_append.mp member).imp
      (named.isAlpha (by simp) c) (plain c)
  | signaling named plain =>
    exact .inr fun c member => (List.mem_append.mp member).imp
      (named.isAlpha (by simp) c) (plain c)

/-- A number has no blanks inside. -/
theorem Unsigned.visible (written : Unsigned negative rest number) : ∀ c ∈ rest, IsVisible c := by
  intro c member
  rcases written.spelled with ⟨spelled, -⟩ | letters
  · exact isVisible_of_spells (spelled c member)
  · rcases letters c member with letter | digit
    · exact isVisible_of_isAlpha letter
    · exact isVisible_of_spells (spells_of_isDigit digit)

/-- Behind its sign a number begins with no other sign. -/
theorem Unsigned.head (written : Unsigned negative rest number) :
    ∀ c ∈ rest.head?, c ≠ '-' ∧ c ≠ '+' := by
  intro c head
  rcases written.spelled with ⟨-, first⟩ | letters
  · rcases first c head with digit | rfl
    · exact not_sign_of_isDigit digit
    · decide
  · rcases letters c (List.mem_of_head? head) with letter | digit
    · constructor
      · rintro rfl
        exact absurd letter (by decide)
      · rintro rfl
        exact absurd letter (by decide)
    · exact not_sign_of_isDigit digit

end Visible

/-- For a character that stays visible, what it stands for is what the reader takes it for. -/
theorem plainChar?_eq_some_iff {c plain : Char} (visible : IsVisible plain) :
    plainChar? c = some plain ↔ Stands c plain := by
  unfold plainChar?
  constructor
  · intro read
    split at read
    · cases read
    split at read
    · rename_i ascii
      cases read
      exact .self ascii
    split at read
    · cases read
      exact absurd visible.2 (by decide)
    · rename_i beyond _
      obtain ⟨value, valued, rfl⟩ := Option.map_eq_some_iff.mp read
      exact .digit (Nat.not_lt.mp beyond) valued
  · intro stands
    cases stands with
    | self ascii => rw [if_neg visible.1, if_pos ascii]
    | @digit value beyond valued =>
      have shown : Text.isBlank c = false := Text.isBlank_of_decimal (by rw [valued]; rfl)
      rw [if_neg (by omega), if_neg (by omega), if_neg (by simp [shown]), valued]
      rfl

/-- Exactly the texts that spell a number are read, each as the number that it spells. -/
theorem read?_eq_some_iff {text : List Char} {number : Decimal} :
    read? text = some number ↔ Spells text number := by
  have kept : ∀ {plain : List Char}, (∀ c ∈ plain, IsVisible c) →
      (plainText? text = some plain ↔
        List.Forall₂ Stands ((Text.stripped text).filter (· ≠ '_')) plain) := fun visible =>
    Outcome.mapM_eq_some_iff fun _ _ c own => plainChar?_eq_some_iff (visible c own)
  have joined : ∀ {sign rest : List Char} {negative : Bool}, Sign sign negative →
      Unsigned negative rest number → ∀ c ∈ sign ++ rest, IsVisible c :=
    fun signs written c member => (List.mem_append.mp member).elim (signs.visible c)
      (written.visible c)
  constructor
  · intro read
    obtain ⟨plain, stripped, read⟩ := Option.bind_eq_some_iff.mp read
    obtain ⟨sign, cut, signs⟩ := sign_splitSign plain
    have written := unsigned_iff.mp read
    rw [cut] at stripped
    exact .intro ((kept (joined signs written)).mp stripped) signs written
  · rintro ⟨stands, signs, written⟩
    rw [read?, (kept (joined signs written)).mpr stands, Option.bind_eq_bind, Option.bind_some,
      signs.split written.head]
    exact unsigned_iff.mpr written

end Phrasebook.Number.Decimal

import Phrasebook.Proofs.Number.Digits
import Phrasebook.Script.Template

set_option autoImplicit false

/-!
Number literals of digits alone. They have a value up to a number of digits, and none beyond it.
-/
namespace Phrasebook.Script

open Number (digitLimit)

variable {digits : List Char}

theorem isDigit_ne {c other : Char} (digit : c.isDigit = true) (none : other.isDigit = false) :
    c ≠ other := by
  rintro rfl
  rw [digit] at none
  cases none

theorem baseOf?_digits (plain : ∀ c ∈ digits, c.isDigit = true) : baseOf? digits = none := by
  unfold baseOf?
  split
  · rename_i mark rest
    have digit : mark.isDigit = true := plain mark (by simp)
    rw [Number.toLower_of_isDigit digit]
    split
    · exact absurd digit (by decide)
    · exact absurd digit (by decide)
    · exact absurd digit (by decide)
    · rfl
  · rfl

/-- Digits are a whole number, unless there are too many of them. -/
theorem numberValue_digits (given : digits ≠ []) (plain : ∀ c ∈ digits, c.isDigit = true) :
    numberValue (String.ofList digits) =
      if digits.length ≤ digitLimit then some (.int (Number.ofDigits digits)) else none := by
  have kept : digits.filter (· ≠ '_') = digits := by
    rw [List.filter_eq_self]
    intro c member
    simpa using isDigit_ne (plain c member) (by decide)
  have unmarked : digits.reverse.dropWhile (· = 'n') = digits.reverse := by
    cases turned : digits.reverse with
    | nil => rfl
    | cons last rest =>
      have member : last ∈ digits := by
        rw [← List.mem_reverse, turned]
        exact List.mem_cons_self
      have other : last ≠ 'n' := isDigit_ne (plain last member) (by decide)
      simp [other]
  have wide : digits.all Text.isDigit = true := by
    rw [List.all_eq_true]
    exact fun c member => Number.isDigit_of_plain (plain c member)
  have decimal : (digits.all fun c => (Text.decimalValue? c).isSome) = true := by
    rw [List.all_eq_true]
    intro c member
    rw [Number.decimalValue?_of_isDigit (plain c member)]
    rfl
  unfold numberValue
  simp only [String.toList_ofList, kept, unmarked, List.reverse_reverse, baseOf?_digits plain]
  rw [if_pos ⟨given, wide⟩]
  simp only [decimal, true_and]

theorem digitRun_colon (rest : List Char) :
    digitRun Char.isDigit (':' :: rest) = ([], ':' :: rest) := by
  have colon : (':').isDigit = false := by decide
  unfold digitRun
  split
  · simp_all
  · simp_all
  · rename_i first
    obtain ⟨rfl, rfl⟩ := List.cons.inj first
    rw [if_neg (by simp [colon])]
  · rename_i first
    obtain ⟨rfl, rfl⟩ := List.cons.inj first
    rw [if_neg (by simp [colon])]

/-- A run of digits ends in front of a colon. -/
theorem digitRun_digits (plain : ∀ c ∈ digits, c.isDigit = true) (rest : List Char) :
    digitRun Char.isDigit (digits ++ ':' :: rest) = (digits, ':' :: rest) := by
  induction digits with
  | nil => exact digitRun_colon rest
  | cons c digits ih =>
    have digit : c.isDigit = true := plain c List.mem_cons_self
    have later := ih fun other member => plain other (List.mem_cons_of_mem _ member)
    have apart : ∀ d more, digits ++ ':' :: rest = '_' :: d :: more → False := by
      intro d more same
      cases digits with
      | nil => simp at same
      | cons next digits =>
        rw [List.cons_append, List.cons.injEq] at same
        exact isDigit_ne (plain next (by simp)) (by decide) same.1
    rw [List.cons_append, digitRun.eq_4 Char.isDigit c _ (isDigit_ne digit (by decide)) apart,
      if_pos digit, later]

theorem not_isScriptBlank_digit {c : Char} (digit : c.isDigit = true) :
    isScriptBlank c = false := by
  have bounds := Text.isDigit_iff.mp digit
  have low : ¬ '\u2000' ≤ c := by
    rw [Char.le_def, UInt32.le_iff_toNat_le]
    show ¬ 0x2000 ≤ c.toNat
    omega
  simp only [isScriptBlank, Bool.or_eq_false_iff, Bool.and_eq_false_iff, decide_eq_false_iff_not]
  refine ⟨⟨⟨⟨⟨⟨⟨⟨⟨⟨⟨⟨⟨⟨⟨?_, ?_⟩, ?_⟩, ?_⟩, ?_⟩, ?_⟩, ?_⟩, ?_⟩, .inl low⟩, ?_⟩, ?_⟩, ?_⟩, ?_⟩, ?_⟩, ?_⟩, ?_⟩
  all_goals exact isDigit_ne digit (by decide)

/-- Nothing is passed in front of a digit. -/
theorem afterBlanks_digit {c : Char} (digit : c.isDigit = true) (rest : List Char) :
    (afterBlanks (c :: rest)).rest = c :: rest := by
  have slash : c ≠ '/' := isDigit_ne digit (by decide)
  have less : c ≠ '<' := isDigit_ne digit (by decide)
  have minus : c ≠ '-' := isDigit_ne digit (by decide)
  have blank := not_isScriptBlank_digit digit
  unfold afterBlanks passBetween
  split
  all_goals simp_all

theorem numberRest?_digits {first : Char} (leading : first ≠ '0')
    (plain : ∀ c ∈ first :: digits, c.isDigit = true) (rest : List Char) :
    numberRest? (first :: digits ++ ':' :: rest) = some (':' :: rest) := by
  have point : first ≠ '.' := isDigit_ne (plain first List.mem_cons_self) (by decide)
  have run := digitRun_digits plain rest
  have taken : takesPoint (first :: digits) = true := by
    unfold takesPoint
    split
    all_goals simp_all
  unfold numberRest?
  split
  case h_8 =>
    rw [run]
    simp [taken, passExponent]
  all_goals simp_all

theorem number?_digits {first : Char} (leading : first ≠ '0')
    (plain : ∀ c ∈ first :: digits, c.isDigit = true) (rest : List Char) :
    number? (first :: digits ++ ':' :: rest) =
      some (String.ofList (first :: digits), ':' :: rest) := by
  have length : (first :: digits ++ ':' :: rest).length - (':' :: rest).length =
      (first :: digits).length := by
    rw [List.length_append, Nat.add_sub_cancel]
  rw [number?, numberRest?_digits leading plain, Option.map_some, length, List.take_left]

theorem number_eq (text : List Char) :
    Grammar.number text =
      (number? (afterBlanks (afterBlanks text).rest).rest).map fun taken =>
        (Grammar.numberLiteral (afterBlanks text).rest.length taken.1, taken.2) := by
  show (number? (afterBlanks (afterBlanks text).rest).rest).bind _ = _
  rw [Option.map_eq_bind]
  rfl

/-- A key of too many digits is read as a literal without a value. -/
theorem number_long {first : Char} (leading : first ≠ '0')
    (plain : ∀ c ∈ first :: digits, c.isDigit = true) (long : digitLimit < (first :: digits).length)
    (rest : List Char) :
    ∃ place, Grammar.number (first :: digits ++ ':' :: rest) =
      some (.literal place .unreadable (String.ofList (first :: digits)), ':' :: rest) := by
  have start : (afterBlanks (first :: digits ++ ':' :: rest)).rest = first :: digits ++ ':' :: rest :=
    afterBlanks_digit (plain first List.mem_cons_self) _
  have value : numberValue (String.ofList (first :: digits)) = none := by
    rw [numberValue_digits (List.cons_ne_nil first digits) plain, if_neg (Nat.not_le_of_lt long)]
  refine ⟨(first :: digits ++ ':' :: rest).length, ?_⟩
  rw [number_eq, start, start, number?_digits leading plain, Option.map_some, Grammar.numberLiteral,
    value]

end Phrasebook.Script

import Mathlib.Algebra.Group.Nat.Defs
import Mathlib.Data.List.Induction
import Mathlib.Data.List.TakeWhile
import Phrasebook.Proofs.Text.Class
import Phrasebook.Script.Escape

set_option autoImplicit false

/-!
Cooking a spelling without counting steps. Each escape leaves no more than was there, so the steps
that are given for a spelling are always enough, and what an escape is depends only on its own
characters and on the one after them.
-/
namespace Phrasebook.Script

open Text (CodePoints)

/-! ### Hexadecimal digits -/

theorem hexValue?_lt {c : Char} {value : Nat} (read : Text.hexValue? c = some value) :
    value < 16 := by
  simp only [Text.hexValue?, Char.le_def, UInt32.le_iff_toNat_le] at read
  split at read
  · rename_i range
    have most : c.toNat ≤ 0x39 := range.2
    cases read
    omega
  · split at read
    · rename_i range
      have most : c.toNat ≤ 0x66 := range.2
      cases read
      omega
    · split at read
      · rename_i range
        have most : c.toNat ≤ 0x46 := range.2
        cases read
        omega
      · cases read

theorem hexNumber_concat (digits : List Char) {c : Char} {value : Nat}
    (read : Text.hexValue? c = some value) :
    Text.hexNumber (digits ++ [c]) = 16 * Text.hexNumber digits + value := by
  rw [Text.hexNumber, List.foldl_append, List.foldl_cons, List.foldl_nil, read, Option.getD_some]
  rfl

theorem hexNumber_lt {digits : List Char} (hex : ∀ c ∈ digits, isHex c = true) :
    Text.hexNumber digits < 16 ^ digits.length := by
  induction digits using List.reverseRecOn with
  | nil => decide
  | append_singleton front c ih =>
    obtain ⟨value, read⟩ := Option.isSome_iff_exists.mp (hex c (by simp))
    have small := hexValue?_lt read
    have before := ih fun d member => hex d (by simp [member])
    rw [hexNumber_concat front read, List.length_append, List.length_singleton, Nat.pow_succ]
    omega

theorem hexRun?_eq_some {count code : Nat} {text after : List Char} :
    hexRun? count text = some (code, after) ↔
      ∃ digits, text = digits ++ after ∧ digits.length = count ∧
        (∀ c ∈ digits, isHex c = true) ∧ code = Text.hexNumber digits := by
  rw [hexRun?]
  constructor
  · intro read
    split at read
    · rename_i taken
      cases read
      exact ⟨text.take count, (List.take_append_drop count text).symm, taken.1,
        List.all_eq_true.mp taken.2, rfl⟩
    · cases read
  · rintro ⟨digits, rfl, rfl, hex, rfl⟩
    simp only [List.take_left, List.drop_left, true_and]
    rw [if_pos (List.all_eq_true.mpr hex)]

theorem bracedHex?_eq_some {code : Nat} {text after : List Char} :
    bracedHex? text = some (code, after) ↔
      ∃ digits, text = '{' :: (digits ++ '}' :: after) ∧ digits ≠ [] ∧
        (∀ c ∈ digits, isHex c = true) ∧ code = Text.hexNumber digits := by
  constructor
  · intro read
    unfold bracedHex? at read
    split at read
    · rename_i rest
      dsimp only at read
      split at read
      · rename_i closed
        split at read
        · cases read
        · rename_i some
          cases read
          refine ⟨rest.takeWhile isHex, ?_, some, fun c member => ?_, rfl⟩
          · rw [← closed, List.takeWhile_append_dropWhile]
          · exact List.mem_takeWhile_imp member
      · cases read
    · cases read
  · rintro ⟨digits, rfl, some, hex, rfl⟩
    have stops : ∀ c ∈ ('}' :: after).head?, isHex c = false := by
      rintro c ⟨⟩
      decide
    simp only [bracedHex?, Text.takeWhile_run hex stops, Text.dropWhile_run hex stops, if_neg some]

/-- Digits without braces begin with no brace. -/
theorem bracedHex?_digits {digits : List Char} (given : digits ≠ [])
    (hex : ∀ c ∈ digits, isHex c = true) (rest : List Char) :
    bracedHex? (digits ++ rest) = none := by
  obtain ⟨c, more, rfl⟩ := List.exists_cons_of_ne_nil given
  have first := hex c List.mem_cons_self
  unfold bracedHex?
  split
  · rename_i same
    rw [(List.cons.inj same).1] at first
    cases first
  · rfl

/-! ### Escapes -/

section Escape

variable {c : Char} {code : Nat} {rest after : List Char}

theorem readEscape_braced (read : bracedHex? rest = some (code, after)) :
    readEscape 'u' rest = (.number code, after) := by
  simp [readEscape, read]

theorem readEscape_four (unbraced : bracedHex? rest = none)
    (read : hexRun? 4 rest = some (code, after)) :
    readEscape 'u' rest = (.number code, after) := by
  simp [readEscape, unbraced, read]

theorem readEscape_noCode (unbraced : bracedHex? rest = none) (short : hexRun? 4 rest = none) :
    readEscape 'u' rest = (.plain 'u', rest) := by
  simp [readEscape, unbraced, short]

theorem readEscape_two (read : hexRun? 2 rest = some (code, after)) :
    readEscape 'x' rest = (.number code, after) := by
  simp [readEscape, read]

theorem readEscape_noByte (short : hexRun? 2 rest = none) :
    readEscape 'x' rest = (.plain 'x', rest) := by
  simp [readEscape, short]

theorem isOctal_iff : isOctal c = true ↔ 0x30 ≤ c.toNat ∧ c.toNat ≤ 0x37 := by
  simp only [isOctal, Bool.and_eq_true, decide_eq_true_eq, Char.le_def, UInt32.le_iff_toNat_le]
  exact Iff.rfl

theorem isOctal_of_not_isDigit (decimal : c.isDigit = false) : isOctal c = false := by
  rw [Bool.eq_false_iff] at decimal ⊢
  rw [Ne, Text.isDigit_iff] at decimal
  rw [Ne, isOctal_iff]
  omega

theorem isOctal_apart (octal : isOctal c = true) : c ≠ 'u' ∧ c ≠ 'x' := by
  constructor <;> rintro rfl <;> cases octal

theorem readEscape_octal (octal : isOctal c = true) :
    readEscape c rest =
      (.octal (c :: (octalRun (if c ≤ '3' then 2 else 1) rest).1),
        (octalRun (if c ≤ '3' then 2 else 1) rest).2) := by
  obtain ⟨noCode, noByte⟩ := isOctal_apart octal
  unfold readEscape
  rw [if_neg noCode, if_neg noByte, if_pos octal]

theorem isLineEnd_cases (ends : isLineEnd c = true) :
    c = '\n' ∨ c = '\r' ∨ c = '\u2028' ∨ c = '\u2029' := by
  simpa [isLineEnd, or_assoc] using ends

theorem readEscape_linePair : readEscape '\r' ('\n' :: rest) = (.continuation, rest) := rfl

theorem readEscape_lineEnd (ends : isLineEnd c = true) (apart : c = '\r' → rest.head? ≠ some '\n') :
    readEscape c rest = (.continuation, rest) := by
  rcases isLineEnd_cases ends with rfl | rfl | rfl | rfl
  · rfl
  · cases rest with
    | nil => rfl
    | cons d rest =>
      have other : d ≠ '\n' := by simpa using apart rfl
      have match_none : ∀ after, d :: rest = '\n' :: after → False := by
        intro after same
        exact other (List.cons.inj same).1
      unfold readEscape
      rw [if_neg (by decide), if_neg (by decide), if_neg (by decide), if_pos rfl]
      split
      · rename_i same
        exact absurd same (fun same => match_none _ same)
      · rfl
  · rfl
  · rfl

theorem readEscape_other (noCode : c ≠ 'u') (noByte : c ≠ 'x') (decimal : isOctal c = false)
    (visible : isLineEnd c = false) : readEscape c rest = (.plain c, rest) := by
  have noReturn : c ≠ '\r' := by
    rintro rfl
    cases visible
  unfold readEscape
  rw [if_neg noCode, if_neg noByte, if_neg (by simp [decimal]), if_neg noReturn,
    if_neg (by simp [visible])]

theorem readEscape_length (c : Char) (rest : List Char) :
    (readEscape c rest).2.length ≤ rest.length := by
  by_cases unicode : c = 'u'
  · subst unicode
    cases braced : bracedHex? rest with
    | some found =>
      obtain ⟨digits, rfl, -⟩ := bracedHex?_eq_some.mp braced
      rw [readEscape_braced braced]
      simp only [List.length_cons, List.length_append]
      omega
    | none =>
      cases four : hexRun? 4 rest with
      | some found =>
        obtain ⟨digits, rfl, -⟩ := hexRun?_eq_some.mp four
        rw [readEscape_four braced four]
        simp
      | none => simp [readEscape_noCode braced four]
  by_cases byte : c = 'x'
  · subst byte
    cases two : hexRun? 2 rest with
    | some found =>
      obtain ⟨digits, rfl, -⟩ := hexRun?_eq_some.mp two
      rw [readEscape_two two]
      simp
    | none => simp [readEscape_noByte two]
  cases octal : isOctal c with
  | true =>
    rw [readEscape_octal octal]
    simp [octalRun]
  | false =>
    cases ends : isLineEnd c with
    | false => simp [readEscape_other unicode byte octal ends]
    | true =>
      by_cases pair : c = '\r' ∧ rest.head? = some '\n'
      · obtain ⟨rfl, first⟩ := pair
        obtain ⟨after, rfl⟩ := List.head?_eq_some_iff.mp first
        simp [readEscape_linePair]
      · simp [readEscape_lineEnd ends fun same first => pair ⟨same, first⟩]

end Escape

/-! ### Meanings -/

section Meaning

variable (inTemplate : Bool)

theorem meaning_number {code : Nat} (inside : code ≤ 0x10FFFF) :
    (Escape.number code).meaning inTemplate = some [code] := by
  rw [Escape.meaning, if_pos inside]

/-- A character that is no digit and marks no number means itself or its control character. -/
theorem meaning_plain {c : Char} (noCode : c ≠ 'u') (noByte : c ≠ 'x')
    (decimal : c.isDigit = false) :
    (Escape.plain c).meaning inTemplate = some [(controlOf? c).getD c.toNat] := by
  have eight : c ≠ '8' := by
    rintro rfl
    cases decimal
  have nine : c ≠ '9' := by
    rintro rfl
    cases decimal
  rw [Escape.meaning, if_neg (not_or.mpr ⟨noCode, noByte⟩),
    if_neg fun digit => digit.2.elim eight nine]

end Meaning

/-! ### Spellings -/

section Steps

variable (inTemplate : Bool) {fuel : Nat}

theorem cookFrom_escape (fuel : Nat) (e : Char) (more : List Char) :
    cookFrom inTemplate (fuel + 1) ('\\' :: e :: more) =
      ((readEscape e more).1.meaning inTemplate).bind fun points =>
        (cookFrom inTemplate fuel (readEscape e more).2).map (points ++ ·) := by
  rw [cookFrom.eq_3]
  dsimp only
  cases (readEscape e more).1.meaning inTemplate with
  | none => rfl
  | some points => cases cookFrom inTemplate fuel (readEscape e more).2 <;> rfl

/-- A backslash is a character of its own at the end only. -/
theorem cookFrom_plain {c : Char} {rest : List Char} (plain : c = '\\' → rest = []) :
    cookFrom inTemplate (fuel + 1) (c :: rest) =
      (cookFrom inTemplate fuel rest).map (c.toNat :: ·) := by
  refine cookFrom.eq_4 inTemplate fuel c rest fun e more backslash same => ?_
  rw [plain backslash] at same
  cases same

/-- One more step changes nothing where there are enough. -/
theorem cookFrom_succ {text : List Char} (enough : text.length ≤ fuel) :
    cookFrom inTemplate (fuel + 1) text = cookFrom inTemplate fuel text := by
  induction fuel generalizing text with
  | zero =>
    obtain rfl := List.length_eq_zero_iff.mp (Nat.le_zero.mp enough)
    rfl
  | succ fuel ih =>
    cases text with
    | nil => rfl
    | cons c rest =>
      have tail : rest.length ≤ fuel := Nat.le_of_succ_le_succ enough
      by_cases plain : c = '\\' → rest = []
      · rw [cookFrom_plain inTemplate plain, cookFrom_plain inTemplate plain, ih tail]
      · obtain ⟨rfl, some⟩ := Classical.not_imp.mp plain
        obtain ⟨e, more, rfl⟩ := List.exists_cons_of_ne_nil some
        have shorter := readEscape_length e more
        rw [List.length_cons] at tail
        rw [cookFrom_escape, cookFrom_escape, ih (by omega)]

end Steps

/-- The text that a spelling stands for, surrogates as they are escaped. -/
def cooked (inTemplate : Bool) (text : List Char) : Option CodePoints :=
  cookFrom inTemplate text.length text

theorem cookFrom_eq_cooked (inTemplate : Bool) {fuel : Nat} {text : List Char}
    (enough : text.length ≤ fuel) : cookFrom inTemplate fuel text = cooked inTemplate text := by
  induction enough with
  | refl => rfl
  | step reached ih => rw [cookFrom_succ inTemplate reached, ih]

section Cooked

variable (inTemplate : Bool)

theorem cook_eq (text : List Char) :
    cook inTemplate text = (cooked inTemplate text).map joinSurrogates := rfl

@[simp] theorem cooked_nil : cooked inTemplate [] = some [] := rfl

theorem cooked_plain {c : Char} {rest : List Char} (plain : c = '\\' → rest = []) :
    cooked inTemplate (c :: rest) = (cooked inTemplate rest).map (c.toNat :: ·) :=
  cookFrom_plain inTemplate plain

theorem cooked_escape (e : Char) (more : List Char) :
    cooked inTemplate ('\\' :: e :: more) =
      ((readEscape e more).1.meaning inTemplate).bind fun points =>
        (cooked inTemplate (readEscape e more).2).map (points ++ ·) := by
  have enough : (readEscape e more).2.length ≤ (e :: more).length :=
    Nat.le_succ_of_le (readEscape_length e more)
  rw [cooked, List.length_cons, cookFrom_escape, cookFrom_eq_cooked inTemplate enough]

/-- What an escape gives goes in front of what follows it. -/
theorem cooked_of_escape {e : Char} {more after : List Char} {escape : Escape}
    {points : CodePoints} (read : readEscape e more = (escape, after))
    (means : escape.meaning inTemplate = some points) :
    cooked inTemplate ('\\' :: e :: more) = (cooked inTemplate after).map (points ++ ·) := by
  rw [cooked_escape, read, means, Option.bind_some]

end Cooked

end Phrasebook.Script

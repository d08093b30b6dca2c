import Mathlib.Logic.Relation
import Phrasebook.Proofs.Script.Escape
import Phrasebook.Proofs.Text.Class

set_option autoImplicit false

/-!
Escapes in templates. The grammar of ECMAScript reads a template one character after another and
tells escapes from what is none. A template with something that is no escape has no text, except
that a null is let pass in front of an eight or a nine.
-/
namespace Phrasebook.Script

open Text (CodePoints)

/-! ### The grammar

Each relation is between the characters that are left and those that are left after it; for escapes
the backslash has been read.
-/

def beginsHex (text : List Char) : Bool := text.head?.any isHex

def beginsDigit (text : List Char) : Bool := text.head?.any Char.isDigit

/-- An escape that stands for a character. -/
inductive TemplateEscape : List Char → List Char → Prop
  | character {c : Char} {rest : List Char} (decimal : c.isDigit = false) (noByte : c ≠ 'x')
      (noCode : c ≠ 'u') (visible : isLineEnd c = false) : TemplateEscape (c :: rest) rest
  | null {rest : List Char} (alone : beginsDigit rest = false) : TemplateEscape ('0' :: rest) rest
  | byte {digits rest : List Char} (two : digits.length = 2)
      (hex : ∀ c ∈ digits, isHex c = true) : TemplateEscape ('x' :: (digits ++ rest)) rest
  | unit {digits rest : List Char} (four : digits.length = 4)
      (hex : ∀ c ∈ digits, isHex c = true) : TemplateEscape ('u' :: (digits ++ rest)) rest
  | braced {digits rest : List Char} (given : digits ≠ []) (hex : ∀ c ∈ digits, isHex c = true)
      (inside : Text.hexNumber digits ≤ 0x10FFFF) :
      TemplateEscape ('u' :: '{' :: (digits ++ '}' :: rest)) rest

/-- What stands after a backslash and is no escape. -/
inductive NotEscape : List Char → List Char → Prop
  | nullDigit {d : Char} {rest : List Char} (digit : d.isDigit = true) :
      NotEscape ('0' :: d :: rest) rest
  | digit {d : Char} {rest : List Char} (digit : d.isDigit = true) (nonzero : d ≠ '0') :
      NotEscape (d :: rest) rest
  | byte {digits rest : List Char} (short : digits.length < 2) (hex : ∀ c ∈ digits, isHex c = true)
      (ends : beginsHex rest = false) : NotEscape ('x' :: (digits ++ rest)) rest
  | unit {digits rest : List Char} (short : digits.length < 4) (hex : ∀ c ∈ digits, isHex c = true)
      (ends : beginsHex rest = false) (unbraced : digits = [] → rest.head? ≠ some '{') :
      NotEscape ('u' :: (digits ++ rest)) rest
  | braced {digits rest : List Char} (hex : ∀ c ∈ digits, isHex c = true)
      (ends : beginsHex rest = false)
      (broken : digits = [] ∨ 0x10FFFF < Text.hexNumber digits ∨ rest.head? ≠ some '}') :
      NotEscape ('u' :: '{' :: (digits ++ rest)) rest

/-- A line end, of two characters where they can be one. -/
inductive LineTerminator : List Char → List Char → Prop
  | pair {rest : List Char} : LineTerminator ('\r' :: '\n' :: rest) rest
  | single {c : Char} {rest : List Char} (ends : isLineEnd c = true)
      (apart : c = '\r' → rest.head? ≠ some '\n') : LineTerminator (c :: rest) rest

/-- One step of reading a template. -/
inductive TemplateCharacter : List Char → List Char → Prop
  | escape {text rest : List Char} (escape : TemplateEscape text rest) :
      TemplateCharacter ('\\' :: text) rest
  | notEscape {text rest : List Char} (none : NotEscape text rest) :
      TemplateCharacter ('\\' :: text) rest
  | continuation {text rest : List Char} (ends : LineTerminator text rest) :
      TemplateCharacter ('\\' :: text) rest
  | source {c : Char} {rest : List Char} (plain : c ≠ '\\') : TemplateCharacter (c :: rest) rest

/-- Reading a template from its start comes to a backslash before something that is no escape. -/
def ComesTo (template text rest : List Char) : Prop :=
  Relation.ReflTransGen TemplateCharacter template ('\\' :: text) ∧ NotEscape text rest

/-- A template holds something that is no escape. -/
def HasNotEscape (template : List Char) : Prop := ∃ text rest, ComesTo template text rest

/-- A null in front of an eight or a nine. -/
def IsSpared (text : List Char) : Prop :=
  ∃ rest, text = '0' :: '8' :: rest ∨ text = '0' :: '9' :: rest

/-! ### Runs of digits -/

section Runs

variable {digits rest text : List Char} {count : Nat}

theorem takeWhile_hex (hex : ∀ c ∈ digits, isHex c = true) (ends : beginsHex rest = false) :
    (digits ++ rest).takeWhile isHex = digits ∧ (digits ++ rest).dropWhile isHex = rest := by
  have stops : ∀ c ∈ rest.head?, isHex c = false := by
    intro c first
    rw [beginsHex, Option.mem_def.mp first] at ends
    simpa using ends
  exact ⟨Text.takeWhile_run hex stops, Text.dropWhile_run hex stops⟩

theorem beginsHex_dropWhile (text : List Char) : beginsHex (text.dropWhile isHex) = false := by
  have first := List.head?_dropWhile_not isHex text
  rw [beginsHex]
  cases start : (text.dropWhile isHex).head? with
  | none => rfl
  | some c =>
    rw [start] at first
    simpa using first

theorem hexRun?_eq_none : hexRun? count text = none ↔ (text.takeWhile isHex).length < count := by
  constructor
  · intro refused
    by_contra enough
    have enough := Nat.le_of_not_lt enough
    have split : (text.takeWhile isHex).take count ++
        ((text.takeWhile isHex).drop count ++ text.dropWhile isHex) = text := by
      rw [← List.append_assoc, List.take_append_drop, List.takeWhile_append_dropWhile]
    have read := hexRun?_eq_some.mpr ⟨_, split.symm, List.length_take_of_le enough,
      fun c member => List.mem_takeWhile_imp (List.mem_of_mem_take member), rfl⟩
    rw [refused] at read
    cases read
  · intro short
    by_contra given
    obtain ⟨⟨code, after⟩, read⟩ := Option.ne_none_iff_exists'.mp given
    obtain ⟨digits, rfl, rfl, hex, -⟩ := hexRun?_eq_some.mp read
    rw [List.takeWhile_append_of_pos hex, List.length_append] at short
    omega

theorem bracedHex?_eq_none {text : List Char} :
    bracedHex? ('{' :: text) = none ↔
      text.takeWhile isHex = [] ∨ (text.dropWhile isHex).head? ≠ some '}' := by
  constructor
  · intro refused
    by_contra given
    obtain ⟨some, closed⟩ := not_or.mp given
    obtain ⟨after, closed⟩ := List.head?_eq_some_iff.mp (not_not.mp closed)
    have split : text.takeWhile isHex ++ '}' :: after = text := by
      rw [← closed, List.takeWhile_append_dropWhile]
    have read := bracedHex?_eq_some.mpr ⟨_, congrArg ('{' :: ·) split.symm, some,
      fun c member => List.mem_takeWhile_imp member, rfl⟩
    rw [refused] at read
    cases read
  · intro broken
    by_contra given
    obtain ⟨⟨code, after⟩, read⟩ := Option.ne_none_iff_exists'.mp given
    obtain ⟨digits, same, some, hex, -⟩ := bracedHex?_eq_some.mp read
    obtain rfl := (List.cons.inj same).2
    have ends : beginsHex ('}' :: after) = false := rfl
    obtain ⟨taken, left⟩ := takeWhile_hex hex ends
    rw [taken, left] at broken
    exact broken.elim some fun unclosed => unclosed rfl

theorem bracedHex?_of_head {text : List Char} (unbraced : text.head? ≠ some '{') :
    bracedHex? text = none := by
  unfold bracedHex?
  split
  · exact absurd rfl unbraced
  · rfl

end Runs

/-! ### Escapes of a digit -/

theorem octal_of_isDigit {d : Char} (digit : d.isDigit = true) :
    isOctal d = true ∨ d = '8' ∨ d = '9' := by
  obtain ⟨least, most⟩ := Text.isDigit_iff.mp digit
  have which : d.toNat ≤ 0x37 ∨ d.toNat = 0x38 ∨ d.toNat = 0x39 := by omega
  rcases which with low | eight | nine
  · exact .inl (isOctal_iff.mpr ⟨least, low⟩)
  · exact .inr (.inl (Char.toNat_inj.mp eight))
  · exact .inr (.inr (Char.toNat_inj.mp nine))

/-- The digits after an octal digit that belong to its escape. -/
theorem octalRun_of_other {count : Nat} {rest : List Char}
    (other : rest.head?.any isOctal = false) : octalRun count rest = ([], rest) := by
  have none : (rest.take count).takeWhile isOctal = [] := by
    cases rest with
    | nil => simp
    | cons c rest =>
      have stop : ¬ isOctal c = true := by simpa using other
      cases count with
      | zero => rfl
      | succ count => rw [List.take_succ_cons, List.takeWhile_cons_of_neg stop]
  rw [octalRun, none]
  rfl

theorem octalRun_ne_nil {count : Nat} {d : Char} {rest : List Char} (given : 0 < count)
    (octal : isOctal d = true) : (octalRun count (d :: rest)).1 ≠ [] := by
  obtain ⟨count, rfl⟩ := Nat.exists_eq_add_one_of_ne_zero given.ne'
  rw [octalRun, List.take_succ_cons, List.takeWhile_cons_of_pos octal]
  exact List.cons_ne_nil _ _

/-! ### One step of reading -/

section Step

variable {text rest : List Char}

theorem cooked_eq_none_of_meaning {e : Char} {more after : List Char} {escape : Escape}
    (read : readEscape e more = (escape, after)) (refused : escape.meaning true = none) :
    cooked true ('\\' :: e :: more) = none := by
  rw [cooked_escape, read, refused, Option.bind_none]

theorem cooked_source {c : Char} (plain : c ≠ '\\') :
    cooked true (c :: rest) = (cooked true rest).map (c.toNat :: ·) :=
  cooked_plain true fun backslash => absurd backslash plain

theorem readEscape_null (other : rest.head?.any isOctal = false) :
    readEscape '0' rest = (.octal ['0'], rest) := by
  rw [readEscape_octal rfl, octalRun_of_other other]

/-- An escape of the grammar has a text, which goes in front of that of what follows. -/
theorem TemplateEscape.cooked (escape : TemplateEscape text rest) :
    ∃ points, cooked true ('\\' :: text) = (cooked true rest).map (points ++ ·) := by
  cases escape with
  | character decimal noByte noCode visible =>
    exact ⟨_, cooked_of_escape true
      (readEscape_other noCode noByte (isOctal_of_not_isDigit decimal) visible)
      (meaning_plain true noCode noByte decimal)⟩
  | null alone =>
    have other : rest.head?.any isOctal = false := by
      cases rest with
      | nil => rfl
      | cons c rest => exact isOctal_of_not_isDigit (by simpa [beginsDigit] using alone)
    exact ⟨_, cooked_of_escape true (readEscape_null other) rfl⟩
  | @byte digits _ two hex =>
    have read : hexRun? 2 (digits ++ rest) = some (Text.hexNumber digits, rest) :=
      hexRun?_eq_some.mpr ⟨digits, rfl, two, hex, rfl⟩
    have small := hexNumber_lt hex
    rw [two] at small
    exact ⟨_, cooked_of_escape true (readEscape_two read) (meaning_number true (by omega))⟩
  | @unit digits _ four hex =>
    have given : digits ≠ [] := by
      rintro rfl
      cases four
    have read : hexRun? 4 (digits ++ rest) = some (Text.hexNumber digits, rest) :=
      hexRun?_eq_some.mpr ⟨digits, rfl, four, hex, rfl⟩
    have small := hexNumber_lt hex
    rw [four] at small
    exact ⟨_, cooked_of_escape true (readEscape_four (bracedHex?_digits given hex rest) read)
      (meaning_number true (by omega))⟩
  | @braced digits _ given hex inside =>
    have read : bracedHex? ('{' :: (digits ++ '}' :: rest)) =
        some (Text.hexNumber digits, rest) :=
      bracedHex?_eq_some.mpr ⟨digits, rfl, given, hex, rfl⟩
    exact ⟨_, cooked_of_escape true (readEscape_braced read) (meaning_number true inside)⟩

theorem LineTerminator.cooked (ends : LineTerminator text rest) :
    ∃ points, cooked true ('\\' :: text) = (cooked true rest).map (points ++ ·) := by
  cases ends with
  | pair => exact ⟨[], cooked_of_escape true readEscape_linePair rfl⟩
  | single ends apart => exact ⟨[], cooked_of_escape true (readEscape_lineEnd ends apart) rfl⟩

/-- A null before a digit that is not octal is read as a null, and the digit for itself. -/
theorem cooked_spared {d : Char} (digit : d.isDigit = true) (other : isOctal d = false) :
    cooked true ('\\' :: '0' :: d :: rest) = (cooked true rest).map ([0, d.toNat] ++ ·) := by
  have plain : d ≠ '\\' := by
    rintro rfl
    cases digit
  have ends : (d :: rest).head?.any isOctal = false := other
  rw [cooked_of_escape true (readEscape_null ends) rfl, cooked_source plain, Option.map_map]
  rfl

theorem isSpared_iff {d : Char} (digit : d.isDigit = true) :
    IsSpared ('0' :: d :: rest) ↔ isOctal d = false := by
  constructor
  · rintro ⟨after, same | same⟩
    · obtain rfl := (List.cons.inj (List.cons.inj same).2).1
      rfl
    · obtain rfl := (List.cons.inj (List.cons.inj same).2).1
      rfl
  · intro other
    rcases octal_of_isDigit digit with octal | rfl | rfl
    · rw [octal] at other
      cases other
    · exact ⟨rest, .inl rfl⟩
    · exact ⟨rest, .inr rfl⟩

theorem hexRun?_short {digits : List Char} {count : Nat} (short : digits.length < count)
    (hex : ∀ c ∈ digits, isHex c = true) (ends : beginsHex rest = false) :
    hexRun? count (digits ++ rest) = none := by
  rw [hexRun?_eq_none, (takeWhile_hex hex ends).1]
  exact short

/-- What is no escape leaves a template without a text, unless it is spared. -/
theorem NotEscape.cooked (refused : NotEscape text rest) (unspared : ¬ IsSpared text) :
    cooked true ('\\' :: text) = none := by
  cases refused with
  | @nullDigit d _ digit =>
    have octal : isOctal d = true := by
      rwa [isSpared_iff digit, Bool.not_eq_false] at unspared
    have more : (octalRun (if '0' ≤ '3' then 2 else 1) (d :: rest)).1 ≠ [] :=
      octalRun_ne_nil (by decide) octal
    refine cooked_eq_none_of_meaning (readEscape_octal rfl) ?_
    rw [Escape.meaning, if_neg (fun same => more (List.cons.inj same).2), if_pos rfl]
  | @digit d _ digit nonzero =>
    rcases octal_of_isDigit digit with octal | rfl | rfl
    · refine cooked_eq_none_of_meaning (readEscape_octal octal) ?_
      rw [Escape.meaning, if_neg (fun same => nonzero (List.cons.inj same).1), if_pos rfl]
    · exact cooked_eq_none_of_meaning (readEscape_other (by decide) (by decide) rfl rfl) rfl
    · exact cooked_eq_none_of_meaning (readEscape_other (by decide) (by decide) rfl rfl) rfl
  | byte short hex ends =>
    exact cooked_eq_none_of_meaning (readEscape_noByte (hexRun?_short short hex ends)) rfl
  | @unit digits _ short hex ends unbraced =>
    have noBraces : bracedHex? (digits ++ rest) = none := by
      cases digits with
      | nil => exact bracedHex?_of_head (unbraced rfl)
      | cons c digits => exact bracedHex?_digits (List.cons_ne_nil c digits) hex rest
    exact cooked_eq_none_of_meaning (readEscape_noCode noBraces (hexRun?_short short hex ends)) rfl
  | @braced digits _ hex ends broken =>
    cases braced : bracedHex? ('{' :: (digits ++ rest)) with
    | none =>
      have four : hexRun? 4 ('{' :: (digits ++ rest)) = none := by
        rw [hexRun?_eq_none, List.takeWhile_cons_of_neg (by decide)]
        decide
      exact cooked_eq_none_of_meaning (readEscape_noCode braced four) rfl
    | some found =>
      obtain ⟨code, after⟩ := found
      obtain ⟨given, closed⟩ :=
        not_or.mp (mt bracedHex?_eq_none.mpr fun none => by rw [braced] at none; cases none)
      rw [(takeWhile_hex hex ends).1] at given
      rw [(takeWhile_hex hex ends).2, not_not] at closed
      obtain ⟨later, rfl⟩ := List.head?_eq_some_iff.mp closed
      have beyond : 0x10FFFF < Text.hexNumber digits :=
        (broken.resolve_left given).resolve_right fun unclosed => unclosed rfl
      refine cooked_eq_none_of_meaning
        (readEscape_braced (bracedHex?_eq_some.mpr ⟨digits, rfl, given, hex, rfl⟩)) ?_
      rw [Escape.meaning, if_neg (Nat.not_le_of_lt beyond)]

end Step

/-! ### Every template is read -/

section Readable

variable {text rest : List Char}

theorem takeWhile_hex_mem (text : List Char) : ∀ c ∈ text.takeWhile isHex, isHex c = true :=
  fun _ member => List.mem_takeWhile_imp member

/-- Digits are either enough for an escape or fewer up to the first other character. -/
theorem hexDigits_cases (count : Nat) (text : List Char) :
    (∃ digits rest, text = digits ++ rest ∧ digits.length = count ∧
      ∀ c ∈ digits, isHex c = true) ∨
    ∃ digits rest, text = digits ++ rest ∧ digits.length < count ∧
      (∀ c ∈ digits, isHex c = true) ∧ beginsHex rest = false := by
  cases run : hexRun? count text with
  | some found =>
    obtain ⟨code, rest⟩ := found
    obtain ⟨digits, split, long, hex, -⟩ := hexRun?_eq_some.mp run
    exact .inl ⟨digits, rest, split, long, hex⟩
  | none =>
    exact .inr ⟨_, _, List.takeWhile_append_dropWhile.symm, hexRun?_eq_none.mp run,
      takeWhile_hex_mem text, beginsHex_dropWhile text⟩

theorem templateCharacter_byte (text : List Char) :
    ∃ rest, TemplateCharacter ('\\' :: 'x' :: text) rest := by
  rcases hexDigits_cases 2 text with ⟨digits, rest, rfl, two, hex⟩ |
    ⟨digits, rest, rfl, short, hex, ends⟩
  · exact ⟨rest, .escape (.byte two hex)⟩
  · exact ⟨rest, .notEscape (.byte short hex ends)⟩

theorem templateCharacter_unit (unbraced : text.head? ≠ some '{') :
    ∃ rest, TemplateCharacter ('\\' :: 'u' :: text) rest := by
  rcases hexDigits_cases 4 text with ⟨digits, rest, rfl, four, hex⟩ |
    ⟨digits, rest, rfl, short, hex, ends⟩
  · exact ⟨rest, .escape (.unit four hex)⟩
  · refine ⟨rest, .notEscape (.unit short hex ends ?_)⟩
    rintro rfl
    exact unbraced

theorem templateCharacter_braced (text : List Char) :
    ∃ rest, TemplateCharacter ('\\' :: 'u' :: '{' :: text) rest := by
  have hex := takeWhile_hex_mem text
  rw [← List.takeWhile_append_dropWhile (p := isHex) (l := text)]
  by_cases broken : text.takeWhile isHex = [] ∨ 0x10FFFF < Text.hexNumber (text.takeWhile isHex) ∨
      (text.dropWhile isHex).head? ≠ some '}'
  · exact ⟨_, .notEscape (.braced hex (beginsHex_dropWhile text) broken)⟩
  · obtain ⟨given, inside, closed⟩ := by simpa only [not_or] using broken
    obtain ⟨rest, closed⟩ := List.head?_eq_some_iff.mp (not_not.mp closed)
    rw [closed]
    exact ⟨rest, .escape (.braced given hex (Nat.le_of_not_lt inside))⟩

/-- Something is read after every backslash but the last character. -/
theorem exists_templateCharacter (e : Char) (more : List Char) :
    ∃ rest, TemplateCharacter ('\\' :: e :: more) rest := by
  by_cases byte : e = 'x'
  · exact byte ▸ templateCharacter_byte more
  by_cases unicode : e = 'u'
  · subst unicode
    by_cases opened : more.head? = some '{'
    · obtain ⟨inner, rfl⟩ := List.head?_eq_some_iff.mp opened
      exact templateCharacter_braced inner
    · exact templateCharacter_unit opened
  cases decimal : e.isDigit with
  | true =>
    by_cases nonzero : e = '0'
    · subst nonzero
      cases next : beginsDigit more with
      | false => exact ⟨more, .escape (.null next)⟩
      | true =>
        obtain ⟨d, rest, rfl⟩ : ∃ d rest, more = d :: rest :=
          List.exists_cons_of_ne_nil (by rintro rfl; cases next)
        exact ⟨rest, .notEscape (.nullDigit next)⟩
    · exact ⟨more, .notEscape (.digit decimal nonzero)⟩
  | false =>
    cases ends : isLineEnd e with
    | false => exact ⟨more, .escape (.character decimal byte unicode ends)⟩
    | true =>
      by_cases pair : e = '\r' ∧ more.head? = some '\n'
      · obtain ⟨rfl, first⟩ := pair
        obtain ⟨after, rfl⟩ := List.head?_eq_some_iff.mp first
        exact ⟨after, .continuation .pair⟩
      · exact ⟨more, .continuation (.single ends fun same first => pair ⟨same, first⟩)⟩

end Readable

/-! ### Templates without a text -/

section Templates

variable {template rest : List Char}

theorem TemplateCharacter.shorter (step : TemplateCharacter template rest) :
    rest.length < template.length := by
  cases step with
  | escape escape => cases escape <;> simp <;> omega
  | notEscape none => cases none <;> simp <;> omega
  | continuation ends => cases ends <;> simp <;> omega
  | source plain => simp

/-- A step keeps whether there is a text, unless it is over what is no escape and not spared. -/
theorem TemplateCharacter.cooked (step : TemplateCharacter template rest) :
    (∃ text, template = '\\' :: text ∧ NotEscape text rest ∧ ¬ IsSpared text) ∨
      ∃ points, cooked true template = (cooked true rest).map (points ++ ·) := by
  cases step with
  | escape escape => exact .inr escape.cooked
  | continuation ends => exact .inr ends.cooked
  | source plain => exact .inr ⟨[_], cooked_source plain⟩
  | @notEscape text _ refused =>
    by_cases spared : IsSpared text
    · obtain ⟨after, rfl | rfl⟩ := spared
      · cases refused with
        | nullDigit digit => exact .inr ⟨_, cooked_spared digit rfl⟩
        | digit digit nonzero => exact absurd rfl nonzero
      · cases refused with
        | nullDigit digit => exact .inr ⟨_, cooked_spared digit rfl⟩
        | digit digit nonzero => exact absurd rfl nonzero
    · exact .inl ⟨text, rfl, refused, spared⟩

/-- Some of what is no escape is not spared. -/
def IsRefused (template : List Char) : Prop :=
  ∃ text rest, ComesTo template text rest ∧ ¬ IsSpared text

theorem isRefused_of_step (step : TemplateCharacter template rest) (later : IsRefused rest) :
    IsRefused template := by
  obtain ⟨text, after, ⟨reached, refused⟩, unspared⟩ := later
  exact ⟨text, after, ⟨.head step reached, refused⟩, unspared⟩

theorem isRefused_of_cooked {template : List Char} (missing : cooked true template = none) :
    IsRefused template := by
  -- a step over anything else leaves a shorter template that has no text either
  induction length : template.length using Nat.strong_induction_on generalizing template with
  | _ n ih =>
    have along : ∀ {rest}, TemplateCharacter template rest → IsRefused template := by
      intro rest step
      rcases step.cooked with ⟨text, rfl, refused, unspared⟩ | ⟨points, same⟩
      · exact ⟨text, rest, ⟨.refl, refused⟩, unspared⟩
      · rw [same, Option.map_eq_none_iff] at missing
        exact isRefused_of_step step (ih rest.length (length ▸ step.shorter) missing rfl)
    match template with
    | [] => cases missing
    | c :: rest =>
      by_cases plain : c = '\\'
      · subst plain
        match rest with
        | [] => cases missing
        | e :: more =>
          obtain ⟨after, step⟩ := exists_templateCharacter e more
          exact along step
      · exact along (.source plain)

theorem cooked_of_isRefused (refused : IsRefused template) : cooked true template = none := by
  obtain ⟨text, rest, ⟨reached, refused⟩, unspared⟩ := refused
  induction reached using Relation.ReflTransGen.head_induction_on with
  | refl => exact refused.cooked unspared
  | head step _ ih =>
    rcases step.cooked with ⟨text, rfl, refused, unspared⟩ | ⟨points, same⟩
    · exact refused.cooked unspared
    · rw [same, ih, Option.map_none]

/-- A template has no text if something in it is no escape and not spared. So it has none exactly
for what is no escape, unless all of that is spared. -/
theorem cook_template_eq_none (template : List Char) :
    (cook true template = none ↔ IsRefused template) ∧
      ((cook true template = none ↔ HasNotEscape template) ↔
        (HasNotEscape template → IsRefused template)) := by
  have exact : cook true template = none ↔ IsRefused template := by
    rw [cook_eq, Option.map_eq_none_iff]
    exact ⟨isRefused_of_cooked, cooked_of_isRefused⟩
  have held : IsRefused template → HasNotEscape template := by
    rintro ⟨text, rest, found, -⟩
    exact ⟨text, rest, found⟩
  refine ⟨exact, ?_⟩
  rw [exact]
  exact ⟨fun both => both.mpr, fun all => ⟨held, all⟩⟩

theorem cook_template_null_eight :
    HasNotEscape ['\\', '0', '8'] ∧ cook true ['\\', '0', '8'] = some [0, 0x38] :=
  ⟨⟨_, [], .refl, .nullDigit rfl⟩, by decide⟩

end Templates

end Phrasebook.Script

import Phrasebook.Proofs.Script.Escape
import Phrasebook.Proofs.Text.CodePoints

set_option autoImplicit false

/-!
The spellings of a text. A character is written as itself, by its number in one of four forms, by a
letter, or after a backslash, and line ends after a backslash go anywhere between characters. All
spellings of a text stand for it, in strings and in templates.
-/
namespace Phrasebook.Script

open Text (CodePoints)
open Text.CodePoints

/-! ### Hexadecimal numbers -/

def lowerDigits : List Char := "0123456789abcdef".toList

def upperDigits : List Char := "0123456789ABCDEF".toList

/-- A digit of a value below sixteen, in either case. -/
def IsDigitOf (value : Nat) (c : Char) : Prop :=
  lowerDigits[value]? = some c ∨ upperDigits[value]? = some c

/-- Digits that write a number, with any number of zeros before it. -/
inductive WritesHex : Nat → List Char → Prop
  | nil : WritesHex 0 []
  | concat {number value : Nat} {digits : List Char} {c : Char} (front : WritesHex number digits)
      (digit : IsDigitOf value c) : WritesHex (16 * number + value) (digits ++ [c])

theorem hexValue?_of_isDigitOf {value : Nat} {c : Char} (digit : IsDigitOf value c) :
    Text.hexValue? c = some value := by
  have lower : lowerDigits.zipIdx.all (fun entry => Text.hexValue? entry.1 = some entry.2) := by
    decide
  have upper : upperDigits.zipIdx.all (fun entry => Text.hexValue? entry.1 = some entry.2) := by
    decide
  rcases digit with found | found
  · have member : (c, value) ∈ lowerDigits.zipIdx := List.mem_zipIdx_iff_getElem?.mpr found
    simpa using List.all_eq_true.mp lower _ member
  · have member : (c, value) ∈ upperDigits.zipIdx := List.mem_zipIdx_iff_getElem?.mpr found
    simpa using List.all_eq_true.mp upper _ member

section WritesHex

variable {number : Nat} {digits : List Char}

theorem WritesHex.isHex (writes : WritesHex number digits) : ∀ c ∈ digits, isHex c = true := by
  induction writes with
  | nil => exact fun c member => absurd member List.not_mem_nil
  | concat front digit ih =>
    intro c member
    rcases List.mem_append.mp member with early | last
    · exact ih c early
    · rw [List.mem_singleton.mp last, Script.isHex, hexValue?_of_isDigitOf digit]
      rfl

theorem WritesHex.hexNumber_eq (writes : WritesHex number digits) :
    Text.hexNumber digits = number := by
  induction writes with
  | nil => rfl
  | concat front digit ih =>
    rw [hexNumber_concat _ (hexValue?_of_isDigitOf digit), ih]

/-- Each character that is read as a digit is one. -/
theorem isDigitOf_of_hexValue? {value : Nat} {c : Char} (read : Text.hexValue? c = some value) :
    IsDigitOf value c := by
  have listed : ∀ n < 0x67, (Text.hexValue? (Char.ofNat n)).all (fun value =>
      lowerDigits[value]? = some (Char.ofNat n) ∨ upperDigits[value]? = some (Char.ofNat n)) := by
    decide
  have low : c.toNat < 0x67 := by
    by_contra high
    have above : ∀ mark : Char, mark.toNat < 0x67 → ¬ c ≤ mark := by
      intro mark below
      rw [Char.le_def, UInt32.le_iff_toNat_le]
      exact fun least => high (Nat.lt_of_le_of_lt least below)
    rw [Text.hexValue?, if_neg fun range => above '9' (by decide) range.2,
      if_neg fun range => above 'f' (by decide) range.2,
      if_neg fun range => above 'F' (by decide) range.2] at read
    cases read
  have found := listed c.toNat low
  rw [Char.ofNat_toNat, read] at found
  simpa [IsDigitOf] using found

/-- Digits are read as the number that they write. -/
theorem writesHex_iff :
    WritesHex number digits ↔ (∀ c ∈ digits, isHex c = true) ∧ Text.hexNumber digits = number := by
  refine ⟨fun writes => ⟨writes.isHex, writes.hexNumber_eq⟩, ?_⟩
  rintro ⟨hex, rfl⟩
  induction digits using List.reverseRecOn with
  | nil => exact .nil
  | append_singleton front c ih =>
    obtain ⟨value, read⟩ := Option.isSome_iff_exists.mp (hex c (by simp))
    rw [hexNumber_concat front read]
    exact .concat (ih fun d member => hex d (by simp [member])) (isDigitOf_of_hexValue? read)

theorem WritesHex.hexRun? (writes : WritesHex number digits) (rest : List Char) :
    Script.hexRun? digits.length (digits ++ rest) = some (number, rest) :=
  hexRun?_eq_some.mpr ⟨digits, rfl, rfl, writes.isHex, writes.hexNumber_eq.symm⟩

theorem WritesHex.bracedHex? (writes : WritesHex number digits) (given : digits ≠ [])
    (rest : List Char) :
    Script.bracedHex? ('{' :: (digits ++ '}' :: rest)) = some (number, rest) :=
  bracedHex?_eq_some.mpr ⟨digits, rfl, given, writes.isHex, writes.hexNumber_eq.symm⟩

end WritesHex

/-! ### Spellings -/

/-- The line ends that can be left out after a backslash. -/
def lineEnds : List (List Char) := [['\n'], ['\r', '\n'], ['\r'], ['\u2028'], ['\u2029']]

/-- The letters that stand for a control character. -/
def controls : List (Char × Char) :=
  [('n', '\n'), ('t', '\t'), ('r', '\r'), ('b', '\x08'), ('f', '\x0c'), ('v', '\x0b')]

def highSurrogate (c : Char) : Nat := 0xD800 + (c.toNat - 0x10000) / 0x400

def lowSurrogate (c : Char) : Nat := 0xDC00 + (c.toNat - 0x10000) % 0x400

/-- The ways to write a character. -/
inductive Spells : Char → List Char → Prop
  | self {c : Char} (plain : c ≠ '\\') : Spells c [c]
  | byte {c : Char} {digits : List Char} (two : digits.length = 2)
      (writes : WritesHex c.toNat digits) : Spells c ('\\' :: 'x' :: digits)
  | unit {c : Char} {digits : List Char} (four : digits.length = 4)
      (writes : WritesHex c.toNat digits) : Spells c ('\\' :: 'u' :: digits)
  /-- The two surrogates of a character beyond the basic plane. -/
  | pair {c : Char} {high low : List Char} (beyond : 0x10000 ≤ c.toNat)
      (fourHigh : high.length = 4) (writesHigh : WritesHex (highSurrogate c) high)
      (fourLow : low.length = 4) (writesLow : WritesHex (lowSurrogate c) low) :
      Spells c ('\\' :: 'u' :: (high ++ '\\' :: 'u' :: low))
  | braced {c : Char} {digits : List Char} (given : digits ≠ [])
      (writes : WritesHex c.toNat digits) : Spells c ('\\' :: 'u' :: '{' :: (digits ++ ['}']))
  | control {c letter : Char} (listed : (letter, c) ∈ controls) : Spells c ['\\', letter]
  /-- A character that means nothing else after a backslash. -/
  | marked {c : Char} (decimal : c.isDigit = false)
      (apart : c ∉ ['u', 'x', 'n', 't', 'r', 'b', 'f', 'v']) (visible : [c] ∉ lineEnds) :
      Spells c ['\\', c]

/-- The ways to write a text: its characters one after another, with line ends left out between
them. A carriage return that is left out would take a line feed behind it along. -/
inductive Spelling : List Char → List Char → Prop
  | nil : Spelling [] []
  | char {c : Char} {front text rest : List Char} (spells : Spells c front)
      (later : Spelling text rest) : Spelling (c :: text) (front ++ rest)
  | continuation {ends text rest : List Char} (listed : ends ∈ lineEnds)
      (apart : ends = ['\r'] → rest.head? ≠ some '\n') (later : Spelling text rest) :
      Spelling text ('\\' :: (ends ++ rest))

/-! ### What spellings stand for -/

/-- The code points that the spelling of a character can give: itself or its two surrogates. -/
inductive Units (c : Char) : CodePoints → Prop
  | whole : Units c [c.toNat]
  | pair (beyond : 0x10000 ≤ c.toNat) : Units c [highSurrogate c, lowSurrogate c]

section Cooked

variable (inTemplate : Bool)

theorem surrogates_bounds {c : Char} (beyond : 0x10000 ≤ c.toNat) :
    0xD800 ≤ highSurrogate c ∧ highSurrogate c ≤ 0xDBFF ∧
      0xDC00 ≤ lowSurrogate c ∧ lowSurrogate c ≤ 0xDFFF := by
  have inside := toNat_le c
  simp only [highSurrogate, lowSurrogate]
  omega

theorem cooked_unit {number : Nat} {digits : List Char} (four : digits.length = 4)
    (inside : number ≤ 0x10FFFF) (writes : WritesHex number digits) (rest : List Char) :
    cooked inTemplate ('\\' :: 'u' :: (digits ++ rest)) =
      (cooked inTemplate rest).map ([number] ++ ·) := by
  have given : digits ≠ [] := by
    rintro rfl
    cases four
  have run := writes.hexRun? rest
  rw [four] at run
  have unbraced := bracedHex?_digits given writes.isHex rest
  exact cooked_of_escape inTemplate (readEscape_four unbraced run)
    (meaning_number inTemplate inside)

theorem isLineEnd_of_not_mem {c : Char} (visible : [c] ∉ lineEnds) : isLineEnd c = false := by
  rw [Bool.eq_false_iff]
  intro ends
  rcases isLineEnd_cases ends with rfl | rfl | rfl | rfl <;> exact visible (by decide)

theorem controlOf?_eq_none {c : Char} (apart : c ∉ ['n', 't', 'r', 'b', 'f', 'v']) :
    controlOf? c = none := by
  simp only [List.mem_cons, List.not_mem_nil, or_false, not_or] at apart
  obtain ⟨n, t, r, b, f, v⟩ := apart
  rw [controlOf?.eq_7 c n t r b f v]

/-- A letter that stands for a control character is written after a backslash without more. -/
theorem cooked_control {c letter : Char} (listed : (letter, c) ∈ controls) (rest : List Char) :
    cooked inTemplate ('\\' :: letter :: rest) = (cooked inTemplate rest).map ([c.toNat] ++ ·) := by
  have each : ∀ entry ∈ controls, isOctal entry.1 = false ∧ isLineEnd entry.1 = false ∧
      entry.1 ≠ 'u' ∧ entry.1 ≠ 'x' ∧ entry.1.isDigit = false ∧
      controlOf? entry.1 = some entry.2.toNat := by
    decide
  obtain ⟨octal, visible, noCode, noByte, decimal, control⟩ := each _ listed
  have means := meaning_plain inTemplate noCode noByte decimal
  rw [control, Option.getD_some] at means
  exact cooked_of_escape inTemplate (readEscape_other noCode noByte octal visible) means

theorem cooked_marked {c : Char} (decimal : c.isDigit = false)
    (apart : c ∉ ['u', 'x', 'n', 't', 'r', 'b', 'f', 'v']) (visible : [c] ∉ lineEnds)
    (rest : List Char) :
    cooked inTemplate ('\\' :: c :: rest) = (cooked inTemplate rest).map ([c.toNat] ++ ·) := by
  rw [List.mem_cons, List.mem_cons, not_or, not_or] at apart
  obtain ⟨noCode, noByte, others⟩ := apart
  have means := meaning_plain inTemplate noCode noByte decimal
  rw [controlOf?_eq_none others, Option.getD_none] at means
  exact cooked_of_escape inTemplate (readEscape_other noCode noByte
    (isOctal_of_not_isDigit decimal) (isLineEnd_of_not_mem visible)) means

/-- A line end after a backslash stands for nothing. -/
theorem cooked_lineEnd {ends rest : List Char} (listed : ends ∈ lineEnds)
    (apart : ends = ['\r'] → rest.head? ≠ some '\n') :
    cooked inTemplate ('\\' :: (ends ++ rest)) = cooked inTemplate rest := by
  have nothing : (cooked inTemplate rest).map ([] ++ ·) = cooked inTemplate rest := by
    cases cooked inTemplate rest <;> rfl
  have read : ∃ e more, ends ++ rest = e :: more ∧ readEscape e more = (.continuation, rest) := by
    simp only [lineEnds, List.mem_cons, List.not_mem_nil, or_false] at listed
    rcases listed with rfl | rfl | rfl | rfl | rfl
    · exact ⟨_, _, rfl, readEscape_lineEnd rfl fun same => absurd same (by decide)⟩
    · exact ⟨_, _, rfl, readEscape_linePair⟩
    · exact ⟨_, _, rfl, readEscape_lineEnd rfl fun _ => apart rfl⟩
    · exact ⟨_, _, rfl, readEscape_lineEnd rfl fun same => absurd same (by decide)⟩
    · exact ⟨_, _, rfl, readEscape_lineEnd rfl fun same => absurd same (by decide)⟩
  obtain ⟨e, more, starts, read⟩ := read
  rw [starts, cooked_of_escape inTemplate read rfl, nothing]

theorem cooked_spells {c : Char} {front : List Char} (spells : Spells c front)
    (rest : List Char) :
    ∃ units, Units c units ∧
      cooked inTemplate (front ++ rest) = (cooked inTemplate rest).map (units ++ ·) := by
  have inside := toNat_le c
  cases spells with
  | self plain =>
    exact ⟨_, .whole, cooked_plain inTemplate fun backslash => absurd backslash plain⟩
  | @byte digits two writes =>
    have run := writes.hexRun? rest
    rw [two] at run
    exact ⟨_, .whole, cooked_of_escape inTemplate (readEscape_two run)
      (meaning_number inTemplate inside)⟩
  | unit four writes => exact ⟨_, .whole, cooked_unit inTemplate four inside writes rest⟩
  | @pair high low beyond fourHigh writesHigh fourLow writesLow =>
    obtain ⟨-, highest, -, lowest⟩ := surrogates_bounds beyond
    refine ⟨_, .pair beyond, ?_⟩
    have first := cooked_unit inTemplate fourHigh (by omega) writesHigh
      ('\\' :: 'u' :: (low ++ rest))
    have second := cooked_unit inTemplate fourLow (by omega) writesLow rest
    simp only [List.cons_append, List.append_assoc]
    rw [first, second, Option.map_map]
    rfl
  | @braced digits given writes =>
    refine ⟨_, .whole, ?_⟩
    simp only [List.cons_append, List.append_assoc, List.nil_append]
    exact cooked_of_escape inTemplate (readEscape_braced (writes.bracedHex? given rest))
      (meaning_number inTemplate inside)
  | control listed => exact ⟨_, .whole, cooked_control inTemplate listed rest⟩
  | marked decimal apart visible =>
    exact ⟨_, .whole, cooked_marked inTemplate decimal apart visible rest⟩

end Cooked

/-! ### Joining the surrogates -/

theorem joinPairs_cons {code : Nat} (alone : Text.isSurrogate code = false) (rest : CodePoints) :
    joinPairs (code :: rest) = rest.joinPairs.map (code :: ·) := by
  have low : Text.isHighSurrogate code = false := by
    simp only [Text.isSurrogate, Text.isHighSurrogate, Bool.and_eq_false_iff,
      decide_eq_false_iff_not] at alone ⊢
    omega
  cases rest with
  | nil => simp [joinPairs, alone]
  | cons next rest => simp [joinPairs, low, alone]

theorem joinPairs_surrogates {c : Char} (beyond : 0x10000 ≤ c.toNat) (rest : CodePoints) :
    joinPairs (highSurrogate c :: lowSurrogate c :: rest) = rest.joinPairs.map (c.toNat :: ·) := by
  obtain ⟨least, highest, lowest, last⟩ := surrogates_bounds beyond
  have high : Text.isHighSurrogate (highSurrogate c) = true := by
    simp [Text.isHighSurrogate, least, highest]
  have low : Text.isLowSurrogate (lowSurrogate c) = true := by
    simp [Text.isLowSurrogate, lowest, last]
  have joined : 0x10000 + (highSurrogate c - 0xD800) * 0x400 + (lowSurrogate c - 0xDC00) =
      c.toNat := by
    simp only [highSurrogate, lowSurrogate]
    omega
  rw [joinPairs, high, low, Bool.and_self, if_pos rfl, joined]

theorem joinPairs_units {c : Char} {units : CodePoints} (written : Units c units)
    (rest : CodePoints) : (units ++ rest).joinPairs = rest.joinPairs.map (c.toNat :: ·) := by
  cases written with
  | whole => exact joinPairs_cons (not_isSurrogate c) rest
  | pair beyond => exact joinPairs_surrogates beyond rest

/-- What a spelling gives joins to the code points of the text. -/
theorem cooked_spelling (inTemplate : Bool) {text spelling : List Char}
    (spelled : Spelling text spelling) :
    ∃ points, cooked inTemplate spelling = some points ∧
      points.joinPairs = some (ofChars text) := by
  induction spelled with
  | nil => exact ⟨[], rfl, rfl⟩
  | @char c front text rest spells later ih =>
    obtain ⟨points, read, joined⟩ := ih
    obtain ⟨units, written, step⟩ := cooked_spells inTemplate spells rest
    refine ⟨units ++ points, ?_, ?_⟩
    · rw [step, read, Option.map_some]
    · rw [joinPairs_units written, joined, Option.map_some, ofChars_cons]
  | continuation listed apart later ih =>
    rwa [cooked_lineEnd inTemplate listed apart]

/-- Every spelling of a text stands for the text, in a string as in a template. -/
theorem cook_spelling {text spelling : List Char} (spelled : Spelling text spelling)
    (inTemplate : Bool) : cook inTemplate spelling = some (ofChars text) := by
  obtain ⟨points, read, joined⟩ := cooked_spelling inTemplate spelled
  rw [cook_eq, read, Option.map_some, joinSurrogates, joined, Option.getD_some]

def mixedText : List Char := ['é', '😀', '\\', '\x0b', 'q', '\n']

/-- Most forms once, with line ends between them. -/
def mixedSpelling : List Char :=
  "\\xE9".toList ++ '\\' :: (['\r'] ++ ("\\uD83D\\uDe00".toList ++ ("\\\\".toList ++
    ("\\v".toList ++ ("\\u\x7b00071\x7d".toList ++ '\\' :: (['\r', '\n'] ++ ['\n']))))))

theorem cook_spelling_mixed :
    Spelling mixedText mixedSpelling ∧ cook true mixedSpelling = some (ofChars mixedText) := by
  have accented : Spells 'é' "\\xE9".toList :=
    .byte rfl (writesHex_iff.mpr ⟨List.all_eq_true.mp (by decide), by decide⟩)
  have high : WritesHex (highSurrogate '😀') "D83D".toList :=
    writesHex_iff.mpr ⟨List.all_eq_true.mp (by decide), by decide⟩
  have low : WritesHex (lowSurrogate '😀') "De00".toList :=
    writesHex_iff.mpr ⟨List.all_eq_true.mp (by decide), by decide⟩
  have face : Spells '😀' "\\uD83D\\uDe00".toList := .pair (by decide) rfl high rfl low
  have backslash : Spells '\\' "\\\\".toList := .marked rfl (by decide) (by decide)
  have tab : Spells '\x0b' "\\v".toList := .control (by decide)
  have code : WritesHex 'q'.toNat "00071".toList :=
    writesHex_iff.mpr ⟨List.all_eq_true.mp (by decide), by decide⟩
  have letter : Spells 'q' "\\u\x7b00071\x7d".toList := .braced (by decide) code
  have last : Spelling ['\n'] ['\n'] := .char (.self (by decide)) .nil
  have parted : Spelling ['\n'] ('\\' :: (['\r', '\n'] ++ ['\n'])) :=
    .continuation (by decide) (by decide) last
  have later := Spelling.char face (.char backslash (.char tab (.char letter parted)))
  have returned : ['\r'] ∈ lineEnds := by decide
  have spelled : Spelling mixedText mixedSpelling :=
    .char accented (.continuation returned (by decide) later)
  exact ⟨spelled, cook_spelling spelled true⟩

end Phrasebook.Script

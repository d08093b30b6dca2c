import Mathlib.Data.List.Nodup
import Phrasebook.Json.Basic
import Phrasebook.Json.Read
import Phrasebook.Proofs.Dictionary
import Phrasebook.Proofs.Outcome
import Phrasebook.Proofs.Text.CodePoints

set_option autoImplicit false

/-!
Objects that map texts to texts, written and read again. Whatever the texts are, what is written has
no surrogates, and reading it gives the object back, entry after entry.
-/
namespace Phrasebook

namespace Json

open Text (CodePoints)

/-! ### What is written -/

/-- A character inside a string. -/
def writtenChar (c : Char) : List Char := (writtenPoint c.toNat).map Char.ofNat

/-- A text as a string. -/
def stringChars (text : String) : List Char := '"' :: text.toList.flatMap writtenChar ++ ['"']

/-- An entry of an object of texts. -/
def entryChars (entry : String × String) : List Char :=
  stringChars entry.1 ++ ':' :: ' ' :: stringChars entry.2

/-- The entries after the first, and the end of the object. -/
def moreChars : List (String × String) → List Char
  | [] => ['\n', '}']
  | entry :: rest => ',' :: '\n' :: ' ' :: ' ' :: entryChars entry ++ moreChars rest

/-- An object of texts. -/
def objectChars : List (String × String) → List Char
  | [] => ['{', '}']
  | entry :: rest => '{' :: '\n' :: ' ' :: ' ' :: entryChars entry ++ moreChars rest

/-- An object that maps texts to texts. -/
def ofTexts (entries : List (String × String)) : Json :=
  .ofEntries (entries.map fun (key, text) => (key, .ofString text))

/-- How a code point stands inside a string: as an escape, or as it is. -/
theorem writtenPoint_cases (code : Nat) :
    (∃ letter, (letter, code) ∈ [('"', 0x22), ('\\', 0x5C), ('n', 0xA), ('r', 0xD), ('t', 0x9),
      ('f', 0xC), ('b', 0x8)] ∧ writtenPoint code = [0x5C, letter.toNat]) ∨
    (code < 0x20 ∧
      writtenPoint code = 0x5C :: 'u'.toNat :: CodePoints.ofChars (Text.hexDigits 4 code)) ∨
    (0x20 ≤ code ∧ code ≠ 0x22 ∧ code ≠ 0x5C ∧ writtenPoint code = [code]) := by
  unfold writtenPoint
  dsimp only
  by_cases mark : code = 0x22
  · exact .inl ⟨'"', by simp [mark], by rw [if_pos mark]⟩
  rw [if_neg mark]
  by_cases slash : code = 0x5C
  · exact .inl ⟨'\\', by simp [slash], by rw [if_pos slash]⟩
  rw [if_neg slash]
  by_cases line : code = 0xA
  · exact .inl ⟨'n', by simp [line], by rw [if_pos line]⟩
  rw [if_neg line]
  by_cases back : code = 0xD
  · exact .inl ⟨'r', by simp [back], by rw [if_pos back]⟩
  rw [if_neg back]
  by_cases tab : code = 0x9
  · exact .inl ⟨'t', by simp [tab], by rw [if_pos tab]⟩
  rw [if_neg tab]
  by_cases page : code = 0xC
  · exact .inl ⟨'f', by simp [page], by rw [if_pos page]⟩
  rw [if_neg page]
  by_cases erase : code = 0x8
  · exact .inl ⟨'b', by simp [erase], by rw [if_pos erase]⟩
  rw [if_neg erase]
  by_cases control : code < 0x20
  · exact .inr (.inl ⟨control, by rw [if_pos control]; rfl⟩)
  · exact .inr (.inr ⟨by omega, mark, slash, by rw [if_neg control]⟩)

theorem writtenChar_eq {c : Char} {chars : List Char}
    (written : writtenPoint c.toNat = CodePoints.ofChars chars) : writtenChar c = chars := by
  rw [writtenChar, written, CodePoints.map_ofNat_ofChars]

/-- The characters by which a character stands inside a string. -/
theorem writtenChar_cases (c : Char) :
    (∃ letter, (letter, c.toNat) ∈ [('"', 0x22), ('\\', 0x5C), ('n', 0xA), ('r', 0xD), ('t', 0x9),
      ('f', 0xC), ('b', 0x8)] ∧ writtenChar c = ['\\', letter]) ∨
    (c.toNat < 0x20 ∧ writtenChar c = '\\' :: 'u' :: Text.hexDigits 4 c.toNat) ∨
    (0x20 ≤ c.toNat ∧ c ≠ '"' ∧ c ≠ '\\' ∧ writtenChar c = [c]) := by
  rcases writtenPoint_cases c.toNat with ⟨letter, member, written⟩ | ⟨control, written⟩ |
    ⟨shown, mark, slash, written⟩
  · exact .inl ⟨letter, member, @writtenChar_eq c ['\\', letter] written⟩
  · exact .inr (.inl ⟨control, @writtenChar_eq c ('\\' :: 'u' :: Text.hexDigits 4 c.toNat) written⟩)
  · refine .inr (.inr ⟨shown, ?_, ?_, @writtenChar_eq c [c] written⟩)
    · rintro rfl
      exact mark rfl
    · rintro rfl
      exact slash rfl

theorem ofChars_writtenChar (c : Char) :
    CodePoints.ofChars (writtenChar c) = writtenPoint c.toNat := by
  rcases writtenPoint_cases c.toNat with ⟨letter, -, written⟩ | ⟨-, written⟩ | ⟨-, -, -, written⟩
  · rw [@writtenChar_eq c ['\\', letter] written]
    exact written.symm
  · rw [@writtenChar_eq c ('\\' :: 'u' :: Text.hexDigits 4 c.toNat) written]
    exact written.symm
  · rw [@writtenChar_eq c [c] written]
    exact written.symm

theorem ofChars_stringChars (text : String) :
    CodePoints.ofChars (stringChars text) = writtenString (CodePoints.ofString text) := by
  have inner : CodePoints.ofChars (text.toList.flatMap writtenChar) =
      (CodePoints.ofString text).flatMap writtenPoint := by
    unfold CodePoints.ofString
    induction text.toList with
    | nil => rfl
    | cons c rest ih =>
      rw [List.flatMap_cons, CodePoints.ofChars_append, ih, ofChars_writtenChar,
        CodePoints.ofChars_cons, List.flatMap_cons]
  rw [stringChars, writtenString, List.cons_append, CodePoints.ofChars_cons,
    CodePoints.ofChars_append, inner]
  rfl

theorem ofChars_entryChars (entry : String × String) :
    CodePoints.ofChars (entryChars entry) =
      writtenString (CodePoints.ofString entry.1) ++ [0x3A, 0x20] ++
        written 1 (.ofString entry.2) := by
  unfold entryChars
  rw [CodePoints.ofChars_append, ofChars_stringChars, CodePoints.ofChars_cons,
    CodePoints.ofChars_cons, ofChars_stringChars, List.append_assoc]
  simp only [ofString, written]
  rfl

theorem ofChars_moreChars (entries : List (String × String)) :
    CodePoints.ofChars (moreChars entries) =
      writtenEntries 1 (entries.map fun entry =>
        (CodePoints.ofString entry.1, .ofString entry.2)) ++ newLine 0 ++ [0x7D] := by
  induction entries with
  | nil => rfl
  | cons entry rest ih =>
    rw [moreChars, List.map_cons, writtenEntries]
    simp only [List.cons_append, CodePoints.ofChars_cons, CodePoints.ofChars_append, ih,
      ofChars_entryChars, List.append_assoc]
    rfl

/-- What is written of an object of texts is a text. -/
theorem write_ofTexts (entries : List (String × String)) :
    write (ofTexts entries) = CodePoints.ofChars (objectChars entries) := by
  have mapped : ofTexts entries = .object (entries.map fun entry =>
      (CodePoints.ofString entry.1, .ofString entry.2)) := by
    rw [ofTexts, ofEntries, List.map_map]
    rfl
  rw [mapped, write]
  cases entries with
  | nil => rfl
  | cons entry rest =>
    rw [List.map_cons, written, objectChars]
    simp only [List.cons_append, CodePoints.ofChars_cons, CodePoints.ofChars_append,
      ofChars_moreChars, ofChars_entryChars, List.append_assoc]
    rfl

/-! ### What is read -/

theorem readHex4?_hexDigits {code : Nat} (control : code < 0x20) (rest : List Char) :
    readHex4? (Text.hexDigits 4 code ++ rest) = some (code, rest) := by
  have digits : ∀ code < 0x20, ∃ a b c d, Text.hexDigits 4 code = [a, b, c, d] ∧
      ([a, b, c, d].all fun x => (Text.hexValue? x).isSome) = true ∧
        Text.hexNumber [a, b, c, d] = code := by
    intro code control
    have checked : ∀ code < 0x20, ((Text.hexDigits 4 code).all fun x =>
        (Text.hexValue? x).isSome) = true ∧ Text.hexNumber (Text.hexDigits 4 code) = code := by
      decide
    exact ⟨_, _, _, _, rfl, checked code control⟩
  obtain ⟨a, b, c, d, spelled, all, number⟩ := digits code control
  rw [spelled]
  show (if _ then some (_, rest) else _) = _
  rw [if_pos all, number]

theorem escapeOf?_letter {letter : Char} {code : Nat}
    (member : (letter, code) ∈ [('"', 0x22), ('\\', 0x5C), ('n', 0xA), ('r', 0xD), ('t', 0x9),
      ('f', 0xC), ('b', 0x8)]) : escapeOf? letter = some code ∧ letter ≠ 'u' := by
  simp only [List.mem_cons, Prod.mk.injEq, List.not_mem_nil, or_false] at member
  rcases member with ⟨rfl, rfl⟩ | ⟨rfl, rfl⟩ | ⟨rfl, rfl⟩ | ⟨rfl, rfl⟩ | ⟨rfl, rfl⟩ | ⟨rfl, rfl⟩ |
    ⟨rfl, rfl⟩ <;> exact ⟨rfl, by decide⟩

/-- A character inside a string is read as it was written. -/
theorem readString_writtenChar (fuel : Nat) (c : Char) (rest : List Char) :
    readString (fuel + 1) (writtenChar c ++ rest) =
      (do
        let (more, after) ← readString fuel rest
        .ok (c.toNat :: more, after)) := by
  rcases writtenChar_cases c with ⟨letter, member, written⟩ | ⟨control, written⟩ |
    ⟨shown, mark, slash, written⟩
  · obtain ⟨escape, apart⟩ := escapeOf?_letter member
    rw [written, List.cons_append, List.singleton_append, readString, if_neg (by decide), if_pos rfl]
    · simp only [escape]
    · exact apart
  · -- A control is no surrogate, so that it joins nothing that comes after it.
    have alone : Text.isHighSurrogate c.toNat = false := by
      simp only [Text.isHighSurrogate, Bool.and_eq_false_iff, decide_eq_false_iff_not]
      omega
    rw [written, List.cons_append, List.cons_append, readString.eq_def]
    dsimp only
    rw [if_neg (by decide), if_pos rfl]
    simp only [readHex4?_hexDigits control, alone, Bool.false_eq_true, false_and, if_false]
    split
    · split <;> rfl
    · rfl
  · have large : ¬ c.toNat < 0x20 := by omega
    rw [written, List.singleton_append, readString.eq_def]
    dsimp only
    rw [if_neg mark, if_neg slash, if_neg large]

/-- A text inside a string is read as it was written. -/
theorem readString_written {fuel : Nat} {chars : List Char} (enough : chars.length < fuel)
    (rest : List Char) :
    readString fuel (chars.flatMap writtenChar ++ '"' :: rest) =
      .ok (CodePoints.ofChars chars, rest) := by
  induction chars generalizing fuel with
  | nil =>
    obtain ⟨fuel, rfl⟩ := Nat.exists_eq_add_of_lt enough
    rfl
  | cons c chars ih =>
    rw [List.length_cons] at enough
    obtain ⟨fuel, rfl⟩ : ∃ less, fuel = less + 1 := ⟨fuel - 1, by omega⟩
    rw [List.flatMap_cons, List.append_assoc, readString_writtenChar, ih (by omega)]
    rfl

theorem length_le_written (chars : List Char) :
    chars.length ≤ (chars.flatMap writtenChar).length := by
  induction chars with
  | nil => exact Nat.le_refl 0
  | cons c chars ih =>
    have some : 1 ≤ (writtenChar c).length := by
      rcases writtenChar_cases c with ⟨_, -, written⟩ | ⟨-, written⟩ | ⟨-, -, -, written⟩
      all_goals
        rw [written]
        exact Nat.le_add_left 1 _
    rw [List.flatMap_cons, List.length_append, List.length_cons]
    omega

/-- What is written of a text is read as that text, whatever comes after it. -/
theorem readString_text (text : String) (rest : List Char) :
    readString ((text.toList.flatMap writtenChar ++ '"' :: rest).length + 1)
        (text.toList.flatMap writtenChar ++ '"' :: rest) =
      .ok (CodePoints.ofString text, rest) := by
  apply readString_written
  have bound := length_le_written text.toList
  rw [List.length_append]
  omega

theorem stringChars_append (text : String) (rest : List Char) :
    stringChars text ++ rest = '"' :: (text.toList.flatMap writtenChar ++ '"' :: rest) := by
  simp [stringChars]

theorem readValue_text (fuel : Nat) (text : String) (rest : List Char) :
    readValue (fuel + 1) (stringChars text ++ rest) = .ok (.ofString text, rest) := by
  rw [stringChars_append, readValue, if_pos rfl, readString_text]
  rfl

theorem skipBlanks_stringChars (text : String) (rest : List Char) :
    skipBlanks (' ' :: (stringChars text ++ rest)) = stringChars text ++ rest := by
  rw [stringChars_append]
  rfl

theorem skipBlanks_entryChars (entry : String × String) (rest : List Char) :
    skipBlanks ('\n' :: ' ' :: ' ' :: (entryChars entry ++ rest)) = entryChars entry ++ rest := by
  rw [entryChars, List.append_assoc, stringChars_append]
  rfl

theorem skipBlanks_colon (rest : List Char) : skipBlanks (':' :: rest) = ':' :: rest := rfl

theorem skipBlanks_comma (rest : List Char) : skipBlanks (',' :: rest) = ',' :: rest := rfl

/-- The entry that is the last one. -/
theorem readEntries_last (fuel : Nat) (entry : String × String) (after : List Char) :
    readEntries (fuel + 2) (entryChars entry ++ '\n' :: '}' :: after) =
      .ok ([(CodePoints.ofString entry.1, .ofString entry.2)], after) := by
  have brace : skipBlanks ('\n' :: '}' :: after) = '}' :: after := rfl
  rw [entryChars, List.append_assoc, stringChars_append, readEntries, readString_text,
    Outcome.ok_bind]
  simp only [List.cons_append, skipBlanks_colon, skipBlanks_stringChars, readValue_text,
    Outcome.ok_bind, brace]

/-- An entry after which there are more. -/
theorem readEntries_next (fuel : Nat) (entry : String × String) (rest : List Char) :
    readEntries (fuel + 2) (entryChars entry ++ ',' :: rest) =
      (do
        let (entries, after) ← readEntries (fuel + 1) (skipBlanks rest)
        .ok ((CodePoints.ofString entry.1, .ofString entry.2) :: entries, after)) := by
  rw [entryChars, List.append_assoc, stringChars_append, readEntries, readString_text,
    Outcome.ok_bind]
  simp only [List.cons_append, skipBlanks_colon, skipBlanks_stringChars, readValue_text,
    Outcome.ok_bind, skipBlanks_comma]

/-- All entries of an object of texts are read as they were written. -/
theorem readEntries_more {fuel : Nat} (entry : String × String) (more : List (String × String))
    (enough : more.length + 2 ≤ fuel) :
    readEntries fuel (entryChars entry ++ moreChars more) =
      .ok ((entry :: more).map fun entry =>
        (CodePoints.ofString entry.1, .ofString entry.2), []) := by
  induction more generalizing entry fuel with
  | nil =>
    obtain ⟨fuel, rfl⟩ : ∃ less, fuel = less + 2 := ⟨fuel - 2, by omega⟩
    exact readEntries_last fuel entry []
  | cons next more ih =>
    rw [List.length_cons] at enough
    obtain ⟨fuel, rfl⟩ : ∃ less, fuel = less + 2 := ⟨fuel - 2, by omega⟩
    have later := @ih (fuel + 1) next (by omega)
    rw [moreChars, List.cons_append, List.cons_append, List.cons_append, List.cons_append,
      readEntries_next, skipBlanks_entryChars, later]
    rfl

/-- An object whose first entry follows on a line of its own. -/
theorem readValue_entries (fuel : Nat) (entry : String × String) (rest : List Char) :
    readValue (fuel + 1) ('{' :: '\n' :: ' ' :: ' ' :: (entryChars entry ++ rest)) =
      (do
        let (entries, after) ← readEntries fuel (entryChars entry ++ rest)
        .ok (object (Dictionary.ofPairs entries), after)) := by
  rw [readValue, if_neg (by decide), if_pos rfl, skipBlanks_entryChars, entryChars,
    List.append_assoc, stringChars_append]
  split
  · rename_i brace
    simp at brace
  · rfl

/-- What is written of an object of texts without repeated keys is read as that object. -/
theorem read_objectChars {entries : List (String × String)} (once : (entries.map (·.1)).Nodup) :
    read (objectChars entries) = .ok (ofTexts entries) := by
  have mapped : ofTexts entries = .object (entries.map fun entry =>
      (CodePoints.ofString entry.1, .ofString entry.2)) := by
    rw [ofTexts, ofEntries, List.map_map]
    rfl
  rw [mapped]
  cases entries with
  | nil => rfl
  | cons entry more =>
    have long : more.length + 2 ≤ 2 * (objectChars (entry :: more)).length + 1 := by
      have each : ∀ more : List (String × String), more.length ≤ (moreChars more).length := by
        intro more
        induction more with
        | nil => exact Nat.zero_le _
        | cons next more ih =>
          rw [moreChars, List.length_append, List.length_cons, List.length_cons]
          omega
      have bound := each more
      rw [objectChars, List.length_append, List.length_cons, List.length_cons]
      omega
    have keys : (Dictionary.keys ((entry :: more).map fun entry =>
        (CodePoints.ofString entry.1, ofString entry.2))).Nodup := by
      have renamed := once.map fun _ _ => CodePoints.ofString_injective
      rw [List.map_map] at renamed
      rw [Dictionary.keys, List.map_map]
      exact renamed
    have start : skipBlanks (objectChars (entry :: more)) =
        '{' :: '\n' :: ' ' :: ' ' :: (entryChars entry ++ moreChars more) := rfl
    rw [read, start, readValue_entries, readEntries_more entry more long, Outcome.ok_bind,
      Outcome.ok_bind, Dictionary.ofPairs_of_nodup keys]
    rfl

end Json

end Phrasebook

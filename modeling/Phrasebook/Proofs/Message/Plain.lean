import Phrasebook.Message.Format
import Phrasebook.Proofs.Message.Reading

set_option autoImplicit false

/-!
Plain texts. As a message one is read as itself, so that formatting any text is reading it and
rendering what is read. As the body of a plural choice it is read whole, whatever follows the brace
that closes the body, and each pound sign in it is shown as the number of the choice.
-/
namespace Phrasebook.Message

open Outcome (ok_bind)

/-- A text that is read as a body up to the brace that closes the option, whatever follows. -/
def ReadsAs (text : String) (body : Pattern) : Prop :=
  ∀ tail, readParts true (text.toList ++ '}' :: tail) = .ok (body, '}' :: tail)

/-- A text without braces and apostrophes. -/
def isPlain (text : String) : Bool :=
  text.toList.all fun c => c ≠ '{' && c ≠ '}' && c ≠ '\''

/-- The body that a plain text is. -/
def plainBody : List Char → Pattern
  | [] => []
  | c :: rest => if c = '#' then .pound :: plainBody rest else (plainBody rest).prepend [c]

theorem readParts_plainBody {text : List Char}
    (plain : ∀ c ∈ text, c ≠ '{' ∧ c ≠ '}' ∧ c ≠ '\'') (tail : List Char) :
    readParts true (text ++ '}' :: tail) = .ok (plainBody text, '}' :: tail) := by
  induction text with
  | nil => exact readParts_close true tail
  | cons c rest ih =>
    have later := ih fun d member => plain d (by simp [member])
    obtain ⟨noOpen, noClose, noQuote⟩ := plain c (by simp)
    rw [List.cons_append, plainBody]
    by_cases pound : c = '#'
    · rw [if_pos pound, pound, readParts_pound, later]
      rfl
    · have ordinary : isSpecial true c = false := by simp [isSpecial, noOpen, noClose, pound]
      rw [if_neg pound, readParts_plain _ ordinary noQuote, later]
      rfl

theorem readsAs_of_isPlain {text : String} (plain : isPlain text = true) :
    ReadsAs text (plainBody text.toList) := by
  apply readParts_plainBody
  intro c member
  have characters := List.all_eq_true.mp plain c member
  simpa [and_assoc] using characters

/-! ### Rendering -/

/-- A text with the number in place of each pound sign. -/
def withNumber (shown text : String) : String :=
  String.ofList (text.toList.flatMap fun c => if c = '#' then shown.toList else [c])

section Rendering

variable [Plural.Rules] (values : Values) (locale : Option String)

theorem renderParts_prepend (pound : Option Number) (text : List Char) (pattern : Pattern) :
    renderParts values locale pound (pattern.prepend text) = (do
      let rendered ← renderParts values locale pound pattern
      .ok (String.ofList text ++ rendered)) := by
  have apart : renderParts values locale pound (.literal (String.ofList text) :: pattern) = (do
      let rendered ← renderParts values locale pound pattern
      .ok (String.ofList text ++ rendered)) := by
    rw [renderParts, renderPart, ok_bind]
    rfl
  cases pattern with
  | nil => exact apart
  | cons part rest =>
    cases part with
    | literal next =>
      rw [Pattern.prepend, renderParts, renderParts, renderPart, renderPart, ok_bind, ok_bind]
      cases renderParts values locale pound rest with
      | error failure => rfl
      | ok after =>
        rw [ok_bind, ok_bind, String.append_assoc]
        rfl
    | _ => exact apart

/-- The body of a plain text shows the text with the number in place of its pounds. -/
theorem renderParts_plainBody {number : Number} (writable : number.isWritable = true)
    (text : List Char) :
    renderParts values locale (some number) (plainBody text) =
      .ok (withNumber number.plainText (String.ofList text)) := by
  have written : number.plainWritten = .ok number.plainText := by
    rw [Number.plainWritten, if_pos writable]
  rw [withNumber, String.toList_ofList]
  induction text with
  | nil => rfl
  | cons c rest ih =>
    rw [plainBody]
    by_cases pound : c = '#'
    · rw [if_pos pound, renderParts, renderPart, written, ih, pound]
      simp only [List.flatMap_cons, if_true, String.ofList_append, String.ofList_toList]
      rfl
    · rw [if_neg pound, renderParts_prepend, ih, ok_bind, List.flatMap_cons, if_neg pound,
        String.ofList_append]

end Rendering

/-! ### Messages -/

theorem exists_literal [Plural.Rules] {text : List Char}
    (plain : ∀ c ∈ text, c ≠ '{' ∧ c ≠ '}' ∧ c ≠ '\'') :
    ∃ pattern, readParts false text = .ok (pattern, []) ∧
      ∀ values locale, renderParts values locale none pattern = .ok (String.ofList text) := by
  induction text with
  | nil => exact ⟨[], rfl, fun _ _ => rfl⟩
  | cons c rest ih =>
    obtain ⟨pattern, read, shown⟩ := ih fun d member => plain d (by simp [member])
    obtain ⟨noOpen, noClose, noQuote⟩ := plain c (by simp)
    have ordinary : isSpecial false c = false := by simp [isSpecial, noOpen, noClose]
    refine ⟨pattern.prepend [c], ?_, fun values locale => ?_⟩
    · rw [readParts_plain _ ordinary noQuote, read]
      rfl
    · rw [renderParts_prepend, shown, ok_bind, ← String.ofList_append]
      rfl

/-- A text without anything to read is a message that shows itself. -/
theorem parse_of_not_needsReading [Plural.Rules] {text : String}
    (unread : needsReading text = false) :
    ∃ pattern, parse text = .ok pattern ∧
      ∀ values locale, renderParts values locale none pattern = .ok text := by
  have plain : ∀ c ∈ text.toList, c ≠ '{' ∧ c ≠ '}' ∧ c ≠ '\'' := by
    intro c member
    have apart := List.any_eq_false.mp unread c member
    simpa [and_assoc] using apart
  obtain ⟨pattern, read, shown⟩ := exists_literal plain
  rw [String.ofList_toList] at shown
  exact ⟨pattern, parse_eq_ok.mpr read, shown⟩

/-- Formatting is reading and rendering, also where a text is shown without being read. -/
theorem format_eq [Plural.Rules] (text : String) (values : Values) (locale : Option String) :
    format text values locale =
      match parse text with
      | .ok pattern => formatPattern text pattern values locale
      | .error error =>
        if error.isReported then .ok ⟨text, some (.unreadable error)⟩
        else .error .offsetNotDecimal := by
  rw [format]
  cases needed : needsReading text with
  | true => rfl
  | false =>
    obtain ⟨pattern, read, shown⟩ := parse_of_not_needsReading needed
    rw [read]
    dsimp only
    rw [formatPattern, shown]
    rfl

end Phrasebook.Message

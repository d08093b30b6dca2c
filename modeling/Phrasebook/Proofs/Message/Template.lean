import Mathlib.Data.List.Chain
import Phrasebook.Descriptor
import Phrasebook.Proofs.Message.Plain
import Phrasebook.Proofs.Message.RoundTrip

set_option autoImplicit false

/-!
Reading the message text of a template. Nothing is lost in reading if no apostrophe stands before
another one or before a placeholder; each such apostrophe is dropped, and one before a placeholder
starts a quotation, in which placeholders are plain text.
-/
namespace Phrasebook.Message

open Outcome (ok_bind error_bind)

/-- A character of a chunk, or the placeholder of an argument. -/
inductive Piece where
  | letter (c : Char)
  | slot (index : Nat)

namespace Piece

def written : Piece → List Char
  | letter c => [c]
  | slot index => (placeholder index).toList

/-- Chunks without braces have such letters only. -/
def isPlain : Piece → Bool
  | letter c => !isSpecial false c
  | slot _ => true

/-- The placeholders are those of so many arguments. -/
def isWithin (count : Nat) : Piece → Bool
  | letter _ => true
  | slot index => index < count

/-- An apostrophe stands before a letter that is none. -/
def Precedes (first second : Piece) : Prop :=
  first = letter '\'' → ∃ c, second = letter c ∧ c ≠ '\''

end Piece

def writtenPieces (pieces : List Piece) : List Char := pieces.flatMap Piece.written

/-- The pieces of a chunk and of those after it, each behind its placeholder. -/
def templatePieces (first : String) (index : Nat) : List String → List Piece
  | [] => first.toList.map .letter
  | second :: rest =>
    first.toList.map .letter ++ .slot index :: templatePieces second (index + 1) rest

@[simp] theorem writtenPieces_nil : writtenPieces [] = [] := rfl

@[simp] theorem writtenPieces_letter (c : Char) (rest : List Piece) :
    writtenPieces (.letter c :: rest) = c :: writtenPieces rest := rfl

theorem writtenPieces_slot (index : Nat) (rest : List Piece) :
    writtenPieces (.slot index :: rest) = (placeholder index).toList ++ writtenPieces rest := rfl

theorem writtenPieces_append (front back : List Piece) :
    writtenPieces (front ++ back) = writtenPieces front ++ writtenPieces back :=
  List.flatMap_append

@[simp] theorem writtenPieces_letters (text : List Char) :
    writtenPieces (text.map .letter) = text := by
  induction text with
  | nil => rfl
  | cons c text ih => rw [List.map_cons, writtenPieces_letter, ih]

theorem templatePieces_toList (first : String) (index : Nat) (rest : List String) :
    (first ++ chunksFrom index rest).toList = writtenPieces (templatePieces first index rest) := by
  induction rest generalizing first index with
  | nil => simp [templatePieces, chunksFrom]
  | cons second rest ih =>
    rw [templatePieces, writtenPieces_append, writtenPieces_letters, writtenPieces_slot, ← ih,
      chunksFrom, String.append_assoc, String.toList_append, String.toList_append]

/-! ### Placeholders -/

theorem placeholder_toList (index : Nat) :
    (placeholder index).toList = braced (toString index) [] := by
  simp [placeholder, braced]

theorem isName_toString (index : Nat) : isName (toString index) = true := by
  have plain : ∀ c ∈ Number.digits index, Text.isBlank c = false ∧ endsName c = false := by
    intro c member
    have digit := Number.plain_of_mem_digits member
    have bounds := Text.isDigit_iff.mp digit
    have apart : ∀ mark : Char, mark.toNat < 48 ∨ 57 < mark.toNat → c ≠ mark := by
      rintro mark outside rfl
      omega
    exact ⟨Number.not_blank_of_plain digit, by simp [endsName, apart]⟩
  rw [isName, Number.toString_toList]
  cases spelled : Number.digits index with
  | nil => exact absurd spelled (Number.digits_ne_nil index)
  | cons c rest =>
    rw [spelled] at plain
    simp only [(plain c (by simp)).1, Bool.not_false, Bool.true_and, List.all_eq_true]
    intro d member
    rw [(plain d member).2]
    rfl

theorem readArgument_placeholder (index : Nat) (rest : List Char) :
    readArgument false ((placeholder index).toList ++ rest) =
      .ok (.argument (toString index) (placeholder index), rest) := by
  have source : String.ofList (braced (toString index) []) = placeholder index := by
    rw [← placeholder_toList, String.ofList_toList]
  rw [placeholder_toList, readArgument_braced false (isName_toString index), source]

theorem readParts_slot (index : Nat) (rest : List Char) :
    readParts false ((placeholder index).toList ++ rest) = (do
      let (more, last) ← readParts false rest
      .ok (.argument (toString index) (placeholder index) :: more, last)) := by
  have whole := readArgument_placeholder index rest
  have opened : (placeholder index).toList =
      '{' :: ((toString index).toList ++ ['}']) := placeholder_toList index
  rw [opened, List.cons_append] at whole ⊢
  rw [readParts_open, whole, ok_bind]

/-! ### Templates in which nothing is lost -/

/-- The pattern that pieces are, read one by one. -/
def piecesPattern : List Piece → Pattern
  | [] => []
  | .letter c :: rest => (piecesPattern rest).prepend [c]
  | .slot index :: rest =>
    .argument (toString index) (placeholder index) :: piecesPattern rest

theorem piecesPattern_letters (text : List Char) (rest : List Piece) :
    piecesPattern (text.map .letter ++ rest) = Pattern.after text (piecesPattern rest) := by
  induction text with
  | nil => rfl
  | cons c text ih =>
    rw [List.map_cons, List.cons_append, piecesPattern, ih, prepend_after]

/-- A lone apostrophe before a letter stands for itself. -/
theorem readParts_lone {c : Char} (rest : List Char) (plain : isSpecial false c = false)
    (apart : c ≠ '\'') :
    readParts false ('\'' :: c :: rest) = (do
      let (more, last) ← readParts false (c :: rest)
      .ok (more.prepend ['\''], last)) := by
  rw [readParts_apostrophe]
  simp [apostrophe, apart, plain]

theorem readParts_pieces {pieces : List Piece}
    (plain : ∀ piece ∈ pieces, piece.isPlain = true) (kept : pieces.IsChain Piece.Precedes) :
    readParts false (writtenPieces pieces) = .ok (piecesPattern pieces, []) := by
  induction pieces with
  | nil => rfl
  | cons piece rest ih =>
    have further := ih (fun other member => plain other (by simp [member])) kept.tail
    cases piece with
    | slot index =>
      rw [writtenPieces_slot, readParts_slot, further]
      rfl
    | letter c =>
      have letter : isSpecial false c = false := by simpa [Piece.isPlain] using plain (.letter c)
      rw [writtenPieces_letter]
      by_cases mark : c = '\''
      · subst mark
        cases rest with
        | nil => rfl
        | cons second rest =>
          obtain ⟨d, rfl, apart⟩ := (List.isChain_cons_cons.mp kept).1 rfl
          have next : isSpecial false d = false := by
            simpa [Piece.isPlain] using plain (.letter d)
          rw [writtenPieces_letter] at further ⊢
          rw [readParts_lone _ next apart, further]
          rfl
      · rw [readParts_plain _ letter mark, further]
        rfl

/-! ### All templates -/

/-- A literal, or the placeholder of one of so many arguments. -/
inductive Part.Fills (count : Nat) : Part → Prop where
  | literal (text : String) : Part.Fills count (.literal text)
  | argument {index : Nat} (inside : index < count) :
    Part.Fills count (.argument (toString index) (placeholder index))

/-- How long the text of a pattern is while its arguments are left as they are written. -/
def unfilledLength : Pattern → Nat
  | .literal text :: rest => text.toList.length + unfilledLength rest
  | .argument _ source :: rest => source.toList.length + unfilledLength rest
  | _ :: rest => unfilledLength rest
  | [] => 0

theorem unfilledLength_prepend (text : List Char) (pattern : Pattern) :
    unfilledLength (pattern.prepend text) = text.length + unfilledLength pattern := by
  rcases pattern with _ | ⟨part, rest⟩
  · simp [Pattern.prepend, unfilledLength]
  · cases part <;> simp [Pattern.prepend, unfilledLength, Nat.add_assoc]

theorem fills_prepend {count : Nat} {pattern : Pattern} (text : List Char)
    (fills : ∀ part ∈ pattern, part.Fills count) :
    ∀ part ∈ pattern.prepend text, part.Fills count := by
  have apart : ∀ part ∈ .literal (String.ofList text) :: pattern, part.Fills count := by
    intro part member
    rcases List.mem_cons.mp member with rfl | later
    · exact .literal _
    · exact fills part later
  rcases pattern with _ | ⟨first, rest⟩
  · exact apart
  · cases first with
    | literal next =>
      intro part member
      rcases List.mem_cons.mp member with rfl | later
      · exact .literal _
      · exact fills part (by simp [later])
    | _ => exact apart

theorem quotation_total_length (text : List Char) :
    (quotation text).1.length + (quotation text).2.length ≤ text.length := by
  fun_induction quotation text <;> simp_all <;> omega

theorem quotation_plain {front : List Char} (unmarked : ∀ c ∈ front, c ≠ '\'')
    (rest : List Char) :
    quotation (front ++ rest) = (front ++ (quotation rest).1, (quotation rest).2) := by
  induction front with
  | nil => rfl
  | cons c front ih =>
    rw [List.cons_append, quotation_cons _ (unmarked c (by simp)),
      ih fun d member => unmarked d (by simp [member])]
    rfl

theorem placeholder_unmarked (index : Nat) : ∀ c ∈ (placeholder index).toList, c ≠ '\'' := by
  obtain ⟨-, -, -, -, letters⟩ := isName_cons (isName_toString index)
  rw [placeholder_toList]
  rintro c member rfl
  have inside : '\'' ∈ (toString index).toList := by simpa [braced] using member
  exact absurd (letters _ inside) (by decide)

/-- A quotation ends between two pieces. -/
theorem quotation_pieces (pieces : List Piece) :
    ∃ after, after <:+ pieces ∧ (quotation (writtenPieces pieces)).2 = writtenPieces after := by
  induction size : pieces.length using Nat.strongRecOn generalizing pieces with
  | ind size ih =>
    subst size
    -- Two apostrophes are passed at once, so the induction is on the length.
    have within : ∀ {more : List Piece}, more.length < pieces.length → more <:+ pieces →
        ∃ after, after <:+ pieces ∧
          (quotation (writtenPieces more)).2 = writtenPieces after := by
      intro more shorter suffix
      obtain ⟨after, later, ends⟩ := ih _ shorter more rfl
      exact ⟨after, later.trans suffix, ends⟩
    cases pieces with
    | nil => exact ⟨[], List.suffix_rfl, rfl⟩
    | cons piece rest =>
      have tail := within (by simp) (List.suffix_cons piece rest)
      cases piece with
      | slot index =>
        rw [writtenPieces_slot, quotation_plain (placeholder_unmarked index)]
        exact tail
      | letter c =>
        by_cases mark : c = '\''
        · subst mark
          rw [writtenPieces_letter]
          by_cases double : (writtenPieces rest).head? = some '\''
          · obtain ⟨more, rfl⟩ : ∃ more, rest = .letter '\'' :: more := by
              rcases rest with _ | ⟨second, more⟩
              · simp at double
              · cases second with
                | letter d => exact ⟨more, by simpa using double⟩
                | slot index => simp [writtenPieces_slot, placeholder_toList, braced] at double
            exact within (by simp only [List.length_cons]; omega)
              ((List.suffix_cons _ _).trans (List.suffix_cons _ _))
          · exact ⟨rest, List.suffix_cons _ _, by rw [quotation_close double]⟩
        · rw [writtenPieces_letter, quotation_cons _ mark]
          exact tail

/-- What is read of a template: at most as much as is written, and less where an apostrophe goes
before another one or before a placeholder. -/
structure ReadTemplate (count : Nat) (pieces : List Piece) (pattern : Pattern) : Prop where
  read : readParts false (writtenPieces pieces) = .ok (pattern, [])
  fills : ∀ part ∈ pattern, part.Fills count
  shorter : unfilledLength pattern ≤ (writtenPieces pieces).length
  kept : unfilledLength pattern = (writtenPieces pieces).length →
    pieces.IsChain Piece.Precedes

section Steps

variable {count : Nat} {rest : List Piece} {pattern : Pattern}

theorem ReadTemplate.slot {index : Nat} (inside : index < count)
    (later : ReadTemplate count rest pattern) :
    ReadTemplate count (.slot index :: rest)
      (.argument (toString index) (placeholder index) :: pattern) := by
  refine ⟨?_, ?_, ?_, ?_⟩
  · rw [writtenPieces_slot, readParts_slot, later.read]
    rfl
  · intro part member
    rcases List.mem_cons.mp member with rfl | further
    · exact .argument inside
    · exact later.fills part further
  · rw [writtenPieces_slot, List.length_append, unfilledLength]
    exact Nat.add_le_add_left later.shorter _
  · intro same
    rw [writtenPieces_slot, List.length_append, unfilledLength, Nat.add_left_cancel_iff] at same
    exact List.isChain_cons.mpr ⟨fun _ _ letter => by contradiction, later.kept same⟩

/-- A letter that is read as itself, and is no apostrophe before anything but a letter. -/
theorem ReadTemplate.letter {c : Char} (later : ReadTemplate count rest pattern)
    (read : readParts false (c :: writtenPieces rest) = (do
      let (more, last) ← readParts false (writtenPieces rest)
      .ok (more.prepend [c], last)))
    (apart : ∀ next ∈ rest.head?, Piece.Precedes (.letter c) next) :
    ReadTemplate count (.letter c :: rest) (pattern.prepend [c]) := by
  refine ⟨?_, fills_prepend [c] later.fills, ?_, ?_⟩
  · rw [writtenPieces_letter, read, later.read]
    rfl
  · have shorter := later.shorter
    simp only [writtenPieces_letter, unfilledLength_prepend, List.length_cons, List.length_nil]
    omega
  · intro same
    simp only [writtenPieces_letter, unfilledLength_prepend, List.length_cons,
      List.length_nil] at same
    exact List.isChain_cons.mpr ⟨apart, later.kept (by omega)⟩

/-- An apostrophe that is dropped together with what it stands for. -/
theorem ReadTemplate.dropped {after : List Piece} {text : List Char}
    (later : ReadTemplate count after pattern)
    (read : readParts false ('\'' :: writtenPieces rest) = (do
      let (more, last) ← readParts false (writtenPieces after)
      .ok (more.prepend text, last)))
    (lost : text.length + (writtenPieces after).length ≤ (writtenPieces rest).length) :
    ReadTemplate count (.letter '\'' :: rest) (pattern.prepend text) := by
  have shorter := later.shorter
  have less : unfilledLength (pattern.prepend text) <
      (writtenPieces (.letter '\'' :: rest)).length := by
    rw [writtenPieces_letter, unfilledLength_prepend, List.length_cons]
    omega
  refine ⟨?_, fills_prepend text later.fills, Nat.le_of_lt less, ?_⟩
  · rw [writtenPieces_letter, read, later.read]
    rfl
  · intro same
    omega

/-- Of two apostrophes, one is read. -/
theorem ReadTemplate.doubled (later : ReadTemplate count rest pattern) :
    ReadTemplate count (.letter '\'' :: .letter '\'' :: rest) (pattern.prepend ['\'']) := by
  refine later.dropped ?_ ?_
  · rw [writtenPieces_letter, readParts_apostrophe]
    rfl
  · simp [Nat.add_comm]

/-- An apostrophe before a placeholder starts a quotation. -/
theorem ReadTemplate.quoted {index : Nat} {after : List Piece}
    (ends : (quotation (writtenPieces (.slot index :: rest))).2 = writtenPieces after)
    (later : ReadTemplate count after pattern) :
    ReadTemplate count (.letter '\'' :: .slot index :: rest)
      (pattern.prepend (quotation (writtenPieces (.slot index :: rest))).1) := by
  refine later.dropped ?_ ?_
  · rw [readParts_apostrophe, ← ends]
    simp [writtenPieces_slot, placeholder_toList, braced, apostrophe, isSpecial]
  · rw [← ends]
    exact quotation_total_length _

/-- An apostrophe before another letter is read as itself. -/
theorem ReadTemplate.lone {c : Char} (plain : isSpecial false c = false) (apart : c ≠ '\'')
    (later : ReadTemplate count (.letter c :: rest) pattern) :
    ReadTemplate count (.letter '\'' :: .letter c :: rest) (pattern.prepend ['\'']) := by
  apply later.letter (readParts_lone _ plain apart)
  rintro _ ⟨rfl⟩ _
  exact ⟨c, rfl, apart⟩

end Steps

/-- Each template is read to its end. -/
theorem exists_readTemplate {count : Nat} {pieces : List Piece}
    (plain : ∀ piece ∈ pieces, piece.isPlain = true)
    (within : ∀ piece ∈ pieces, piece.isWithin count = true) :
    ∃ pattern, ReadTemplate count pieces pattern := by
  induction size : pieces.length using Nat.strongRecOn generalizing pieces with
  | ind size ih =>
    subst size
    -- A quotation leaves some later pieces, so the induction is on the length.
    have onSuffix : ∀ {after : List Piece}, after.length < pieces.length → after <:+ pieces →
        ∃ pattern, ReadTemplate count after pattern := by
      intro after shorter suffix
      exact ih _ shorter (fun piece member => plain piece (suffix.subset member))
        (fun piece member => within piece (suffix.subset member)) rfl
    cases pieces with
    | nil => exact ⟨[], rfl, by simp, Nat.le_refl _, fun _ => .nil⟩
    | cons piece rest =>
      obtain ⟨pattern, later⟩ := onSuffix (by simp) (List.suffix_cons piece rest)
      cases piece with
      | slot index =>
        have inside : index < count := by simpa [Piece.isWithin] using within (.slot index)
        exact ⟨_, later.slot inside⟩
      | letter c =>
        have letter : isSpecial false c = false := by
          simpa [Piece.isPlain] using plain (.letter c)
        by_cases mark : c = '\''
        · subst mark
          cases rest with
          | nil => exact ⟨_, later.letter rfl (by simp)⟩
          | cons second rest =>
            cases second with
            | slot index =>
              obtain ⟨after, suffix, ends⟩ := quotation_pieces (.slot index :: rest)
              have shorter := suffix.length_le
              obtain ⟨pattern, later⟩ := onSuffix (by simp only [List.length_cons] at *; omega)
                (suffix.trans (List.suffix_cons _ _))
              exact ⟨_, later.quoted ends⟩
            | letter d =>
              by_cases double : d = '\''
              · subst double
                obtain ⟨pattern, later⟩ := onSuffix
                  (by simp only [List.length_cons]; omega) ((List.suffix_cons _ _).trans (List.suffix_cons _ _))
                exact ⟨_, later.doubled⟩
              · have next : isSpecial false d = false := by
                  simpa [Piece.isPlain] using plain (.letter d)
                exact ⟨_, later.lone next double⟩
        · refine ⟨_, later.letter (readParts_plain _ letter mark) ?_⟩
          intro next _ same
          exact absurd (Piece.letter.inj same) mark

end Phrasebook.Message

import Phrasebook.Locale.Store
import Phrasebook.Mark
import Phrasebook.Plural.Locale
import Phrasebook.Proofs.Dictionary
import Phrasebook.Proofs.Message.Template
import Phrasebook.Proofs.Untranslated

set_option autoImplicit false

/-!
Templates that have no translation. Translating one gives what marking it gives, for all arguments,
exactly if no chunk has two apostrophes in a row and none but the last ends in one; and it never
fails or warns by itself.
-/
namespace Phrasebook

open Message
open Number (Fault)
open Outcome (ok_bind error_bind)

/-! ### The chunks -/

/-- No chunk has two apostrophes in a row, and none but the last ends in one. -/
def isFaithful (chunks : List String) : Prop :=
  (∀ chunk ∈ chunks, ¬ ['\'', '\''] <:+: chunk.toList) ∧
    ∀ chunk ∈ chunks.dropLast, chunk.toList.getLast? ≠ some '\''

instance (chunks : List String) : Decidable (isFaithful chunks) :=
  inferInstanceAs (Decidable (_ ∧ _))

theorem isChain_letters (text : List Char) :
    (text.map Piece.letter).IsChain Piece.Precedes ↔ ¬ ['\'', '\''] <:+: text := by
  have related : ∀ a b, Piece.Precedes (.letter a) (.letter b) ↔ (a = '\'' → b ≠ '\'') := by
    simp [Piece.Precedes]
  rw [List.isChain_map, List.isChain_iff_forall_rel_of_append_cons_cons]
  simp only [related]
  constructor
  · rintro apart ⟨front, back, whole⟩
    exact @apart '\'' '\'' front back (by simp [← whole]) rfl rfl
  · rintro apart a b front back rfl rfl rfl
    exact apart ⟨front, back, by simp⟩

theorem isFaithful_cons (first second : String) (rest : List String) :
    isFaithful (first :: second :: rest) ↔ ¬ ['\'', '\''] <:+: first.toList ∧
      first.toList.getLast? ≠ some '\'' ∧ isFaithful (second :: rest) := by
  rw [isFaithful, isFaithful, List.dropLast_cons_cons, List.forall_mem_cons (a := first),
    List.forall_mem_cons (a := first)]
  tauto

theorem isFaithful_iff (first : String) (index : Nat) (rest : List String) :
    isFaithful (first :: rest) ↔ (templatePieces first index rest).IsChain Piece.Precedes := by
  induction rest generalizing first index with
  | nil => simp [isFaithful, templatePieces, isChain_letters]
  | cons second rest ih =>
    -- Only a chunk's last letter stands before a placeholder.
    have border : (∀ last ∈ (first.toList.map Piece.letter).getLast?,
        Piece.Precedes last (.slot index)) ↔ first.toList.getLast? ≠ some '\'' := by
      rw [List.getLast?_map]
      cases first.toList.getLast? <;> simp [Piece.Precedes]
    have free : ∀ piece, Piece.Precedes (.slot index) piece := fun _ letter => by contradiction
    rw [isFaithful_cons, ih second (index + 1), templatePieces, List.isChain_append,
      isChain_letters, List.isChain_cons]
    simp only [free, implies_true, true_and, List.head?_cons, Option.mem_some_iff,
      forall_eq', border]
    tauto

theorem templatePieces_isWithin (first : String) (index : Nat) (rest : List String) :
    ∀ piece ∈ templatePieces first index rest, piece.isWithin (index + rest.length) = true := by
  induction rest generalizing first index with
  | nil => simp [templatePieces, Piece.isWithin]
  | cons second rest ih =>
    intro piece member
    rw [templatePieces, List.mem_append, List.mem_cons] at member
    rcases member with letter | rfl | later
    · obtain ⟨c, -, rfl⟩ := List.mem_map.mp letter
      rfl
    · simp [Piece.isWithin]
    · have inside := ih second (index + 1) piece later
      rwa [Nat.add_right_comm, Nat.add_assoc] at inside

/-- The chunks of a template hold no braces. -/
def unbraced (chunks : List String) : Prop :=
  ∀ chunk ∈ chunks, ∀ c ∈ chunk.toList, c ≠ '{' ∧ c ≠ '}'

-- The quantifier over a chunk goes through its letters, not through all characters.
instance (chunks : List String) : Decidable (unbraced chunks) :=
  letI : DecidablePred fun chunk : String => ∀ c ∈ chunk.toList, c ≠ '{' ∧ c ≠ '}' :=
    fun chunk => List.decidableBAll _ chunk.toList
  List.decidableBAll _ chunks

theorem templatePieces_isPlain {first : String} {rest : List String}
    (plain : unbraced (first :: rest)) (index : Nat) :
    ∀ piece ∈ templatePieces first index rest, piece.isPlain = true := by
  have letters : ∀ {chunk : String}, (∀ c ∈ chunk.toList, c ≠ '{' ∧ c ≠ '}') →
      ∀ piece ∈ chunk.toList.map Piece.letter, piece.isPlain = true := by
    intro chunk free piece member
    obtain ⟨c, inside, rfl⟩ := List.mem_map.mp member
    simp [Piece.isPlain, isSpecial, free c inside]
  have own := letters (plain first (by simp))
  induction rest generalizing first index with
  | nil => simpa [templatePieces] using own
  | cons second rest ih =>
    have others : unbraced (second :: rest) := fun chunk member => plain chunk (by simp [member])
    have further := ih others (index + 1) (letters (others second (by simp)))
    intro piece member
    rw [templatePieces, List.mem_append, List.mem_cons] at member
    rcases member with letter | rfl | later
    · exact own piece letter
    · rfl
    · exact further piece later

/-! ### The values -/

theorem toString_inj {first second : Nat} (same : toString first = toString second) :
    first = second := by
  have digits := congrArg String.toList same
  rw [Number.toString_toList, Number.toString_toList] at digits
  rw [← Number.ofDigits_digits first, digits, Number.ofDigits_digits]

theorem get?_positions (args : List Value) (start position : Nat) :
    Dictionary.get? (toString position)
        ((args.zipIdx start).map fun (arg, index) => (toString index, arg)) =
      if start ≤ position then args[position - start]? else none := by
  induction args generalizing start with
  | nil => simp [Dictionary.get?]
  | cons arg args ih =>
    rw [List.zipIdx_cons, List.map_cons]
    by_cases here : start = position
    · rw [here, Dictionary.get?_cons_self, if_pos (Nat.le_refl _), Nat.sub_self]
      rfl
    · have apart : toString start ≠ toString position := fun same => here (toString_inj same)
      rw [Dictionary.get?_cons_ne _ _ apart, ih]
      by_cases later : start + 1 ≤ position
      · have further : position - start = position - (start + 1) + 1 := by omega
        rw [if_pos later, if_pos (by omega), further, List.getElem?_cons_succ]
      · have earlier : ¬ start ≤ position := by omega
        simp [later, earlier]

theorem get?_values (chunks : List String) (args : List Value) (position : Nat) :
    (Descriptor.template chunks args).values.get? (toString position) = args[position]? := by
  have found := get?_positions args 0 position
  rwa [if_pos (Nat.zero_le _), Nat.sub_zero] at found

/-- Arguments that read as the placeholders which they stand for. -/
def placeholders (start count : Nat) : List Value :=
  (List.range' start count).map fun index => .text (placeholder index)

theorem interleave_placeholders (first : String) (index : Nat) (rest : List String) :
    interleave (first :: rest) (placeholders index rest.length) =
      .ok (first ++ chunksFrom index rest) := by
  induction rest generalizing first index with
  | nil => simp [placeholders, interleave, chunksFrom]
  | cons second rest ih =>
    have further := ih second (index + 1)
    rw [placeholders] at further ⊢
    rw [List.length_cons, List.range'_succ, List.map_cons, interleave, further, chunksFrom]
    simp only [Value.written, Value.shown, ok_bind, ← String.append_assoc]
    rfl

/-! ### Rendering -/

section Rendering

variable [Plural.Rules] {values : Values} (locale : Option String) {args : List Value}

theorem renderParts_after (text : List Char) (pattern : Pattern) :
    renderParts values locale none (Pattern.after text pattern) = (do
      let rendered ← renderParts values locale none pattern
      .ok (String.ofList text ++ rendered)) := by
  rw [Pattern.after]
  split
  · rename_i empty
    rw [empty]
    cases renderParts values locale none pattern <;> simp
  · exact renderParts_prepend values locale none text pattern

theorem renderParts_letters (text : String) :
    renderParts values locale none (piecesPattern (text.toList.map .letter)) = .ok text := by
  rw [← List.append_nil (text.toList.map _), piecesPattern_letters, renderParts_after]
  simp [piecesPattern, renderParts]

/-- A template in which nothing is lost shows its chunks with the arguments between them, or fails
over the first argument that cannot be written. -/
theorem renderParts_chunks (first : String) {rest : List String} {index : Nat}
    (filled : args.length = rest.length)
    (given : ∀ position : Nat, values.get? (toString (index + position)) = args[position]?) :
    renderParts values locale none
        (piecesPattern (templatePieces first index rest)) =
      orFault (interleave (first :: rest) args) := by
  induction rest generalizing first index args with
  | nil =>
    obtain rfl := List.length_eq_zero_iff.mp filled
    rw [templatePieces, renderParts_letters]
    rfl
  | cons second rest ih =>
    obtain ⟨arg, args, rfl⟩ := List.exists_cons_of_length_eq_add_one filled
    have own : values.get? (toString index) = some arg := given 0
    have others : ∀ position,
        values.get? (toString (index + 1 + position)) = args[position]? := by
      intro position
      rw [Nat.add_assoc, Nat.add_comm 1, given (position + 1), List.getElem?_cons_succ]
    have further := ih second (by simpa using filled) others
    rw [templatePieces, piecesPattern_letters, renderParts_after, piecesPattern, renderParts,
      renderPart, own, further, interleave]
    dsimp only
    cases arg.written with
    | error fault => rfl
    | ok shown =>
      cases interleave (second :: rest) args with
      | error fault => rfl
      | ok text =>
        simp only [orFault, Except.mapError, ok_bind, String.ofList_toList, String.append_assoc]
        rfl

/-- Whatever is read of a template is shown, unless an argument cannot be written. -/
theorem renderParts_fills {pattern : Pattern}
    (fills : ∀ part ∈ pattern, part.Fills args.length)
    (given : ∀ position : Nat, values.get? (toString position) = args[position]?) :
    (∃ text, renderParts values locale none pattern = .ok text) ∨
      ∃ arg ∈ args, ∃ fault, arg.written = .error fault ∧
        renderParts values locale none pattern = .error (.fault fault) := by
  induction pattern with
  | nil => exact .inl ⟨"", rfl⟩
  | cons part rest ih =>
    have later := ih fun other member => fills other (by simp [member])
    have own : (∃ text, renderPart values locale none part = .ok text) ∨
        ∃ arg ∈ args, ∃ fault, arg.written = .error fault ∧
          renderPart values locale none part = .error (.fault fault) := by
      cases fills part (by simp) with
      | literal text => exact .inl ⟨text, rfl⟩
      | @argument index inside =>
        rw [renderPart, given index, List.getElem?_eq_getElem inside]
        dsimp only
        cases written : args[index].written with
        | ok text => exact .inl ⟨text, rfl⟩
        | error fault => exact .inr ⟨_, List.getElem_mem inside, fault, written, rfl⟩
    rw [renderParts]
    rcases own with ⟨text, shown⟩ | ⟨arg, member, fault, unwritten, failed⟩
    · rw [shown, ok_bind]
      rcases later with ⟨more, further⟩ | ⟨arg, member, fault, unwritten, failed⟩
      · rw [further]
        exact .inl ⟨_, rfl⟩
      · rw [failed]
        exact .inr ⟨arg, member, fault, unwritten, rfl⟩
    · rw [failed]
      exact .inr ⟨arg, member, fault, unwritten, rfl⟩

theorem renderParts_placeholders {count : Nat} {pattern : Pattern}
    (fills : ∀ part ∈ pattern, part.Fills count)
    (given : ∀ position : Nat,
      values.get? (toString position) = (placeholders 0 count)[position]?) :
    ∃ text, renderParts values locale none pattern = .ok text ∧
      text.toList.length = unfilledLength pattern := by
  induction pattern with
  | nil => exact ⟨"", rfl, rfl⟩
  | cons part rest ih =>
    obtain ⟨more, further, size⟩ := ih fun other member => fills other (by simp [member])
    cases fills part (by simp) with
    | literal text =>
      refine ⟨text ++ more, ?_, by simp [unfilledLength, ← size]⟩
      rw [renderParts, renderPart, ok_bind, further]
      rfl
    | @argument index inside =>
      have value : values.get? (toString index) = some (.text (placeholder index)) := by
        rw [given]
        simp [placeholders, inside]
      refine ⟨placeholder index ++ more, ?_, by simp [unfilledLength, ← size]⟩
      rw [renderParts, renderPart, value, further]
      rfl

end Rendering

/-! ### Formatting -/

section Formatting

variable {first : String} {rest : List String}

/-- The message text of a template is read, and what is read is shown. -/
theorem format_template [Plural.Rules] (plain : unbraced (first :: rest)) (values : Values)
    (locale : Option String) :
    ∃ pattern, ReadTemplate rest.length (templatePieces first 0 rest) pattern ∧
      Message.format (first ++ chunksFrom 0 rest) values locale =
        formatPattern (first ++ chunksFrom 0 rest) pattern values locale := by
  have letters := templatePieces_isPlain plain 0
  have within := templatePieces_isWithin first 0 rest
  rw [Nat.zero_add] at within
  obtain ⟨pattern, template⟩ := exists_readTemplate letters within
  refine ⟨pattern, template, ?_⟩
  rw [format_eq, parse, templatePieces_toList, parseChars_eq, template.read]
  rfl

end Formatting

/-! ### Translating and marking -/

/-- A catalog without a translation of a template, or with an empty one. -/
def lacksTemplate (translations : Translations) (chunks : List String) : Prop :=
  ∀ text, templateMessage chunks = .ok text → ∀ translation,
    translations.get? (identifier text none) = some translation → translation = ""

/-- Chunks as an application states them. -/
def stated (chunks : List String) : Statement := .list (chunks.map .text)

/-- Translating shows the text that marking gives, or both fail over the same argument. -/
def Agrees (translated : Except TranslateFailure Formatted) (marked : Except MarkFailure Marked) :
    Prop :=
  match marked with
  | .ok (.text text) => ∃ warning, translated = .ok ⟨text, warning⟩
  | .error (.fault fault) => translated = .error (.escape (.fault fault))
  | _ => False

theorem mapM_text? (chunks : List String) :
    (chunks.map Value.text).mapM Value.text? = some chunks := by
  induction chunks with
  | nil => rfl
  | cons chunk rest ih => simp [Value.text?, ih]

section Translating

variable {first : String} {rest : List String} {args : List Value} {state : Locale.State}

theorem mark_stated (filled : args.length = rest.length) :
    mark (stated (first :: rest)) args =
      ((interleave (first :: rest) args).map Marked.text).mapError .fault := by
  rw [stated, mark, mapM_text?, if_pos (by simp [filled])]

variable [Plural.Rules]

theorem translate_stated (filled : args.length = rest.length)
    (untranslated : lacksTemplate state.messages (first :: rest)) :
    state.translate (stated (first :: rest)) args =
      (Message.format (first ++ chunksFrom 0 rest)
        (Descriptor.template (first :: rest) args).values (some state.locale)).mapError
          .escape := by
  have stands := lookup_eq_self (untranslated _ rfl)
  have described : Descriptor.ofStatement (stated (first :: rest)) args =
      .ok (.template (first :: rest) args) := by
    rw [stated, Descriptor.ofStatement, mapM_text?]
    simp [Descriptor.ofChunks, filled]
  rw [Locale.State.translate, described]
  change formatted (lookup (first ++ chunksFrom 0 rest) none state.messages) _ _ = _
  rw [stands]
  rfl

/-- What translating shows is what is read of the template. -/
theorem translate_read (filled : args.length = rest.length) (plain : unbraced (first :: rest))
    (untranslated : lacksTemplate state.messages (first :: rest)) :
    ∃ pattern, ReadTemplate rest.length (templatePieces first 0 rest) pattern ∧
      state.translate (stated (first :: rest)) args =
        (formatPattern (first ++ chunksFrom 0 rest) pattern
          (Descriptor.template (first :: rest) args).values (some state.locale)).mapError
            .escape := by
  obtain ⟨pattern, template, shown⟩ := format_template plain
    (Descriptor.template (first :: rest) args).values (some state.locale)
  exact ⟨pattern, template, by rw [translate_stated filled untranslated, shown]⟩

theorem agrees_of_isFaithful (filled : args.length = rest.length)
    (plain : unbraced (first :: rest))
    (untranslated : lacksTemplate state.messages (first :: rest))
    (faithful : isFaithful (first :: rest)) :
    Agrees (state.translate (stated (first :: rest)) args)
      (mark (stated (first :: rest)) args) := by
  obtain ⟨pattern, template, translated⟩ := translate_read filled plain untranslated
  have whole := readParts_pieces (templatePieces_isPlain plain 0)
    ((isFaithful_iff first 0 rest).mp faithful)
  obtain rfl : pattern = piecesPattern (templatePieces first 0 rest) := by
    have same := template.read.symm.trans whole
    simpa using same
  have given : ∀ position : Nat, (Descriptor.template (first :: rest) args).values.get?
      (toString (0 + position)) = args[position]? := by
    intro position
    rw [Nat.zero_add, get?_values]
  have shown := renderParts_chunks (some state.locale) first filled given
  rw [translated, mark_stated filled, formatPattern, shown]
  cases interleave (first :: rest) args with
  | ok text => exact ⟨none, rfl⟩
  | error fault => rfl

theorem translate_total (filled : args.length = rest.length) (plain : unbraced (first :: rest))
    (untranslated : lacksTemplate state.messages (first :: rest)) :
    (∃ text, state.translate (stated (first :: rest)) args = .ok ⟨text, none⟩) ∨
      ∃ arg ∈ args, ∃ fault, arg.written = .error fault ∧
        state.translate (stated (first :: rest)) args = .error (.escape (.fault fault)) := by
  obtain ⟨pattern, template, translated⟩ := translate_read filled plain untranslated
  have fills := template.fills
  rw [← filled] at fills
  rcases renderParts_fills (some state.locale) fills (get?_values (first :: rest) args) with
    ⟨text, shown⟩ | ⟨arg, member, fault, unwritten, failed⟩
  · exact .inl ⟨text, by rw [translated, formatPattern, shown]; rfl⟩
  · exact .inr ⟨arg, member, fault, unwritten, by rw [translated, formatPattern, failed]; rfl⟩

/-- With the placeholders themselves as arguments marking gives back the message text, and
translating gives a shorter text if anything is lost. -/
theorem isFaithful_of_agrees (plain : unbraced (first :: rest))
    (untranslated : lacksTemplate state.messages (first :: rest))
    (agrees : Agrees (state.translate (stated (first :: rest)) (placeholders 0 rest.length))
      (mark (stated (first :: rest)) (placeholders 0 rest.length))) :
    isFaithful (first :: rest) := by
  have filled : (placeholders 0 rest.length).length = rest.length := by simp [placeholders]
  obtain ⟨pattern, template, translated⟩ := translate_read filled plain untranslated
  obtain ⟨text, shown, size⟩ := renderParts_placeholders (some state.locale)
    template.fills (get?_values (first :: rest) (placeholders 0 rest.length))
  rw [mark_stated filled, interleave_placeholders, translated, formatPattern, shown] at agrees
  obtain ⟨warning, same⟩ := agrees
  obtain rfl : text = first ++ chunksFrom 0 rest := congrArg Formatted.text (Except.ok.inj same)
  rw [templatePieces_toList] at size
  exact (isFaithful_iff first 0 rest).mpr (template.kept size.symm)

end Translating

/-- A template without braces and without a translation is translated to what marking it gives, for
all arguments, exactly if it is faithful. In any case it is translated without a warning; only an
argument that cannot be written itself makes that fail. -/
theorem translate_template_iff [Plural.Rules] {chunks : List String} {state : Locale.State}
    (given : chunks ≠ []) (plain : unbraced chunks)
    (untranslated : lacksTemplate state.messages chunks) :
    ((∀ args : List Value, chunks.length = args.length + 1 →
      Agrees (state.translate (stated chunks) args) (mark (stated chunks) args)) ↔
        isFaithful chunks) ∧
    ∀ args : List Value, chunks.length = args.length + 1 →
      (∃ text, state.translate (stated chunks) args = .ok ⟨text, none⟩) ∨
        ∃ arg ∈ args, ∃ fault, arg.written = .error fault ∧
          state.translate (stated chunks) args = .error (.escape (.fault fault)) := by
  obtain ⟨first, rest, rfl⟩ := List.exists_cons_of_ne_nil given
  have filled : ∀ {args : List Value}, (first :: rest).length = args.length + 1 →
      args.length = rest.length := by
    intro args counted
    simpa using counted.symm
  refine ⟨⟨?_, ?_⟩, ?_⟩
  · intro agrees
    exact isFaithful_of_agrees plain untranslated (agrees _ (by simp [placeholders]))
  · intro faithful args counted
    exact agrees_of_isFaithful (filled counted) plain untranslated faithful
  · intro args counted
    exact translate_total (filled counted) plain untranslated

/-- An apostrophe inside a chunk stays; one before a placeholder hides it. -/
theorem translate_template_clock :
    unbraced ["it's ", " o'clock"] ∧ isFaithful ["it's ", " o'clock"] ∧
      (∀ hour : Value, Agrees
        (Locale.State.translate ⟨"en", []⟩ (stated ["it's ", " o'clock"]) [hour])
        (mark (stated ["it's ", " o'clock"]) [hour])) ∧
      unbraced ["o'", "clock"] ∧ ¬ isFaithful ["o'", "clock"] ∧
      ¬ ∀ args : List Value, 2 = args.length + 1 → Agrees
        (Locale.State.translate ⟨"en", []⟩ (stated ["o'", "clock"]) args)
        (mark (stated ["o'", "clock"]) args) := by
  have plain : unbraced ["it's ", " o'clock"] := by decide
  have faithful : isFaithful ["it's ", " o'clock"] := by decide
  have plain' : unbraced ["o'", "clock"] := by decide
  have hidden : ¬ isFaithful ["o'", "clock"] := by decide
  have untranslated : ∀ chunks, lacksTemplate [] chunks := fun _ _ _ _ found => by cases found
  have kept := @translate_template_iff _ _ ⟨"en", []⟩ (by simp) plain (untranslated _)
  have lost := @translate_template_iff _ _ ⟨"en", []⟩ (by simp) plain' (untranslated _)
  exact ⟨plain, faithful, fun hour => kept.1.mpr faithful [hour] rfl, plain', hidden,
    fun agrees => hidden (lost.1.mp agrees)⟩

/-- A power of ten has one digit more than its exponent. -/
def power (exponent : Nat) : Value := .number (.int (10 ^ exponent))

theorem power_written {exponent : Nat} (long : Number.digitLimit ≤ exponent) :
    (power exponent).written = .error .tooManyDigits := by
  have digits : (10 ^ exponent : Int).natAbs = 10 ^ exponent := Int.natAbs_pow 10 exponent
  have many : ¬ Number.digitCount (10 ^ exponent) ≤ Number.digitLimit := by
    rw [Number.digitCount_le_iff (by decide)]
    exact Nat.not_lt.mpr (Nat.pow_le_pow_right (by decide) long)
  rw [power, Value.written, Number.written, Number.isWritable, digits, decide_eq_false many]
  rfl

/-- A template may fail although it is faithful: an argument may have too many digits to be written,
and a chunk that is half of a pair of surrogates has no id. -/
theorem translate_template_fails :
    unbraced ["a", ""] ∧ lacksTemplate [] ["a", ""] ∧ isFaithful ["a", ""] ∧
      Locale.State.translate ⟨"en", []⟩ (stated ["a", ""]) [power Number.digitLimit] =
        .error (.escape (.fault .tooManyDigits)) ∧
      identify [0xD83D] none = .error ⟨0, 0xD83D, 1⟩ := by
  have plain : unbraced ["a", ""] := by decide
  have untranslated : lacksTemplate [] ["a", ""] := fun _ _ _ found => by cases found
  have faithful : isFaithful ["a", ""] := by decide
  have unwritten := power_written (Nat.le_refl Number.digitLimit)
  generalize power Number.digitLimit = argument at unwritten ⊢
  have same := @agrees_of_isFaithful "a" [""] [argument] ⟨"en", []⟩ _ rfl plain untranslated faithful
  have marked : mark (stated ["a", ""]) [argument] = .error (.fault .tooManyDigits) := by
    rw [mark_stated rfl, interleave, unwritten]
    rfl
  rw [marked] at same
  exact ⟨plain, untranslated, faithful, same, by decide⟩

end Phrasebook

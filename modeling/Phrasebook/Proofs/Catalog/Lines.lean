import Mathlib.Data.List.Nodup
import Phrasebook.Catalog.Read
import Phrasebook.Catalog.Write
import Phrasebook.Proofs.Outcome
import Phrasebook.Proofs.Text.Pieces
import Phrasebook.Proofs.Text.Utf8
import Phrasebook.Proofs.Text.Wrap

set_option autoImplicit false

/-!
Single lines of a catalog: what each line that is written does when it is read.
-/
namespace Phrasebook.Catalog

open Outcome (bind_eq_ok)

/-! ### Items without duplicates -/

section Distinct

variable {α β : Type} [BEq α] [LawfulBEq α] [BEq β] [LawfulBEq β]

omit [LawfulBEq α] in
theorem distinct_concat (items : List α) (item : α) :
    distinct (items ++ [item]) =
      if (distinct items).contains item then distinct items else distinct items ++ [item] := by
  rw [distinct, List.foldl_append]
  rfl

theorem mem_distinct {items : List α} {item : α} : item ∈ distinct items ↔ item ∈ items := by
  induction items using List.reverseRecOn with
  | nil => exact Iff.rfl
  | append_singleton items last ih =>
    rw [distinct_concat, List.mem_append, List.mem_singleton, ← ih]
    by_cases known : (distinct items).contains last = true
    · have present : last ∈ distinct items := by simpa using known
      rw [if_pos known]
      constructor
      · exact .inl
      · rintro (old | rfl)
        · exact old
        · exact present
    · rw [if_neg known, List.mem_append, List.mem_singleton]

theorem nodup_distinct (items : List α) : (distinct items).Nodup := by
  induction items using List.reverseRecOn with
  | nil => exact List.nodup_nil
  | append_singleton items last ih =>
    rw [distinct_concat]
    by_cases known : (distinct items).contains last = true
    · rwa [if_pos known]
    · have absent : last ∉ distinct items := by simpa using known
      rw [if_neg known]
      exact List.concat_eq_append ▸ ih.concat absent

theorem distinct_of_nodup {items : List α} (once : items.Nodup) : distinct items = items := by
  induction items using List.reverseRecOn with
  | nil => rfl
  | append_singleton items last ih =>
    rw [List.nodup_append] at once
    have absent : last ∉ items := fun present =>
      once.2.2 last present last (List.mem_singleton_self last) rfl
    have own := ih once.1
    rw [distinct_concat, own, if_neg (by simpa using absent)]

omit [LawfulBEq α] in
theorem distinct_sublist (items : List α) : (distinct items).Sublist items := by
  induction items using List.reverseRecOn with
  | nil => exact List.Sublist.refl _
  | append_singleton items last ih =>
    rw [distinct_concat]
    split
    · exact ih.trans (List.sublist_append_left _ _)
    · exact ih.append (List.Sublist.refl _)

/-- What comes of items that have been met already has been met. -/
theorem distinct_map_distinct (change : α → β) (items : List α) :
    distinct ((distinct items).map change) = distinct (items.map change) := by
  induction items using List.reverseRecOn with
  | nil => rfl
  | append_singleton items last ih =>
    rw [distinct_concat, List.map_append, List.map_singleton, distinct_concat, ← ih]
    by_cases known : (distinct items).contains last = true
    · have present : last ∈ distinct items := by simpa using known
      have met : change last ∈ distinct ((distinct items).map change) :=
        mem_distinct.mpr (List.mem_map_of_mem present)
      rw [if_pos known, if_pos (by simpa using met)]
    · rw [if_neg known, List.map_append, List.map_singleton, distinct_concat]

end Distinct

/-! ### Bytes -/

theorem byteLines_line {line : List UInt8} (whole : 0x0A ∉ line) (rest : List UInt8) :
    byteLines (line ++ 0x0A :: rest) = line :: byteLines rest := by
  induction line with
  | nil => rw [List.nil_append, byteLines, if_pos rfl]
  | cons b line ih =>
    rw [List.mem_cons, not_or] at whole
    rw [List.cons_append, byteLines, if_neg (Ne.symm whole.1), ih whole.2]

/-- A line feed ends each line, the last one too. -/
theorem byteLines_lines {lines : List (List UInt8)} (whole : ∀ line ∈ lines, 0x0A ∉ line) :
    byteLines (lines.flatMap fun line => line ++ [0x0A]) = lines ++ [[]] := by
  induction lines with
  | nil => rfl
  | cons line lines ih =>
    rw [List.flatMap_cons, List.append_assoc, List.singleton_append,
      byteLines_line (whole line (by simp)), ih fun other member => whole other (by simp [member])]
    rfl

theorem lineFeed_of_mem_encode {line : List Char} (member : 0x0A ∈ Text.encode line) :
    '\n' ∈ line := by
  obtain ⟨c, present, byte⟩ := List.mem_flatMap.mp member
  have code := Text.encodeChar_small byte (by decide)
  have same : c = '\n' := Char.toNat_inj.mp code
  exact same ▸ present

theorem isBlank_of_byte {c : Char} {byte : UInt8} (member : byte ∈ String.utf8EncodeChar c)
    (blank : isBlankByte byte = true) : Text.isBlank c = true := by
  have range : byte.toNat = 0x20 ∨ 9 ≤ byte.toNat ∧ byte.toNat ≤ 0xD := by
    simp only [isBlankByte, Bool.or_eq_true, Bool.and_eq_true, decide_eq_true_iff] at blank
    rcases blank with rfl | bounds
    · exact .inl rfl
    · exact .inr bounds
  have code := Text.encodeChar_small member (by omega)
  rcases range with space | bounds
  · exact Text.within_iff.mpr ⟨(0x1C, 0x20), by decide, by dsimp only; omega, by dsimp only; omega⟩
  · exact Text.within_iff.mpr ⟨(0x9, 0xD), by decide, by dsimp only; omega, by dsimp only; omega⟩

/-- A line without blanks at its ends has no blank bytes there. -/
theorem encode_trim {line : List Char} (trim : Text.Trim Text.isBlank line) :
    Text.Trim isBlankByte (Text.encode line) where
  first byte first := by
    cases line with
    | nil => cases first
    | cons c rest =>
      rw [Text.encode, List.flatMap_cons, List.head?_append_of_ne_nil _ String.utf8EncodeChar_ne_nil]
        at first
      rw [Bool.eq_false_iff]
      intro blank
      have dark := isBlank_of_byte (List.mem_of_head? first) blank
      rw [trim.first c rfl] at dark
      cases dark
  last byte last := by
    rcases List.eq_nil_or_concat line with rfl | ⟨init, c, rfl⟩
    · cases last
    · rw [List.concat_eq_append] at trim last
      rw [Text.encode_append, Text.encode, Text.encode, List.flatMap_singleton,
        List.getLast?_append_of_ne_nil _ String.utf8EncodeChar_ne_nil] at last
      rw [Bool.eq_false_iff]
      intro blank
      have dark := isBlank_of_byte (List.mem_of_getLast? last) blank
      rw [trim.last c List.getLast?_concat] at dark
      cases dark

theorem encode_ne_nil {line : List Char} (nonempty : line ≠ []) : Text.encode line ≠ [] := by
  cases line with
  | nil => exact absurd rfl nonempty
  | cons c rest =>
    rw [Text.encode, List.flatMap_cons]
    intro none
    exact String.utf8EncodeChar_ne_nil (List.append_eq_nil_iff.mp none).1

theorem Charset.decode_of_isUtf8 {charset : Charset} (unicode : charset.isUtf8 = true)
    (bytes : List UInt8) : charset.decode bytes = Text.decode bytes := by
  cases charset with
  | utf8 name known => rfl
  | other name codec => cases unicode

theorem Charset.encode_of_isUtf8 {charset : Charset} (unicode : charset.isUtf8 = true)
    (text : List Char) : charset.encode text = Text.encode text := by
  cases charset with
  | utf8 name known => rfl
  | other name codec => cases unicode

/-- The text that a reader reads is in UTF-8. -/
def Reader.IsUtf8 (reader : Reader) : Prop := reader.header.charset.isUtf8 = true

theorem Reader.IsUtf8.of_header {reader next : Reader} (unicode : reader.IsUtf8)
    (same : next.header = reader.header) : next.IsUtf8 := by
  rw [Reader.IsUtf8, same]
  exact unicode

/-- A line is read as a text: it is the text, with a space behind it at most. -/
structure ReadsAs (line text : List Char) : Prop where
  nonempty : text ≠ []
  trim : Text.Trim Text.isBlank text
  spelled : line = text ∨ line = text ++ [' ']

theorem strippedBytes_encode {line text : List Char} (reads : ReadsAs line text) :
    strippedBytes (Text.encode line) = Text.encode text := by
  have trim := encode_trim reads.trim
  rcases reads.spelled with rfl | rfl
  · exact trim.ends
  · have space : isBlankByte 0x20 = true := by decide
    have first : ∀ byte, (Text.encode text ++ [0x20]).head? = some byte →
        isBlankByte byte = false := by
      rw [List.head?_append_of_ne_nil _ (encode_ne_nil reads.nonempty)]
      exact trim.first
    have bytes : Text.encode (text ++ [' ']) = Text.encode text ++ [0x20] :=
      Text.encode_append text [' ']
    have ends := trim.ends
    rw [Text.dropWhile_of_head trim.first] at ends
    rw [bytes, strippedBytes, Text.dropWhile_of_head first, List.reverse_concat,
      List.dropWhile_cons_of_pos space, ends]

theorem byteLine_encode [Codecs] {reader : Reader} (unicode : reader.IsUtf8) {line text : List Char}
    (reads : ReadsAs line text) : reader.byteLine (Text.encode line) = reader.line text := by
  rw [Reader.byteLine, strippedBytes_encode reads, if_neg (encode_ne_nil reads.nonempty),
    Charset.decode_of_isUtf8 unicode, Text.decode_encode]
  rfl

/-! ### Quoted texts -/

theorem unescape_escapedChar (c : Char) (rest : List Char) :
    unescape (escapedChar c ++ rest) = c :: unescape rest := by
  unfold escapedChar
  split
  · rfl
  · rfl
  · rfl
  · rfl
  · rfl
  · rename_i backslash _ _ _ _
    rw [List.singleton_append, unescape]
    exact fun _ _ same _ => backslash same

theorem unescape_escaped (text : List Char) : unescape (text.flatMap escapedChar) = text := by
  induction text with
  | nil => rfl
  | cons c rest ih => rw [List.flatMap_cons, unescape_escapedChar, ih]

theorem quotedText_trim (text : String) : Text.Trim Text.isBlank (quotedText text) where
  first c first := by
    cases first
    decide
  last c last := by
    rw [quotedText, List.getLast?_concat] at last
    cases last
    decide

theorem unquote_quotedText (text : String) :
    unquote (Text.stripped (quotedText text)) = text := by
  rw [Text.stripped, (quotedText_trim text).trimmed_eq, unquote, quotedText, List.cons_append,
    List.drop_succ_cons, List.drop_zero, List.dropLast_concat, unescape_escaped, String.ofList_toList]

/-! ### Keywords -/

/-- The mark before the lines of an obsolete entry. -/
def markOf (isObsolete : Bool) : String := if isObsolete then "#~ " else ""

/-- A line with a keyword and a text. -/
def textLine (isObsolete : Bool) (keyword text : String) : List Char :=
  (markOf isObsolete).toList ++ keyword.toList ++ ' ' :: quotedText text

/-- The keywords of an entry that is no plural. -/
def keywords : List String := ["msgctxt", "msgid", "msgstr"]

/-- A word that can stand before a quoted text. -/
structure IsKeyword (keyword : String) : Prop where
  first : (keyword.toList.head?.any fun c => !Text.isBlank c && c ≠ '#' && c ≠ '"') = true
  spaceless : ' ' ∉ keyword.toList
  whole : '\n' ∉ keyword.toList

instance (keyword : String) : Decidable (IsKeyword keyword) :=
  decidable_of_iff
    ((keyword.toList.head?.any fun c => !Text.isBlank c && c ≠ '#' && c ≠ '"') = true ∧
      ' ' ∉ keyword.toList ∧ '\n' ∉ keyword.toList)
    ⟨fun ⟨first, spaceless, whole⟩ => ⟨first, spaceless, whole⟩,
      fun known => ⟨known.first, known.spaceless, known.whole⟩⟩

theorem isKeyword_of_mem : ∀ keyword ∈ keywords, IsKeyword keyword := by
  decide

theorem IsKeyword.exists_cons {keyword : String} (known : IsKeyword keyword) :
    ∃ c rest, keyword.toList = c :: rest ∧ Text.isBlank c = false ∧ c ≠ '#' ∧ c ≠ '"' := by
  have first := known.first
  cases spelled : keyword.toList with
  | nil => simp [spelled] at first
  | cons c rest =>
    simp only [spelled, List.head?_cons, Option.any_some, Bool.and_eq_true, Bool.not_eq_true',
      decide_eq_true_iff] at first
    exact ⟨c, rest, rfl, first.1.1, first.1.2, first.2⟩

theorem textLine_trim (isObsolete : Bool) {keyword : String} (known : IsKeyword keyword)
    (text : String) : Text.Trim Text.isBlank (textLine isObsolete keyword text) where
  first c first := by
    obtain ⟨d, rest, spelled, dark, -, -⟩ := known.exists_cons
    cases isObsolete with
    | false =>
      rw [textLine, spelled] at first
      cases first
      exact dark
    | true =>
      cases first
      decide
  last c last := by
    rw [textLine, List.getLast?_append_of_ne_nil _ (List.cons_ne_nil _ _), List.getLast?_cons,
      quotedText, List.getLast?_concat] at last
    cases last
    decide

theorem textLine_ne_nil (isObsolete : Bool) (keyword text : String) :
    textLine isObsolete keyword text ≠ [] := by
  simp [textLine]

/-- A line that starts with another character than a quote has a keyword. -/
theorem entryLine_cons [Codecs] (reader : Reader) (isObsolete : Bool) {c : Char}
    (unquoted : c ≠ '"') (rest : List Char) :
    reader.entryLine isObsolete (c :: rest) = reader.keywordLine isObsolete (c :: rest) := by
  rw [Reader.entryLine]
  · exact nofun
  · exact fun _ same => unquoted (List.cons.inj same).1

theorem line_textLine [Codecs] (reader : Reader) (isObsolete : Bool) {keyword : String}
    (known : IsKeyword keyword) (text : String) :
    reader.line (textLine isObsolete keyword text) =
      reader.keywordLine isObsolete (keyword.toList ++ ' ' :: quotedText text) := by
  obtain ⟨c, rest, spelled, dark, noMark, unquoted⟩ := known.exists_cons
  cases isObsolete with
  | false =>
    have line : textLine false keyword text = c :: (rest ++ ' ' :: quotedText text) := by
      rw [textLine, spelled]
      rfl
    rw [line, spelled, List.cons_append, Reader.line, entryLine_cons _ _ unquoted]
    · exact fun _ same => noMark (List.cons.inj same).1
    · exact fun _ same => noMark (List.cons.inj same).1
  | true =>
    have line : textLine true keyword text =
        '#' :: '~' :: ' ' :: c :: (rest ++ ' ' :: quotedText text) := by
      rw [textLine, spelled]
      rfl
    have space : Text.isBlank ' ' = true := by decide
    rw [line, spelled, List.cons_append, Reader.line, List.dropWhile_cons_of_pos space,
      List.dropWhile_cons_of_neg (by rw [dark]; exact Bool.false_ne_true),
      entryLine_cons _ _ unquoted]

/-- Keywords that an entry starts with end the entry before. -/
theorem keywordLine_quoted [Codecs] (reader : Reader) (isObsolete : Bool) {keyword : List Char}
    (word : ' ' ∉ keyword) (text : String) :
    reader.keywordLine isObsolete (keyword ++ ' ' :: quotedText text) =
      (if (keyword = "msgid".toList || keyword = "msgctxt".toList) = true then reader.finish
        else .ok reader) >>= fun reader => reader.take isObsolete keyword text := by
  rw [Reader.keywordLine, Text.cutFirst_append word]
  simp only [Option.getD_some, unquote_quotedText]
  split <;> rfl

theorem finish_of_nil [Codecs] {reader : Reader} (begun : reader.draft.ids = []) :
    reader.finish = .ok reader := by
  rw [Reader.finish, if_pos begun]

theorem line_context [Codecs] {reader : Reader} (begun : reader.draft.ids = []) (isObsolete : Bool)
    (text : String) :
    reader.line (textLine isObsolete "msgctxt" text) = .ok (reader.withDraft
      { reader.draft with isObsolete := isObsolete, context := some text, inContext := true }) := by
  rw [line_textLine _ _ (by decide), keywordLine_quoted _ _ (by decide), if_pos (by decide),
    finish_of_nil begun]
  rfl

theorem line_id [Codecs] {reader : Reader} (begun : reader.draft.ids = []) (isObsolete : Bool)
    (text : String) :
    reader.line (textLine isObsolete "msgid" text) = .ok (reader.withDraft
      { reader.draft with
        isObsolete := isObsolete, ids := [text], inId := true, inContext := false }) := by
  rw [line_textLine _ _ (by decide), keywordLine_quoted _ _ (by decide), if_pos (by decide),
    finish_of_nil begun]
  simp only [Outcome.ok_bind, Reader.take, begun, List.nil_append, true_or, if_true]

theorem line_translation [Codecs] (reader : Reader) (isObsolete : Bool) (text : String) :
    reader.line (textLine isObsolete "msgstr" text) = .ok (reader.withDraft
      { reader.draft with
        isObsolete := isObsolete, translations := reader.draft.translations ++ [(0, text)],
        inId := false, inTranslation := true }) := by
  rw [line_textLine _ _ (by decide), keywordLine_quoted _ _ (by decide), if_neg (by decide)]
  rfl

/-! ### Comments -/

/-- What a comment adds to a draft. -/
def Draft.commented (draft : Draft) (line : List Char) : Draft :=
  match line.drop 1 with
  | ':' :: _ => { draft with locations := draft.locations ++ locationsOf (line.drop 2) }
  | ',' :: _ => { draft with flags := draft.flags ++ flagsOf (line.drop 2) }
  | '.' :: _ =>
    let comment := Text.stripped (line.drop 2)
    if comment = [] then draft
    else { draft with comments := draft.comments ++ [String.ofList comment] }
  | note => { draft with notes := draft.notes ++ [String.ofList (Text.stripped note)] }

theorem commentLine_eq [Codecs] (reader : Reader) (line : List Char) :
    reader.commentLine line =
      reader.finish >>= fun reader => .ok (reader.withDraft (reader.draft.commented line)) := rfl

/-- The marks of comments that are written. -/
def commentMarks : List String := ["#", "#.", "#:", "#,"]

theorem line_comment [Codecs] (reader : Reader) {mark : String} (known : mark ∈ commentMarks)
    (text : List Char) :
    reader.line (mark.toList ++ ' ' :: text) = reader.commentLine (mark.toList ++ ' ' :: text) := by
  simp only [commentMarks, List.mem_cons, List.not_mem_nil, or_false] at known
  rcases known with rfl | rfl | rfl | rfl <;> rfl

theorem mark_start : ∀ mark ∈ commentMarks, mark.toList.head? = some '#' := by
  decide

theorem comment_trim {mark : String} (known : mark ∈ commentMarks) {text : List Char}
    (nonempty : text ≠ []) (trim : Text.Trim Text.isBlank text) :
    Text.Trim Text.isBlank (mark.toList ++ ' ' :: text) where
  first c first := by
    rw [List.head?_append, mark_start mark known] at first
    cases first
    decide
  last c last := by
    rw [List.getLast?_append_of_ne_nil _ (List.cons_ne_nil _ _), List.getLast?_cons] at last
    rcases List.eq_nil_or_concat text with rfl | ⟨init, d, rfl⟩
    · exact absurd rfl nonempty
    · rw [List.concat_eq_append] at last trim
      rw [List.getLast?_concat] at last
      cases last
      exact trim.last d List.getLast?_concat

/-- The lines that a comment is written on, without their mark. -/
def commentTexts (comment : List Char) : List (List Char) :=
  (Text.wrap commentWidth comment).map Text.stripped

theorem commentLines_eq (mark : String) (comment : List Char) :
    commentLines mark comment =
      (commentTexts comment).map fun text => mark.toList ++ ' ' :: text := by
  rw [commentLines, commentTexts, List.map_map]
  rfl

/-- The text of one line of a comment. -/
structure IsCommentText (text : List Char) : Prop where
  nonempty : text ≠ []
  trim : Text.Trim Text.isBlank text
  spaced : Text.Spaced text
  again : commentTexts text = [text]

theorem isCommentText {comment text : List Char} (member : text ∈ commentTexts comment) :
    IsCommentText text := by
  obtain ⟨line, filled, rfl⟩ := List.mem_map.mp member
  obtain ⟨nonempty, spaced, again⟩ := Text.wrap_line filled
  have trim : Text.Trim Text.isBlank (Text.stripped line) := Text.trim_trimmed _ _
  refine ⟨nonempty, trim, spaced, ?_⟩
  rw [commentTexts, again, List.map_singleton, Text.stripped, Text.stripped]
  exact congrArg (fun text => [text]) trim.trimmed_eq

/-! ### Several lines -/

/-- Reads lines in UTF-8. -/
def Reader.encoded [Codecs] (reader : Reader) (lines : List (List Char)) :
    Except ReadFault Reader :=
  (lines.map Text.encode).foldlM Reader.byteLine reader

theorem encoded_nil [Codecs] (reader : Reader) : reader.encoded [] = .ok reader := rfl

theorem encoded_append [Codecs] (reader : Reader) (lines more : List (List Char)) :
    reader.encoded (lines ++ more) = reader.encoded lines >>= fun next => next.encoded more := by
  simp only [Reader.encoded, List.map_append, List.foldlM_append]

theorem encoded_readsAs [Codecs] {reader : Reader} (unicode : reader.IsUtf8) {line text : List Char}
    (reads : ReadsAs line text) (lines : List (List Char)) :
    reader.encoded (line :: lines) = reader.line text >>= fun next => next.encoded lines := by
  rw [Reader.encoded, List.map_cons, List.foldlM_cons, byteLine_encode unicode reads]
  rfl

theorem encoded_cons [Codecs] {reader : Reader} (unicode : reader.IsUtf8) {line : List Char}
    (nonempty : line ≠ []) (trim : Text.Trim Text.isBlank line) (lines : List (List Char)) :
    reader.encoded (line :: lines) = reader.line line >>= fun next => next.encoded lines :=
  encoded_readsAs unicode ⟨nonempty, trim, .inl rfl⟩ lines

theorem encoded_blank [Codecs] (reader : Reader) (lines : List (List Char)) :
    reader.encoded ([] :: lines) = reader.encoded lines := rfl

/-- Comments add to the draft one after another. -/
theorem encoded_comments [Codecs] {reader : Reader} (unicode : reader.IsUtf8)
    (begun : reader.draft.ids = []) {mark : String} (known : mark ∈ commentMarks)
    {texts : List (List Char)}
    (fair : ∀ text ∈ texts, text ≠ [] ∧ Text.Trim Text.isBlank text) :
    reader.encoded (texts.map fun text => mark.toList ++ ' ' :: text) =
      .ok (reader.withDraft ((texts.map fun text => mark.toList ++ ' ' :: text).foldl
        Draft.commented reader.draft)) := by
  induction texts generalizing reader with
  | nil => rfl
  | cons text texts ih =>
    obtain ⟨nonempty, trim⟩ := fair text (by simp)
    have kept : (reader.draft.commented (mark.toList ++ ' ' :: text)).ids = [] := by
      rw [← begun, Draft.commented]
      split
      · rfl
      · rfl
      · dsimp only
        split <;> rfl
      · rfl
    rw [List.map_cons, encoded_cons unicode (by simp) (comment_trim known nonempty trim),
      line_comment _ known, commentLine_eq, finish_of_nil begun, Outcome.ok_bind, Outcome.ok_bind]
    have next : (reader.withDraft (reader.draft.commented (mark.toList ++ ' ' :: text))).IsUtf8 :=
      unicode
    exact ih next kept fun other member => fair other (by simp [member])

theorem stripped_space {text : List Char} (trim : Text.Trim Text.isBlank text) :
    Text.stripped (' ' :: text) = text := by
  have space : Text.isBlank ' ' = true := by decide
  rw [Text.stripped, Text.trimmed, List.dropWhile_cons_of_pos space]
  exact trim.ends

section Texts

variable {texts : List (List Char)} (fair : ∀ text ∈ texts, IsCommentText text) (draft : Draft)

include fair

theorem commented_notes :
    (texts.map fun text => "#".toList ++ ' ' :: text).foldl Draft.commented draft =
      { draft with notes := draft.notes ++ texts.map String.ofList } := by
  induction texts generalizing draft with
  | nil => simp
  | cons text texts ih =>
    have own := fair text (by simp)
    have first : draft.commented ("#".toList ++ ' ' :: text) =
        { draft with notes := draft.notes ++ [String.ofList text] } := by
      change { draft with notes := draft.notes ++ [String.ofList (Text.stripped (' ' :: text))] } = _
      rw [stripped_space own.trim]
    rw [List.map_cons, List.foldl_cons, first, ih fun other member => fair other (by simp [member])]
    simp

theorem commented_comments :
    (texts.map fun text => "#.".toList ++ ' ' :: text).foldl Draft.commented draft =
      { draft with comments := draft.comments ++ texts.map String.ofList } := by
  induction texts generalizing draft with
  | nil => simp
  | cons text texts ih =>
    have own := fair text (by simp)
    have first : draft.commented ("#.".toList ++ ' ' :: text) =
        { draft with comments := draft.comments ++ [String.ofList text] } := by
      change (if Text.stripped (' ' :: text) = [] then draft else
        { draft with
          comments := draft.comments ++ [String.ofList (Text.stripped (' ' :: text))] }) = _
      rw [stripped_space own.trim, if_neg own.nonempty]
    rw [List.map_cons, List.foldl_cons, first, ih fun other member => fair other (by simp [member])]
    simp

omit fair in
theorem commented_locations :
    (texts.map fun text => "#:".toList ++ ' ' :: text).foldl Draft.commented draft =
      { draft with
        locations := draft.locations ++ texts.flatMap fun text => locationsOf (' ' :: text) } := by
  induction texts generalizing draft with
  | nil => simp
  | cons text texts ih =>
    have first : draft.commented ("#:".toList ++ ' ' :: text) =
        { draft with locations := draft.locations ++ locationsOf (' ' :: text) } := rfl
    rw [List.map_cons, List.foldl_cons, first, ih]
    simp

end Texts

/-! ### Flags -/

theorem Flag.ofText?_eq {flag : Flag} {text : List Char}
    (named : Text.stripped text = flag.name.toList) : ofText? text = some flag := by
  have name : String.ofList (Text.stripped text) = flag.name := by rw [named, String.ofList_toList]
  simp only [ofText?, name]
  exact dif_pos ⟨flag.whole, flag.oneLine, flag.trim⟩

theorem Flag.trimmed (flag : Flag) : Text.Trim Text.isBlank flag.name.toList := by
  rw [← flag.trim]
  exact Text.trim_trimmed _ _

theorem mem_orderedFlags {flags : List Flag} {flag : Flag} :
    flag ∈ orderedFlags flags ↔ flag ∈ flags := by
  rw [orderedFlags, List.mem_mergeSort, mem_distinct]

theorem nodup_orderedFlags (flags : List Flag) : (orderedFlags flags).Nodup :=
  (List.mergeSort_perm _ _).nodup_iff.mpr (nodup_distinct flags)

theorem pairwise_orderedFlags (flags : List Flag) :
    (orderedFlags flags).Pairwise fun a b => a.name ≤ b.name := by
  have ordered : (orderedFlags flags).Pairwise fun a b => decide (a.name ≤ b.name) = true := by
    refine List.pairwise_mergeSort (fun a b c first second => ?_) (fun a b => ?_) _
    · exact decide_eq_true (String.le_trans (of_decide_eq_true first) (of_decide_eq_true second))
    · rw [Bool.or_eq_true, decide_eq_true_iff, decide_eq_true_iff]
      exact String.le_total a.name b.name
  simpa using ordered

/-- Flags in order stay in order. -/
theorem orderedFlags_again (flags : List Flag) :
    orderedFlags (orderedFlags flags) = orderedFlags flags := by
  have ordered : (orderedFlags flags).Pairwise fun a b => decide (a.name ≤ b.name) = true := by
    simpa using pairwise_orderedFlags flags
  rw [orderedFlags, distinct_of_nodup (nodup_orderedFlags flags),
    List.mergeSort_of_pairwise ordered]

/-- Of several flags in order the last one has a name that is not empty. -/
theorem orderedFlags_last {flags front : List Flag} {last : Flag}
    (ordered : orderedFlags flags = front ++ [last]) : front = [] ∨ last.name ≠ "" := by
  have once := nodup_orderedFlags flags
  have rising := pairwise_orderedFlags flags
  rw [ordered, List.nodup_append] at once
  rw [ordered, List.pairwise_append] at rising
  cases front with
  | nil => exact .inl rfl
  | cons first front =>
    refine .inr fun empty => ?_
    have below : first.name ≤ "" :=
      empty ▸ rising.2.2 first List.mem_cons_self last (List.mem_singleton_self last)
    have blank : first.name = "" := String.toList_eq_nil_iff.mp (List.le_nil.mp below)
    have same : first = last := Flag.ext (blank.trans empty.symm)
    exact once.2.2 first List.mem_cons_self last (List.mem_singleton_self last) same

/-- A comma and a space between texts are a comma between texts with a space before them. -/
theorem intercalate_spaced (text : List Char) (texts : List (List Char)) :
    [',', ' '].intercalate (text :: texts) = [','].intercalate (text :: texts.map (' ' :: ·)) := by
  induction texts generalizing text with
  | nil => rfl
  | cons next texts ih =>
    rw [List.map_cons, List.intercalate_cons_cons, List.intercalate_cons_cons, ih]
    cases texts <;> simp [List.intercalate_cons_cons]

theorem pieces_flagText (flag : Flag) (flags : List Flag) :
    Text.pieces ',' (flagText (flag :: flags)) =
      flag.name.toList :: flags.map fun flag => ' ' :: flag.name.toList := by
  rw [flagText, List.map_cons, intercalate_spaced, Text.pieces_intercalate (List.cons_ne_nil _ _)]
  · rw [List.map_map]
    rfl
  · intro part member
    rcases List.mem_cons.mp member with rfl | later
    · exact flag.whole
    · obtain ⟨text, named, rfl⟩ := List.mem_map.mp later
      obtain ⟨other, -, rfl⟩ := List.mem_map.mp named
      simpa using other.whole

theorem flagText_cons (flag next : Flag) (flags : List Flag) :
    flagText (flag :: next :: flags) =
      flag.name.toList ++ ',' :: ' ' :: flagText (next :: flags) := by
  simp [flagText, List.intercalate_cons_cons]

theorem flagText_singleton (flag : Flag) : flagText [flag] = flag.name.toList := by
  simp [flagText]

theorem flagText_first {flags : List Flag} (c : Char) (first : (flagText flags).head? = some c) :
    Text.isBlank c = false := by
  match flags with
  | [] => cases first
  | [flag] =>
    rw [flagText_singleton] at first
    exact flag.trimmed.first c first
  | flag :: next :: flags =>
    rw [flagText_cons] at first
    cases named : flag.name.toList with
    | nil =>
      rw [named] at first
      cases first
      decide
    | cons d rest =>
      rw [named] at first
      exact flag.trimmed.first c (named ▸ first)

theorem suffix_flagText (front : List Flag) (last : Flag) :
    last.name.toList <:+ flagText (front ++ [last]) := by
  induction front with
  | nil => exact ⟨[], (flagText_singleton last).symm⟩
  | cons flag front ih =>
    obtain ⟨next, flags, split⟩ := List.exists_cons_of_ne_nil (List.concat_ne_nil last front)
    rw [List.cons_append, split, flagText_cons, ← split]
    exact ih.trans ((List.suffix_cons _ _).trans ((List.suffix_cons _ _).trans
      (List.suffix_append _ _)))

/-- Flags that are written are read as they are. -/
theorem flagsOf_flagText {flags : List Flag} (some : flags ≠ []) :
    flagsOf (' ' :: flagText flags) = flags := by
  have space : Text.isBlank ' ' = true := by decide
  have others : ∀ flags : List Flag,
      (flags.map fun flag => ' ' :: flag.name.toList).filterMap Flag.ofText? = flags := by
    intro flags
    induction flags with
    | nil => rfl
    | cons flag flags ih =>
      have read := Flag.ofText?_eq (stripped_space flag.trimmed)
      rw [List.map_cons, List.filterMap_cons_some read, ih]
  cases flags with
  | nil => exact absurd rfl some
  | cons flag flags =>
    rw [flagsOf, List.dropWhile_cons_of_pos space, Text.dropWhile_of_head flagText_first,
      pieces_flagText, List.filterMap_cons_some (Flag.ofText?_eq flag.trim), others]

/-- A line is read as a comment that states flags. -/
def StatesFlags [Codecs] (line : List Char) (flags : List Flag) : Prop :=
  ∃ text, ReadsAs line text ∧ (∀ reader : Reader, reader.line text = reader.commentLine text) ∧
    ∀ draft : Draft, draft.commented text = { draft with flags := draft.flags ++ flags }

/-- A flag without a name stands alone, and the space behind the comma is not read. -/
theorem statesFlags_unnamed [Codecs] {flag : Flag} (unnamed : flag.name = "") :
    StatesFlags ("#, ".toList ++ flagText [flag]) [flag] := by
  have text : flagText [flag] = [] := by
    rw [flagText_singleton, unnamed]
    rfl
  have blank : Flag.ofText? [] = .some flag := Flag.ofText?_eq (by rw [unnamed]; rfl)
  have read : flagsOf [] = [flag] := List.filterMap_cons_some blank
  refine ⟨"#,".toList, ⟨by decide, by decide, .inr ?_⟩, fun _ => rfl, fun draft => ?_⟩
  · rw [text]
    rfl
  · rw [← read]
    rfl

/-- The text of flags, the last with a name, ends with the name and is read as it is. -/
theorem statesFlags_named [Codecs] {flags front : List Flag} {last : Flag}
    (ordered : orderedFlags flags = front ++ [last]) (named : last.name ≠ "") :
    StatesFlags ("#, ".toList ++ flagText (orderedFlags flags)) (orderedFlags flags) := by
  have shown : last.name.toList ≠ [] := fun none => named (String.toList_eq_nil_iff.mp none)
  obtain ⟨before, whole⟩ := suffix_flagText front last
  rw [← ordered] at whole
  have trim : Text.Trim Text.isBlank (flagText (orderedFlags flags)) := ⟨flagText_first, by
    rw [← whole, List.getLast?_append_of_ne_nil _ shown]
    exact last.trimmed.last⟩
  have written : flagText (orderedFlags flags) ≠ [] := by
    rw [← whole]
    exact List.append_ne_nil_of_right_ne_nil _ shown
  have nonempty : orderedFlags flags ≠ [] := by simp [ordered]
  have known : "#," ∈ commentMarks := by decide
  refine ⟨"#,".toList ++ ' ' :: flagText (orderedFlags flags),
    ⟨by simp, comment_trim known written trim, .inl rfl⟩,
    fun reader => line_comment reader known _, fun draft => ?_⟩
  have read := flagsOf_flagText nonempty
  exact congrArg (fun added => { draft with flags := draft.flags ++ added }) read

/-- The line that is written for flags states them in order. -/
theorem flagLine_states [Codecs] {flags : List Flag} (some : flags ≠ []) :
    StatesFlags ("#, ".toList ++ flagText (orderedFlags flags)) (orderedFlags flags) := by
  have nonempty : orderedFlags flags ≠ [] := by
    obtain ⟨flag, rest, rfl⟩ := List.exists_cons_of_ne_nil some
    exact List.ne_nil_of_mem (mem_orderedFlags.mpr List.mem_cons_self)
  obtain ⟨front, last, ordered⟩ : ∃ front last, orderedFlags flags = front ++ [last] :=
    ⟨_, _, (List.dropLast_concat_getLast nonempty).symm⟩
  by_cases named : last.name = ""
  · have alone : front = [] := (orderedFlags_last ordered).resolve_right fun apart => apart named
    rw [ordered, alone, List.nil_append]
    exact statesFlags_unnamed named
  · exact statesFlags_named ordered named

theorem lineFeed_flagLines (flags : List Flag) : ∀ line ∈ flagLines flags, '\n' ∉ line := by
  intro line member
  rw [flagLines] at member
  split at member
  · cases member
  · rw [List.mem_singleton.mp member, List.mem_append, not_or]
    refine ⟨by decide, ?_⟩
    induction orderedFlags flags with
    | nil => exact List.not_mem_nil
    | cons flag rest ih =>
      cases rest with
      | nil =>
        rw [flagText_singleton]
        exact flag.oneLine
      | cons next rest =>
        rw [flagText_cons, List.mem_append, List.mem_cons, List.mem_cons]
        rintro (own | comma | space | later)
        · exact flag.oneLine own
        · exact absurd comma (by decide)
        · exact absurd space (by decide)
        · exact ih later

/-! ### Line feeds -/

theorem lineFeed_escapedChar (c : Char) : '\n' ∉ escapedChar c := by
  unfold escapedChar
  split
  · decide
  · decide
  · decide
  · decide
  · decide
  · rename_i lineFeed _
    rw [List.mem_singleton]
    exact fun same => lineFeed same.symm

theorem lineFeed_textLine (isObsolete : Bool) {keyword : String} (known : IsKeyword keyword)
    (text : String) : '\n' ∉ textLine isObsolete keyword text := by
  have mark : ∀ isObsolete, '\n' ∉ (markOf isObsolete).toList := by
    decide
  have quoted : '\n' ∉ quotedText text := by
    simp only [quotedText, List.cons_append, List.mem_cons, List.mem_append, List.mem_flatMap,
      List.not_mem_nil, or_false, not_or, not_exists, not_and]
    exact ⟨by decide, fun c _ => lineFeed_escapedChar c, by decide⟩
  rw [textLine, List.mem_append, List.mem_append, List.mem_cons, not_or, not_or, not_or]
  exact ⟨⟨mark isObsolete, known.whole⟩, by decide, quoted⟩

theorem lineFeed_comment {mark : String} (known : mark ∈ commentMarks) {text : List Char}
    (fair : Text.Spaced text) : '\n' ∉ mark.toList ++ ' ' :: text := by
  have start : ∀ mark ∈ commentMarks, '\n' ∉ mark.toList := by
    decide
  rw [List.mem_append, List.mem_cons, not_or, not_or]
  refine ⟨start mark known, by decide, fun member => ?_⟩
  exact absurd (fair _ member (by decide)) (by decide)

/-- A file of lines without line feeds is read line by line. -/
theorem byteLines_encoded [Codecs] (reader : Reader) {lines : List (List Char)}
    (whole : ∀ line ∈ lines, '\n' ∉ line) :
    (byteLines (lines.flatMap fun line => Text.encode (line ++ ['\n']))).foldlM
        Reader.byteLine reader = reader.encoded lines := by
  have bytes : (lines.flatMap fun line => Text.encode (line ++ ['\n'])) =
      (lines.map Text.encode).flatMap fun line => line ++ [0x0A] := by
    rw [List.flatMap_map]
    exact congrArg lines.flatMap (funext fun line => Text.encode_append line ['\n'])
  have none : ∀ line ∈ lines.map Text.encode, 0x0A ∉ line := by
    intro line member byte
    obtain ⟨text, listed, rfl⟩ := List.mem_map.mp member
    exact whole text listed (lineFeed_of_mem_encode byte)
  rw [bytes, byteLines_lines none, List.foldlM_append, ← Reader.encoded]
  cases reader.encoded lines <;> rfl

end Phrasebook.Catalog

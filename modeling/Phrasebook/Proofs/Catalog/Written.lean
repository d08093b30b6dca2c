import Phrasebook.Proofs.Catalog.Lines
import Phrasebook.Proofs.Catalog.Merging
import Phrasebook.Proofs.Number.Digits

set_option autoImplicit false

/-!
A catalog that has been written is read again: every entry comes back with its texts, its comments
line by line, and without what the file does not hold.
-/
namespace Phrasebook.Catalog

open Outcome (bind_eq_ok)

/-! ### Entries as they are read -/

/-- The lines of comments. -/
def textsOf (comments : List String) : List (List Char) :=
  comments.flatMap fun comment => commentTexts comment.toList

/-- Comments as they are read: each of their lines is a comment, and none comes twice. -/
def refilled (comments : List String) : List String :=
  distinct ((textsOf comments).map String.ofList)

/-- The lines of locations. -/
def locationLines (locations : List Location) : List (List Char) :=
  commentTexts ([' '].intercalate (locationTexts locations))

/-- Locations as they are read. -/
def relocated (locations : List Location) : List Location :=
  distinct ((locationLines locations).flatMap fun text => locationsOf (' ' :: text))

/-- An entry as it is read after it has been written. -/
def Entry.asRead (entry : Entry) : Entry where
  id := .single entry.id.first
  translation := .single entry.translation.first
  context := properContext entry.context
  locations := relocated entry.locations
  flags := orderedFlags entry.flags
  comments := refilled entry.comments
  notes := refilled entry.notes

/-- An obsolete entry as it is read. It has lost what only active entries are written with. -/
def Entry.asReadObsolete (entry : Entry) : Entry where
  id := .single entry.id.first
  translation := .single entry.translation.first
  context := properContext entry.context
  locations := []
  flags := []
  comments := []
  notes := refilled entry.notes

/-- A catalog as it is read after it has been written. -/
def asRead (catalog : Catalog) : Catalog :=
  catalog.allObsolete.foldl
    (fun catalog entry => catalog.addObsolete entry.asReadObsolete.key entry.asReadObsolete)
    (catalog.all.foldl (fun catalog entry => catalog.add entry.asRead) empty)

theorem isCommentText_textsOf {comments : List String} {text : List Char}
    (member : text ∈ textsOf comments) : IsCommentText text := by
  obtain ⟨comment, -, part⟩ := List.mem_flatMap.mp member
  exact isCommentText part

theorem commentLines_textsOf (mark : String) (comments : List String) :
    (comments.flatMap fun comment => commentLines mark comment.toList) =
      (textsOf comments).map fun text => mark.toList ++ ' ' :: text := by
  rw [textsOf, List.map_flatMap]
  exact congrArg comments.flatMap (funext fun comment => commentLines_eq mark comment.toList)

theorem textLines_eq {entry : Entry} (plain : entry.isPlain = true) (isObsolete : Bool) :
    textLines (markOf isObsolete) entry =
      (properContext entry.context).toList.map (textLine isObsolete "msgctxt") ++
        [textLine isObsolete "msgid" entry.id.first,
          textLine isObsolete "msgstr" entry.translation.first] := by
  obtain ⟨id, translation, context, locations, flags, comments, notes⟩ := entry
  cases id with
  | single text => rfl
  | forms texts => cases plain

theorem textLines_forms {entry : Entry} (forms : entry.id.isForms = true) (isObsolete : Bool) :
    ∃ first second, textLines (markOf isObsolete) entry =
      (properContext entry.context).toList.map (textLine isObsolete "msgctxt") ++
        textLine isObsolete "msgid" first :: textLine isObsolete "msgid_plural" second ::
          entry.translation.texts.zipIdx.map fun form =>
            textLine isObsolete ("msgstr[" ++ toString form.2 ++ "]") form.1 := by
  obtain ⟨id, translation, context, locations, flags, comments, notes⟩ := entry
  cases id with
  | single text => cases forms
  | forms texts => exact ⟨texts.getD 0 "", texts.getD 1 "", List.append_assoc ..⟩

/-- The texts of an entry begin with its context, and its id follows. -/
theorem textLines_cons (entry : Entry) (isObsolete : Bool) :
    ∃ id rest, textLines (markOf isObsolete) entry =
      (properContext entry.context).toList.map (textLine isObsolete "msgctxt") ++
        textLine isObsolete "msgid" id :: rest := by
  obtain ⟨id, translation, context, locations, flags, comments, notes⟩ := entry
  cases id with
  | single text => exact ⟨text, _, rfl⟩
  | forms texts => exact ⟨texts.getD 0 "", _, List.append_assoc ..⟩

/-- Each form of a plural has a line of its own. -/
theorem isKeyword_form (n : Nat) : IsKeyword ("msgstr[" ++ toString n ++ "]") := by
  have plain : ∀ c ∈ (toString n).toList, c.isDigit = true := by
    intro c member
    rw [Number.toString_toList] at member
    exact Number.plain_of_mem_digits member
  have spelled : ("msgstr[" ++ toString n ++ "]").toList =
      "msgstr[".toList ++ ((toString n).toList ++ [']']) := by
    rw [String.toList_append, String.toList_append, List.append_assoc]
    rfl
  have absent : ∀ c, c ∉ "msgstr[]".toList → c.isDigit = false →
      c ∉ ("msgstr[" ++ toString n ++ "]").toList := by
    intro c apart noDigit member
    rw [spelled, List.mem_append, List.mem_append, List.mem_singleton] at member
    rcases member with first | number | last
    · exact apart (List.mem_append_left [']'] first)
    · rw [plain c number] at noDigit
      cases noDigit
    · exact apart (last ▸ by decide)
  refine ⟨?_, absent ' ' (by decide) (by decide), absent '\n' (by decide) (by decide)⟩
  rw [spelled]
  rfl

/-- Every line of texts is a keyword with a text. -/
theorem textLine_of_mem {entry : Entry} {isObsolete : Bool} {line : List Char}
    (member : line ∈ textLines (markOf isObsolete) entry) :
    ∃ keyword text, IsKeyword keyword ∧ line = textLine isObsolete keyword text := by
  obtain ⟨id, translation, context, locations, flags, comments, notes⟩ := entry
  cases id with
  | single text =>
    simp only [textLines, List.mem_append, List.mem_map, List.mem_cons, List.not_mem_nil, or_false]
      at member
    rcases member with ⟨stated, -, rfl⟩ | rfl | rfl
    · exact ⟨"msgctxt", stated, by decide, rfl⟩
    · exact ⟨"msgid", text, by decide, rfl⟩
    · exact ⟨"msgstr", translation.first, by decide, rfl⟩
  | forms texts =>
    simp only [textLines, List.mem_append, List.mem_map, List.mem_cons, List.not_mem_nil, or_false]
      at member
    rcases member with (⟨stated, -, rfl⟩ | rfl | rfl) | ⟨⟨form, n⟩, -, rfl⟩
    · exact ⟨"msgctxt", stated, by decide, rfl⟩
    · exact ⟨"msgid", _, by decide, rfl⟩
    · exact ⟨"msgid_plural", _, by decide, rfl⟩
    · exact ⟨_, form, isKeyword_form n, rfl⟩

/-! ### Drafts -/

/-- The draft of an entry whose texts have been read. -/
def Draft.worded (draft : Draft) (isObsolete : Bool) (entry : Entry) : Draft :=
  { draft with
    ids := [entry.id.first], translations := [(0, entry.translation.first)],
    context := properContext entry.context, isObsolete := isObsolete, inContext := false,
    inId := false, inTranslation := true }

/-- Nothing but comments has been read for a draft. -/
structure Draft.IsBare (draft : Draft) : Prop where
  ids : draft.ids = []
  translations : draft.translations = []
  context : draft.context = none

theorem encoded_texts [Codecs] {reader : Reader} (unicode : reader.IsUtf8)
    (bare : reader.draft.IsBare) (isObsolete : Bool) {entry : Entry}
    (plain : entry.isPlain = true) :
    reader.encoded (textLines (markOf isObsolete) entry ++ [[]]) =
      .ok (reader.withDraft (reader.draft.worded isObsolete entry)) := by
  have fair : ∀ keyword ∈ keywords, ∀ text,
      Text.Trim Text.isBlank (textLine isObsolete keyword text) :=
    fun keyword known text => textLine_trim isObsolete (isKeyword_of_mem keyword known) text
  have texts : ∀ start : Reader, start.IsUtf8 → start.draft.ids = [] →
      start.draft.translations = [] →
      start.encoded ([textLine isObsolete "msgid" entry.id.first,
        textLine isObsolete "msgstr" entry.translation.first] ++ [[]]) =
      .ok (start.withDraft { start.draft with
        ids := [entry.id.first], translations := [(0, entry.translation.first)],
        isObsolete := isObsolete, inContext := false, inId := false, inTranslation := true }) := by
    intro start readable ids translations
    rw [List.cons_append, encoded_cons readable (textLine_ne_nil _ _ _) (fair _ (by decide) _),
      line_id ids, Outcome.ok_bind, List.cons_append, encoded_cons _ (textLine_ne_nil _ _ _)
      (fair _ (by decide) _), line_translation, Outcome.ok_bind, List.nil_append, encoded_blank,
      encoded_nil]
    · simp only [Reader.withDraft, translations, List.nil_append]
    · exact readable
  rw [textLines_eq plain, List.append_assoc]
  cases context : properContext entry.context with
  | none =>
    rw [Option.toList_none, List.map_nil, List.nil_append,
      texts reader unicode bare.ids bare.translations]
    simp only [Draft.worded, context, bare.context]
  | some text =>
    rw [Option.toList_some, List.map_singleton, List.singleton_append,
      encoded_cons unicode (textLine_ne_nil _ _ _) (fair _ (by decide) _), line_context bare.ids,
      Outcome.ok_bind]
    refine (texts _ ?_ ?_ ?_).trans ?_
    · exact unicode
    · exact bare.ids
    · exact bare.translations
    · simp only [Draft.worded, context, Reader.withDraft]

/-- The draft of an active entry. -/
def Entry.draft (entry : Entry) : Draft where
  ids := [entry.id.first]
  translations := [(0, entry.translation.first)]
  context := properContext entry.context
  isObsolete := false
  inContext := false
  inId := false
  inTranslation := true
  locations := (locationLines entry.locations).flatMap fun text => locationsOf (' ' :: text)
  flags := orderedFlags entry.flags
  comments := (textsOf entry.comments).map String.ofList
  notes := (textsOf entry.notes).map String.ofList

/-- The draft of an obsolete entry. -/
def Entry.obsoleteDraft (entry : Entry) : Draft where
  ids := [entry.id.first]
  translations := [(0, entry.translation.first)]
  context := properContext entry.context
  isObsolete := true
  inContext := false
  inId := false
  inTranslation := true
  locations := []
  flags := []
  comments := []
  notes := (textsOf entry.notes).map String.ofList

/-- Lines of comments, and then others. -/
theorem encoded_comments_append [Codecs] {reader : Reader} (unicode : reader.IsUtf8)
    (begun : reader.draft.ids = []) {mark : String} (known : mark ∈ commentMarks)
    {texts : List (List Char)} (fair : ∀ text ∈ texts, IsCommentText text) {draft : Draft}
    (made : (texts.map fun text => mark.toList ++ ' ' :: text).foldl Draft.commented reader.draft =
      draft) (more : List (List Char)) :
    reader.encoded ((texts.map fun text => mark.toList ++ ' ' :: text) ++ more) =
      (reader.withDraft draft).encoded more := by
  rw [encoded_append, encoded_comments unicode begun known fun text member =>
    ⟨(fair text member).nonempty, (fair text member).trim⟩, made]
  rfl

theorem encoded_flags [Codecs] {reader : Reader} (unicode : reader.IsUtf8)
    (begun : reader.draft.ids = []) (flags : List Flag) (more : List (List Char)) :
    reader.encoded (flagLines flags ++ more) =
      (reader.withDraft { reader.draft with
        flags := reader.draft.flags ++ orderedFlags flags }).encoded more := by
  by_cases none : flags = []
  · simp [none, flagLines, orderedFlags, distinct, Reader.withDraft]
  · obtain ⟨text, reads, line, draft⟩ := flagLine_states none
    rw [flagLines, if_neg none, List.singleton_append, encoded_readsAs unicode reads, line,
      commentLine_eq, finish_of_nil begun, Outcome.ok_bind, Outcome.ok_bind, draft]

/-- The draft of an entry of which the comments have been read. -/
def Entry.commentDraft (entry : Entry) : Draft :=
  { Draft.empty with
    locations := (locationLines entry.locations).flatMap fun text => locationsOf (' ' :: text)
    flags := orderedFlags entry.flags
    comments := (textsOf entry.comments).map String.ofList
    notes := (textsOf entry.notes).map String.ofList }

/-- The comments of an entry come before its texts. -/
theorem encoded_entryComments [Codecs] {reader : Reader} (unicode : reader.IsUtf8)
    (fresh : reader.draft = .empty) (entry : Entry) :
    reader.encoded (entryLines entry) =
      (reader.withDraft entry.commentDraft).encoded (textLines "" entry ++ [[]]) := by
  obtain ⟨catalog, header, draft⟩ := reader
  subst fresh
  have fair : ∀ comments : List String, ∀ text ∈ textsOf comments, IsCommentText text :=
    fun comments text member => isCommentText_textsOf member
  have placed : ∀ text ∈ locationLines entry.locations, IsCommentText text :=
    fun text member => isCommentText member
  rw [entryLines, commentLines_textsOf, commentLines_textsOf, commentLines_eq]
  simp only [List.append_assoc]
  refine (encoded_comments_append ?_ ?_ (by decide) (fair entry.notes)
    (commented_notes (fair entry.notes) _) _).trans ?_
  · exact unicode
  · rfl
  refine (encoded_comments_append ?_ ?_ (by decide) (fair entry.comments)
    (commented_comments (fair entry.comments) _) _).trans ?_
  · exact unicode
  · rfl
  refine (encoded_comments_append ?_ ?_ (by decide) placed (commented_locations _) _).trans ?_
  · exact unicode
  · rfl
  refine (encoded_flags ?_ ?_ entry.flags _).trans ?_
  · exact unicode
  · rfl
  rfl

theorem encoded_entry [Codecs] {reader : Reader} (unicode : reader.IsUtf8)
    (fresh : reader.draft = .empty) {entry : Entry} (plain : entry.isPlain = true) :
    reader.encoded (entryLines entry) = .ok (reader.withDraft entry.draft) := by
  refine (encoded_entryComments unicode fresh entry).trans ((encoded_texts ?_ ?_ false plain).trans ?_)
  · exact unicode
  · exact ⟨rfl, rfl, rfl⟩
  · rfl

/-- Of an obsolete entry only the notes come before its texts. -/
theorem encoded_obsoleteComments [Codecs] {reader : Reader} (unicode : reader.IsUtf8)
    (fresh : reader.draft = .empty) (entry : Entry) :
    reader.encoded (obsoleteLines entry) =
      (reader.withDraft { Draft.empty with notes := (textsOf entry.notes).map String.ofList }).encoded
        (textLines "#~ " entry ++ [[]]) := by
  obtain ⟨catalog, header, draft⟩ := reader
  subst fresh
  have fair : ∀ text ∈ textsOf entry.notes, IsCommentText text :=
    fun text member => isCommentText_textsOf member
  rw [obsoleteLines, commentLines_textsOf, List.append_assoc]
  refine (encoded_comments_append ?_ ?_ (by decide) fair (commented_notes fair _) _).trans ?_
  · exact unicode
  · rfl
  · rfl

theorem encoded_obsolete [Codecs] {reader : Reader} (unicode : reader.IsUtf8)
    (fresh : reader.draft = .empty) {entry : Entry} (plain : entry.isPlain = true) :
    reader.encoded (obsoleteLines entry) = .ok (reader.withDraft entry.obsoleteDraft) := by
  refine (encoded_obsoleteComments unicode fresh entry).trans
    ((encoded_texts ?_ ?_ true plain).trans ?_)
  · exact unicode
  · exact ⟨rfl, rfl, rfl⟩
  · rfl

/-! ### Ends of entries -/

theorem finish_draft [Codecs] (catalog : Catalog) (header : Header) {entry : Entry}
    (shown : entry.id.first ≠ "") :
    Reader.finish ⟨catalog, header, entry.draft⟩ = .ok ⟨catalog.add entry.asRead, header, .empty⟩ := by
  have read : entry.draft.entry header.formCount = .ok entry.asRead := by
    simp [Draft.entry, Draft.id, Draft.translation, Entry.draft, Entry.asRead, refilled, relocated,
      distinct_of_nodup (nodup_orderedFlags entry.flags)]
  have named : entry.asRead.isHeader = false := by
    simp [Entry.isHeader, Entry.asRead, shown]
  simp only [Reader.finish, read, Outcome.ok_bind, named]
  rfl

theorem finish_obsoleteDraft [Codecs] (catalog : Catalog) (header : Header) (entry : Entry) :
    Reader.finish ⟨catalog, header, entry.obsoleteDraft⟩ =
      .ok ⟨catalog.addObsolete entry.asReadObsolete.key entry.asReadObsolete, header, .empty⟩ := by
  have read : entry.obsoleteDraft.entry header.formCount = .ok entry.asReadObsolete := by
    simp [Draft.entry, Draft.id, Draft.translation, Entry.obsoleteDraft, Entry.asReadObsolete,
      refilled, distinct]
  simp only [Reader.finish, read]
  rfl

/-- The text of the header sets what the header says. -/
theorem finish_header [Codecs] {catalog : Catalog} {former header last : Header}
    (stated : former.read header.text = .ok last) :
    Reader.finish ⟨catalog, former, (headerEntry header).draft⟩ = .ok ⟨catalog, last, .empty⟩ := by
  have read : (headerEntry header).draft.entry former.formCount = .ok (headerEntry header).asRead := by
    simp [Draft.entry, Draft.id, Draft.translation, Entry.draft, Entry.asRead, headerEntry, refilled,
      relocated, distinct_of_nodup (nodup_orderedFlags [])]
  have named : (headerEntry header).asRead.isHeader = true := rfl
  have text : (headerEntry header).asRead.translation.first = header.text := rfl
  simp only [Reader.finish, read, Outcome.ok_bind, named, text, stated]
  rfl

theorem finish_begun [Codecs] {reader last : Reader} (finished : reader.finish = .ok last) :
    last.draft.ids = [] := by
  rw [Reader.finish] at finished
  split at finished
  · rename_i begun
    cases finished
    exact begun
  · obtain ⟨entry, -, placed⟩ := bind_eq_ok.mp finished
    split at placed
    · cases placed
      rfl
    · split at placed
      · obtain ⟨header, -, done⟩ := bind_eq_ok.mp placed
        cases done
        rfl
      · cases placed
        rfl

/-- A line that an entry starts with: it ends the entry before. -/
def Starts [Codecs] (line : List Char) : Prop :=
  ∃ text, ReadsAs line text ∧
    ∀ reader : Reader, reader.line text = reader.finish >>= fun next => next.line text

theorem finish_bind [Codecs] (reader : Reader) (next : Reader → Except ReadFault Reader) :
    reader.finish >>= next = reader.finish >>= fun last => last.finish >>= next := by
  refine Outcome.bind_congr_ok fun last finished => ?_
  rw [finish_of_nil (finish_begun finished)]
  rfl

theorem starts_comment [Codecs] {mark : String} (known : mark ∈ commentMarks) {text : List Char}
    (nonempty : text ≠ []) (trim : Text.Trim Text.isBlank text) :
    Starts (mark.toList ++ ' ' :: text) := by
  refine ⟨_, ⟨by simp, comment_trim known nonempty trim, .inl rfl⟩, fun reader => ?_⟩
  simp only [line_comment _ known, commentLine_eq]
  exact finish_bind reader _

theorem starts_keyword [Codecs] (isObsolete : Bool) {keyword : String}
    (known : keyword ∈ ["msgctxt", "msgid"]) (text : String) :
    Starts (textLine isObsolete keyword text) := by
  have listed : IsKeyword keyword :=
    isKeyword_of_mem keyword (List.mem_append_left ["msgstr"] known)
  have word : ' ' ∉ keyword.toList := by
    revert keyword
    decide
  have begins : (keyword.toList = "msgid".toList || keyword.toList = "msgctxt".toList) = true := by
    revert keyword
    decide
  refine ⟨_, ⟨textLine_ne_nil _ _ _, textLine_trim _ listed _, .inl rfl⟩, fun reader => ?_⟩
  simp only [line_textLine _ _ listed, keywordLine_quoted _ _ word, if_pos begins]
  exact finish_bind reader _

theorem encoded_starts [Codecs] {reader next : Reader} (unicode : reader.IsUtf8)
    (further : next.IsUtf8) (finished : reader.finish = .ok next) {line : List Char}
    (starts : Starts line) (lines : List (List Char)) :
    reader.encoded (line :: lines) = next.encoded (line :: lines) := by
  obtain ⟨text, reads, ends⟩ := starts
  rw [encoded_readsAs unicode reads, ends, finished, encoded_readsAs further reads]
  rfl

theorem exists_starts [Codecs] {front back : List (List Char)}
    (starts : ∀ line ∈ front, Starts line)
    (begins : ∃ line rest, back = line :: rest ∧ Starts line) :
    ∃ line rest, front ++ back = line :: rest ∧ Starts line := by
  cases front with
  | nil => exact begins
  | cons line front => exact ⟨line, front ++ back, rfl, starts line (by simp)⟩

theorem textLines_starts [Codecs] (entry : Entry) (isObsolete : Bool) (more : List (List Char)) :
    ∃ line rest, textLines (markOf isObsolete) entry ++ more = line :: rest ∧ Starts line := by
  obtain ⟨id, rest, split⟩ := textLines_cons entry isObsolete
  rw [split, List.append_assoc]
  refine exists_starts ?_ ⟨_, _, rfl, starts_keyword isObsolete (by decide) _⟩
  intro line member
  obtain ⟨context, -, rfl⟩ := List.mem_map.mp member
  exact starts_keyword isObsolete (by decide) context

theorem starts_of_texts [Codecs] {mark : String} (known : mark ∈ commentMarks)
    {texts : List (List Char)} (fair : ∀ text ∈ texts, IsCommentText text) :
    ∀ line ∈ texts.map (fun text => mark.toList ++ ' ' :: text), Starts line := by
  intro line member
  obtain ⟨text, listed, rfl⟩ := List.mem_map.mp member
  exact starts_comment known (fair text listed).nonempty (fair text listed).trim

theorem starts_flags [Codecs] (flags : List Flag) : ∀ line ∈ flagLines flags, Starts line := by
  intro line member
  by_cases none : flags = []
  · rw [flagLines, if_pos none] at member
    cases member
  · obtain ⟨text, reads, comment, -⟩ := flagLine_states none
    rw [flagLines, if_neg none] at member
    rw [List.mem_singleton.mp member]
    refine ⟨text, reads, fun reader => ?_⟩
    simp only [comment, commentLine_eq]
    exact finish_bind reader _

theorem entryLines_starts [Codecs] (entry : Entry) :
    ∃ line rest, entryLines entry = line :: rest ∧ Starts line := by
  rw [entryLines, commentLines_textsOf, commentLines_textsOf, commentLines_eq]
  simp only [List.append_assoc]
  have fair : ∀ comments : List String, ∀ text ∈ textsOf comments, IsCommentText text :=
    fun comments text member => isCommentText_textsOf member
  apply exists_starts (starts_of_texts (by decide) (fair entry.notes))
  apply exists_starts (starts_of_texts (by decide) (fair entry.comments))
  apply exists_starts (starts_of_texts (by decide) fun text member => isCommentText member)
  apply exists_starts (starts_flags entry.flags)
  exact textLines_starts entry false _

theorem obsoleteLines_starts [Codecs] (entry : Entry) :
    ∃ line rest, obsoleteLines entry = line :: rest ∧ Starts line := by
  have fair : ∀ text ∈ textsOf entry.notes, IsCommentText text :=
    fun text member => isCommentText_textsOf member
  rw [obsoleteLines, commentLines_textsOf, List.append_assoc]
  exact exists_starts (starts_of_texts (by decide) fair) (textLines_starts entry true _)

/-! ### Lines and what they make of a catalog -/

/-- Reading lines changes the catalog as a function does, after the entry before them has been put
into it. -/
def Yields [Codecs] (lines : List (List Char)) (effect : Catalog → Catalog) : Prop :=
  ∀ (reader : Reader) (catalog : Catalog) (header : Header), reader.IsUtf8 →
    header.charset.isUtf8 = true → reader.finish = .ok ⟨catalog, header, .empty⟩ →
    ∃ last : Reader, reader.encoded lines = .ok last ∧ last.IsUtf8 ∧
      last.finish = .ok ⟨effect catalog, header, .empty⟩

theorem yields_nil [Codecs] : Yields [] id := fun reader _ _ unicode _ finished =>
  ⟨reader, rfl, unicode, finished⟩

theorem Yields.append [Codecs] {lines more : List (List Char)} {effect further : Catalog → Catalog}
    (first : Yields lines effect) (second : Yields more further) :
    Yields (lines ++ more) fun catalog => further (effect catalog) := by
  intro reader catalog header unicode known finished
  obtain ⟨next, passed, readable, ended⟩ := first reader catalog header unicode known finished
  obtain ⟨last, done, kept, made⟩ := second next _ header readable known ended
  refine ⟨last, ?_, kept, made⟩
  rw [encoded_append, passed]
  exact done

theorem yields_flatMap [Codecs] {entries : List Entry} {linesOf : Entry → List (List Char)}
    {put : Catalog → Entry → Catalog}
    (each : ∀ entry ∈ entries, Yields (linesOf entry) fun catalog => put catalog entry) :
    Yields (entries.flatMap linesOf) fun catalog => entries.foldl put catalog := by
  induction entries with
  | nil => exact yields_nil
  | cons entry entries ih =>
    have later := ih fun other member => each other (List.mem_cons_of_mem _ member)
    rw [List.flatMap_cons]
    exact (each entry List.mem_cons_self).append later

theorem yields_entry [Codecs] {entry : Entry} (plain : entry.isPlain = true)
    (shown : entry.id.first ≠ "") :
    Yields (entryLines entry) fun catalog => catalog.add entry.asRead := by
  intro reader catalog header unicode known finished
  obtain ⟨line, rest, split, starts⟩ := entryLines_starts entry
  refine ⟨⟨catalog, header, entry.draft⟩, ?_, known, finish_draft catalog header shown⟩
  have further : Reader.IsUtf8 ⟨catalog, header, .empty⟩ := known
  rw [split, encoded_starts unicode further finished starts, ← split,
    encoded_entry further rfl plain]
  rfl

theorem yields_obsolete [Codecs] {entry : Entry} (plain : entry.isPlain = true) :
    Yields (obsoleteLines entry) fun catalog =>
      catalog.addObsolete entry.asReadObsolete.key entry.asReadObsolete := by
  intro reader catalog header unicode known finished
  obtain ⟨line, rest, split, starts⟩ := obsoleteLines_starts entry
  refine ⟨⟨catalog, header, entry.obsoleteDraft⟩, ?_, known,
    finish_obsoleteDraft catalog header entry⟩
  have further : Reader.IsUtf8 ⟨catalog, header, .empty⟩ := known
  rw [split, encoded_starts unicode further finished starts, ← split,
    encoded_obsolete further rfl plain]
  rfl

/-! ### Whole catalogs -/

theorem withForms_of_isPlain {entry : Entry} (plain : entry.isPlain = true) (count : Nat) :
    entry.withForms count = entry := by
  have single : entry.id.isForms = false := by simpa [Entry.isPlain] using plain
  rw [Entry.withForms, single]
  rfl

/-- The lines after the header. -/
def bodyLines (catalog : Catalog) : List (List Char) :=
  catalog.all.flatMap entryLines ++ catalog.allObsolete.flatMap obsoleteLines

theorem lines_eq (header : Header) {catalog : Catalog} (plain : catalog.Plain) :
    lines header catalog = entryLines (headerEntry header) ++ bodyLines catalog := by
  have active : (catalog.all.flatMap fun entry => entryLines (entry.withForms header.formCount)) =
      catalog.all.flatMap entryLines :=
    List.flatMap_congr fun entry member => by rw [withForms_of_isPlain (plain.active entry member)]
  have obsolete :
      (catalog.allObsolete.flatMap fun entry => obsoleteLines (entry.withForms header.formCount)) =
      catalog.allObsolete.flatMap obsoleteLines :=
    List.flatMap_congr fun entry member => by rw [withForms_of_isPlain (plain.obsolete entry member)]
  rw [lines, List.append_assoc, active, obsolete, bodyLines]

theorem lineFeed_texts {mark : String} (known : mark ∈ commentMarks) {texts : List (List Char)}
    (fair : ∀ text ∈ texts, IsCommentText text) :
    ∀ line ∈ texts.map (fun text => mark.toList ++ ' ' :: text), '\n' ∉ line := by
  intro line member
  obtain ⟨text, listed, rfl⟩ := List.mem_map.mp member
  exact lineFeed_comment known (fair text listed).spaced

theorem lineFeed_textLines (entry : Entry) (isObsolete : Bool) :
    ∀ line ∈ textLines (markOf isObsolete) entry, '\n' ∉ line := by
  intro line member
  obtain ⟨keyword, text, known, rfl⟩ := textLine_of_mem member
  exact lineFeed_textLine isObsolete known text

theorem lineFeed_entryLines (entry : Entry) :
    ∀ line ∈ entryLines entry, '\n' ∉ line := by
  intro line member
  rw [entryLines, commentLines_textsOf, commentLines_textsOf, commentLines_eq] at member
  simp only [List.append_assoc, List.mem_append] at member
  have fair : ∀ comments : List String, ∀ text ∈ textsOf comments, IsCommentText text :=
    fun comments text member => isCommentText_textsOf member
  rcases member with note | comment | place | flag | text | last
  · exact lineFeed_texts (by decide) (fair entry.notes) line note
  · exact lineFeed_texts (by decide) (fair entry.comments) line comment
  · exact lineFeed_texts (by decide) (fun text listed => isCommentText listed) line place
  · exact lineFeed_flagLines entry.flags line flag
  · exact lineFeed_textLines entry false line text
  · rw [List.mem_singleton.mp last]
    exact List.not_mem_nil

theorem lineFeed_obsoleteLines (entry : Entry) :
    ∀ line ∈ obsoleteLines entry, '\n' ∉ line := by
  intro line member
  rw [obsoleteLines, commentLines_textsOf, List.append_assoc, List.mem_append, List.mem_append]
    at member
  rcases member with note | text | last
  · exact lineFeed_texts (by decide) (fun text listed => isCommentText_textsOf listed) line note
  · exact lineFeed_textLines entry true line text
  · rw [List.mem_singleton.mp last]
    exact List.not_mem_nil

theorem lineFeed_lines (header : Header) (catalog : Catalog) :
    ∀ line ∈ lines header catalog, '\n' ∉ line := by
  intro line member
  rw [lines, List.mem_append, List.mem_append, List.mem_flatMap, List.mem_flatMap] at member
  rcases member with (first | ⟨entry, -, own⟩) | ⟨entry, -, own⟩
  · exact lineFeed_entryLines _ line first
  · exact lineFeed_entryLines _ line own
  · exact lineFeed_obsoleteLines _ line own

theorem yields_body [Codecs] {catalog : Catalog} (plain : catalog.Plain)
    (shown : ∀ entry ∈ catalog.all, entry.id.first ≠ "") :
    Yields (bodyLines catalog) fun start =>
      catalog.allObsolete.foldl
        (fun catalog entry => catalog.addObsolete entry.asReadObsolete.key entry.asReadObsolete)
        (catalog.all.foldl (fun catalog entry => catalog.add entry.asRead) start) := by
  refine (yields_flatMap fun entry member => ?_).append (yields_flatMap fun entry member => ?_)
  · exact yields_entry (plain.active entry member) (shown entry member)
  · exact yields_obsolete (plain.obsolete entry member)

/-- Reading what was written is going through its lines. -/
theorem read_write_eq [Codecs] {locale : String} (named : isLocaleName locale = true)
    {header : Header} (unicode : header.charset.isUtf8 = true) (catalog : Catalog) :
    read locale (write header catalog) =
      (Reader.encoded ⟨.empty, .ofLocale locale, .empty⟩ (lines header catalog) >>= fun reader =>
        reader.finish >>= fun reader => .ok (reader.header, reader.catalog)) := by
  have bytes : write header catalog =
      (lines header catalog).flatMap fun line => Text.encode (line ++ ['\n']) := by
    rw [write, funext (header.charset.encode_of_isUtf8 unicode)]
  rw [read, bytes, byteLines_encoded _ (lineFeed_lines header catalog), named]
  rfl

/-- What is written is read, if the header is one that can be. -/
theorem read_write [Codecs] {locale : String} (named : isLocaleName locale = true)
    {header last : Header} (unicode : header.charset.isUtf8 = true)
    (stated : (Header.ofLocale locale).read header.text = .ok last)
    (kept : last.charset.isUtf8 = true) {catalog : Catalog} (plain : catalog.Plain)
    (shown : ∀ entry ∈ catalog.all, entry.id.first ≠ "") :
    read locale (write header catalog) = .ok (last, catalog.asRead) := by
  let start : Reader := ⟨.empty, .ofLocale locale, .empty⟩
  have first : start.encoded (entryLines (headerEntry header)) =
      .ok (start.withDraft (headerEntry header).draft) := encoded_entry (by rfl) rfl rfl
  obtain ⟨reader, passed, -, finished⟩ := yields_body plain shown
    (start.withDraft (headerEntry header).draft) .empty last rfl kept (finish_header stated)
  have whole : start.encoded (lines header catalog) = .ok reader := by
    rw [lines_eq header plain, encoded_append, first]
    exact passed
  rw [read_write_eq named unicode, whole, Outcome.ok_bind, finished]
  rfl

end Phrasebook.Catalog

import Phrasebook.Catalog.Compile
import Phrasebook.Proofs.Catalog.Loaded

set_option autoImplicit false

/-!
For which locale a file is read makes a difference for the forms of plurals only, and not for what an
application uses of the catalog.
-/
namespace Phrasebook.Catalog

open Outcome (bind_eq_ok mapError_eq_ok)

/-- An entry but for the texts of its forms. -/
def Entry.blurred (entry : Entry) : Entry :=
  { entry with
    translation := if entry.translation.isForms then .forms [] else entry.translation }

/-- The entries of a catalog but for the texts of their forms. -/
def blurred (catalog : Catalog) : Dictionary EntryKey Entry :=
  catalog.entries.map fun pair => (pair.1, pair.2.blurred)

theorem usable?_blurred (entry : Entry) : usable? entry.blurred = usable? entry := by
  obtain ⟨id, translation⟩ := entry
  cases id <;> cases translation <;> rfl

theorem filterMap_blurred (catalog : Catalog) :
    (catalog.blurred.map (·.2)).filterMap usable? = catalog.all.filterMap usable? := by
  have values : catalog.blurred.map (·.2) = catalog.all.map Entry.blurred := by
    simp [blurred, Catalog.all]
  rw [values, List.filterMap_map, show usable? ∘ Entry.blurred = usable? from funext usable?_blurred]

theorem unite_blurred (entry further : Entry) :
    (entry.unite further).blurred = entry.blurred.unite further.blurred := by
  unfold Entry.unite Entry.blurred
  dsimp only
  split <;> rfl

theorem get?_blurred (key : EntryKey) (catalog : Catalog) :
    Dictionary.get? key catalog.blurred =
      (Dictionary.get? key catalog.entries).map Entry.blurred := by
  unfold blurred Dictionary.get?
  induction catalog.entries with
  | nil => rfl
  | cons pair rest ih =>
    rw [List.map_cons, List.lookup_cons, List.lookup_cons]
    split
    · rfl
    · exact ih

theorem set_blurred (key : EntryKey) (entry : Entry) (catalog : Catalog)
    (obsolete : Dictionary EntryKey Entry) :
    blurred ⟨Dictionary.set key entry catalog.entries, obsolete⟩ =
      Dictionary.set key entry.blurred catalog.blurred := by
  unfold blurred
  dsimp only
  induction catalog.entries with
  | nil => rfl
  | cons pair rest ih =>
    rw [List.map_cons, Dictionary.set, Dictionary.set]
    split
    · rfl
    · rw [List.map_cons, ih]

/-- What an entry that is added leads to depends on what is blurred in part only. -/
theorem add_blurred (catalog : Catalog) (entry : Entry) :
    (catalog.add entry).blurred = (Catalog.add ⟨catalog.blurred, []⟩ entry.blurred).entries := by
  have key : entry.blurred.key = entry.key := rfl
  have header : entry.blurred.isHeader = entry.isHeader := rfl
  simp only [Catalog.add, key, header, get?_blurred]
  cases Dictionary.get? entry.key catalog.entries with
  | none =>
    rw [Option.map_none]
    dsimp only
    split
    · rfl
    · exact set_blurred _ _ _ _
  | some found =>
    rw [Option.map_some]
    dsimp only
    rw [set_blurred, unite_blurred]

/-! ### Two readers -/

/-- Two readers of one file. -/
structure Reader.Alike (reader other : Reader) : Prop where
  entries : reader.catalog.blurred = other.catalog.blurred
  charset : reader.header.charset = other.header.charset
  draft : reader.draft = other.draft

theorem entry_alike {draft : Draft} {count another : Nat} {entry other : Entry}
    (made : draft.entry count = .ok entry) (otherMade : draft.entry another = .ok other) :
    entry.blurred = other.blurred ∧ (entry.isHeader = true → entry = other) := by
  obtain ⟨wording, translated, made⟩ := bind_eq_ok.mp made
  obtain ⟨otherWording, otherTranslated, otherMade⟩ := bind_eq_ok.mp otherMade
  rw [← Except.ok.inj made, ← Except.ok.inj otherMade]
  have shape := translation_of_ids translated
  have otherShape := translation_of_ids otherTranslated
  split at shape
  · rename_i several
    rw [if_pos several] at otherShape
    constructor
    · simp only [Entry.blurred, shape, otherShape, if_true]
    · intro header
      have id : draft.id = .single "" := of_decide_eq_true header
      unfold Draft.id at id
      split at id
      · rename_i single
        rw [single] at several
        simp at several
      · cases id
  · rename_i few
    rw [if_neg few] at otherShape
    rw [shape, otherShape]
    exact ⟨rfl, fun _ => rfl⟩

/-- The encoding that a field states. No other field than the content type does. -/
def statedCharset? [Codecs] (name : String) (value : List Char) : Option Charset :=
  if name = "content-type" then
    (Header.parameter? "charset" value).bind fun charset =>
      Charset.ofName? (String.ofList (charset.map Char.toLower))
  else none

theorem charset_withField [Codecs] {header last : Header} {name : String} {value : List Char}
    (passed : header.withField name value = .ok last) :
    last.charset = (statedCharset? name value).getD header.charset := by
  unfold Header.withField at passed
  by_cases content : name = "content-type"
  · rw [statedCharset?, if_pos content]
    rw [content, if_neg (by decide), if_pos rfl] at passed
    split at passed
    · rename_i none
      cases passed
      rw [none]
      rfl
    · rename_i stated
      rw [stated, Option.bind_some]
      split at passed
      · rename_i found
        cases passed
        rw [found]
        rfl
      · cases passed
  · rw [statedCharset?, if_neg content]
    rw [if_neg content] at passed
    dsimp only at passed
    repeat' split at passed
    all_goals (cases passed <;> rfl)

theorem charset_read [Codecs] {header other last otherLast : Header}
    (same : header.charset = other.charset) {text : String}
    (passed : header.read text = .ok last) (otherPassed : other.read text = .ok otherLast) :
    last.charset = otherLast.charset := by
  unfold Header.read at passed otherPassed
  generalize Header.fieldsOf (Text.pieces '\n' text.toList) = fields at passed otherPassed
  induction fields generalizing header other with
  | nil =>
    cases passed
    cases otherPassed
    exact same
  | cons field fields ih =>
    rw [List.foldlM_cons] at passed otherPassed
    obtain ⟨next, first, later⟩ := bind_eq_ok.mp passed
    obtain ⟨otherNext, otherFirst, otherLater⟩ := bind_eq_ok.mp otherPassed
    apply ih _ later otherLater
    rw [charset_withField first, charset_withField otherFirst, same]

variable {reader other last otherLast : Reader}

theorem finish_alike [Codecs] (alike : reader.Alike other) (finished : reader.finish = .ok last)
    (otherFinished : other.finish = .ok otherLast) : last.Alike otherLast := by
  unfold Reader.finish at finished otherFinished
  rw [← alike.draft] at otherFinished
  split at finished
  · rename_i none
    rw [if_pos none] at otherFinished
    cases finished
    cases otherFinished
    exact alike
  · rename_i some
    rw [if_neg some] at otherFinished
    obtain ⟨entry, made, placed⟩ := bind_eq_ok.mp finished
    obtain ⟨otherEntry, otherMade, otherPlaced⟩ := bind_eq_ok.mp otherFinished
    obtain ⟨same, header⟩ := entry_alike made otherMade
    have hidden : otherEntry.isHeader = entry.isHeader := by
      change otherEntry.blurred.isHeader = entry.blurred.isHeader
      rw [same]
    split at placed
    · rename_i obsolete
      rw [if_pos obsolete] at otherPlaced
      cases placed
      cases otherPlaced
      exact ⟨alike.entries, alike.charset, rfl⟩
    rename_i active
    rw [if_neg active, hidden] at otherPlaced
    split at placed
    · rename_i isHeader
      obtain rfl := header isHeader
      rw [if_pos isHeader] at otherPlaced
      obtain ⟨read, stated, done⟩ := bind_eq_ok.mp placed
      obtain ⟨otherRead, otherStated, otherDone⟩ := bind_eq_ok.mp otherPlaced
      cases done
      cases otherDone
      exact ⟨alike.entries, charset_read alike.charset (mapError_eq_ok.mp stated)
        (mapError_eq_ok.mp otherStated), rfl⟩
    · rename_i shown
      rw [if_neg shown] at otherPlaced
      cases placed
      cases otherPlaced
      refine ⟨?_, alike.charset, rfl⟩
      show (reader.catalog.add entry).blurred = (other.catalog.add otherEntry).blurred
      rw [add_blurred, add_blurred, alike.entries, same]

theorem take_alike (alike : reader.Alike other) {isObsolete : Bool} {keyword : List Char}
    {text : String} (taken : reader.take isObsolete keyword text = .ok last)
    (otherTaken : other.take isObsolete keyword text = .ok otherLast) : last.Alike otherLast := by
  have drafts : last.draft = otherLast.draft := by
    simp only [Reader.take, alike.draft] at taken otherTaken
    split at taken
    · cases taken
      rw [if_pos ‹_›] at otherTaken
      cases otherTaken
      rfl
    rw [if_neg ‹_›] at otherTaken
    split at taken
    · cases taken
      rw [if_pos ‹_›] at otherTaken
      cases otherTaken
      rfl
    rw [if_neg ‹_›] at otherTaken
    obtain ⟨number, counted, taken⟩ := bind_eq_ok.mp taken
    rw [counted] at otherTaken
    cases number <;> cases taken <;> cases otherTaken <;> rfl
  obtain ⟨catalog, header⟩ := take_keeps taken
  obtain ⟨otherCatalog, otherHeader⟩ := take_keeps otherTaken
  exact ⟨by rw [catalog, otherCatalog, alike.entries], by rw [header, otherHeader, alike.charset],
    drafts⟩

theorem keywordLine_alike [Codecs] (alike : reader.Alike other) {isObsolete : Bool}
    {line : List Char} (passed : reader.keywordLine isObsolete line = .ok last)
    (otherPassed : other.keywordLine isObsolete line = .ok otherLast) : last.Alike otherLast := by
  simp only [Reader.keywordLine] at passed otherPassed
  split at passed
  · rw [if_pos ‹_›] at otherPassed
    obtain ⟨begun, finished, taken⟩ := bind_eq_ok.mp passed
    obtain ⟨otherBegun, otherFinished, otherTaken⟩ := bind_eq_ok.mp otherPassed
    exact take_alike (finish_alike alike finished otherFinished) taken otherTaken
  · rw [if_neg ‹_›] at otherPassed
    exact take_alike alike passed otherPassed

theorem entryLine_alike [Codecs] (alike : reader.Alike other) {isObsolete : Bool} {line : List Char}
    (passed : reader.entryLine isObsolete line = .ok last)
    (otherPassed : other.entryLine isObsolete line = .ok otherLast) : last.Alike otherLast := by
  unfold Reader.entryLine at passed otherPassed
  split at passed
  · cases passed
    cases otherPassed
    exact alike
  · cases passed
    cases otherPassed
    exact ⟨alike.entries, alike.charset, congrArg (Draft.goOn · _) alike.draft⟩
  · rename_i notEmpty notQuoted
    split at otherPassed
    · exact absurd rfl notEmpty
    · exact absurd rfl (notQuoted _)
    · exact keywordLine_alike alike passed otherPassed

theorem commentLine_alike [Codecs] (alike : reader.Alike other) {line : List Char}
    (passed : reader.commentLine line = .ok last)
    (otherPassed : other.commentLine line = .ok otherLast) : last.Alike otherLast := by
  obtain ⟨begun, finished, done⟩ := bind_eq_ok.mp passed
  obtain ⟨otherBegun, otherFinished, otherDone⟩ := bind_eq_ok.mp otherPassed
  have ends := finish_alike alike finished otherFinished
  cases done
  cases otherDone
  refine ⟨ends.entries, ends.charset, ?_⟩
  simp only [Reader.withDraft, ends.draft]

theorem line_alike [Codecs] (alike : reader.Alike other) {line : List Char}
    (passed : reader.line line = .ok last) (otherPassed : other.line line = .ok otherLast) :
    last.Alike otherLast := by
  unfold Reader.line at passed otherPassed
  split at passed
  · exact entryLine_alike alike passed otherPassed
  · rename_i notObsolete
    split at otherPassed
    · rename_i same
      exact absurd (List.cons.inj same).2 (notObsolete _)
    · exact commentLine_alike alike passed otherPassed
    · rename_i notComment
      exact absurd rfl (notComment _)
  · rename_i notObsolete notComment
    split at otherPassed
    · exact absurd rfl (notObsolete _)
    · exact absurd rfl (notComment _)
    · exact entryLine_alike alike passed otherPassed

theorem byteLine_alike [Codecs] (alike : reader.Alike other) {line : List UInt8}
    (passed : reader.byteLine line = .ok last) (otherPassed : other.byteLine line = .ok otherLast) :
    last.Alike otherLast := by
  simp only [Reader.byteLine, ← alike.charset] at passed otherPassed
  split at passed
  · rw [if_pos ‹_›] at otherPassed
    cases passed
    cases otherPassed
    exact alike
  · rw [if_neg ‹_›] at otherPassed
    obtain ⟨text, decoded, passed⟩ := bind_eq_ok.mp passed
    rw [decoded] at otherPassed
    exact line_alike alike passed otherPassed

theorem byteLines_alike [Codecs] (alike : reader.Alike other) {lines : List (List UInt8)}
    (passed : lines.foldlM Reader.byteLine reader = .ok last)
    (otherPassed : lines.foldlM Reader.byteLine other = .ok otherLast) : last.Alike otherLast := by
  induction lines generalizing reader other with
  | nil =>
    cases passed
    cases otherPassed
    exact alike
  | cons line lines ih =>
    rw [List.foldlM_cons] at passed otherPassed
    obtain ⟨next, first, later⟩ := bind_eq_ok.mp passed
    obtain ⟨otherNext, otherFirst, otherLater⟩ := bind_eq_ok.mp otherPassed
    exact ih (byteLine_alike alike first otherFirst) later otherLater

/-- What is compiled of the catalog in a file does not depend on the locale that it is read for. -/
theorem compile_read [Codecs] {locale another : String} {bytes : List UInt8}
    {header otherHeader : Header} {catalog otherCatalog : Catalog}
    (loaded : read locale bytes = .ok (header, catalog))
    (otherLoaded : read another bytes = .ok (otherHeader, otherCatalog)) :
    catalog.compile = otherCatalog.compile := by
  simp only [read] at loaded otherLoaded
  split at loaded
  · simp at loaded
  split at otherLoaded
  · simp at otherLoaded
  obtain ⟨reader, passed, loaded⟩ := bind_eq_ok.mp loaded
  obtain ⟨last, finished, done⟩ := bind_eq_ok.mp loaded
  obtain ⟨otherReader, otherPassed, otherLoaded⟩ := bind_eq_ok.mp otherLoaded
  obtain ⟨otherLast, otherFinished, otherDone⟩ := bind_eq_ok.mp otherLoaded
  cases done
  cases otherDone
  have start : Reader.Alike ⟨.empty, .ofLocale locale, .empty⟩ ⟨.empty, .ofLocale another, .empty⟩ :=
    ⟨rfl, rfl, rfl⟩
  have ends := finish_alike (byteLines_alike start passed otherPassed) finished otherFinished
  rw [compile, compile, ← filterMap_blurred, ends.entries, filterMap_blurred]

end Phrasebook.Catalog

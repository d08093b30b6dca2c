import Phrasebook.Proofs.Catalog.Files

set_option autoImplicit false

/-!
What a catalog keeps when it is written and read, be its entries of single texts or of forms. How the
forms of a plural come back is left open; that its entry comes back as one with forms is enough.
-/
namespace Phrasebook

namespace Catalog

open Outcome (bind_eq_ok)

/-! ### Entries with forms -/

/-- A line that is not about an id leaves the texts of the id. -/
theorem take_ids {reader last : Reader} {isObsolete : Bool} {keyword : List Char} {text : String}
    (other : ¬(keyword = "msgid".toList ∨ keyword = "msgid_plural".toList))
    (taken : reader.take isObsolete keyword text = .ok last) :
    last.draft.ids = reader.draft.ids := by
  simp only [Reader.take, if_neg other] at taken
  split at taken
  · cases taken
    rfl
  · obtain ⟨number, -, placed⟩ := bind_eq_ok.mp taken
    cases number <;> cases placed <;> rfl

/-- The lines of the forms leave everything but the forms. -/
theorem encoded_formLines [Codecs] {reader last : Reader} (unicode : reader.IsUtf8)
    (isObsolete : Bool) (forms : List (String × Nat))
    (passed : reader.encoded ((forms.map fun form =>
      textLine isObsolete ("msgstr[" ++ toString form.2 ++ "]") form.1) ++ [[]]) = .ok last) :
    last.catalog = reader.catalog ∧ last.header = reader.header ∧
      last.draft.ids = reader.draft.ids := by
  induction forms generalizing reader with
  | nil =>
    cases passed
    exact ⟨rfl, rfl, rfl⟩
  | cons form forms ih =>
    have known := isKeyword_form form.2
    have starts : ¬(("msgstr[" ++ toString form.2 ++ "]").toList = "msgid".toList ||
        ("msgstr[" ++ toString form.2 ++ "]").toList = "msgctxt".toList) = true := by
      simp
    have other : ¬(("msgstr[" ++ toString form.2 ++ "]").toList = "msgid".toList ∨
        ("msgstr[" ++ toString form.2 ++ "]").toList = "msgid_plural".toList) := by
      simp
    rw [List.map_cons, List.cons_append,
      encoded_cons unicode (textLine_ne_nil _ _ _) (textLine_trim _ known _),
      line_textLine _ _ known, keywordLine_quoted _ _ known.spaceless, if_neg starts,
      Outcome.ok_bind] at passed
    obtain ⟨next, taken, later⟩ := bind_eq_ok.mp passed
    obtain ⟨catalog, header⟩ := take_keeps taken
    have readable : next.IsUtf8 := .of_header unicode header
    obtain ⟨lastCatalog, lastHeader, lastIds⟩ := ih readable later
    exact ⟨lastCatalog.trans catalog, lastHeader.trans header, lastIds.trans (take_ids other taken)⟩

theorem line_plural [Codecs] (reader : Reader) (isObsolete : Bool) (text : String) :
    reader.line (textLine isObsolete "msgid_plural" text) = .ok (reader.withDraft
      { reader.draft with
        isObsolete := isObsolete, ids := reader.draft.ids ++ [text], inId := true,
        inContext := false }) := by
  rw [line_textLine _ _ (by decide), keywordLine_quoted _ _ (by decide), if_neg (by decide)]
  rfl

/-- The lines of an id and of its forms make a draft with two texts for the id. -/
theorem encoded_idLines [Codecs] {reader last : Reader} (unicode : reader.IsUtf8)
    (begun : reader.draft.ids = []) (isObsolete : Bool) {first second : String}
    {forms : List (String × Nat)}
    (passed : reader.encoded (textLine isObsolete "msgid" first ::
      textLine isObsolete "msgid_plural" second :: ((forms.map fun form =>
        textLine isObsolete ("msgstr[" ++ toString form.2 ++ "]") form.1) ++ [[]])) = .ok last) :
    last.catalog = reader.catalog ∧ last.header = reader.header ∧ last.draft.ids.length = 2 := by
  rw [encoded_cons unicode (textLine_ne_nil _ _ _) (textLine_trim _ (by decide) _), line_id begun,
    Outcome.ok_bind, encoded_cons _ (textLine_ne_nil _ _ _) (textLine_trim _ (by decide) _),
    line_plural, Outcome.ok_bind] at passed
  · obtain ⟨catalog, header, ids⟩ := encoded_formLines (by exact unicode) isObsolete _ passed
    exact ⟨catalog, header, congrArg List.length ids⟩
  · exact unicode

/-- The texts of an entry with forms make a draft with two texts for its id. -/
theorem encoded_forms [Codecs] {reader last : Reader} (unicode : reader.IsUtf8)
    (begun : reader.draft.ids = []) (isObsolete : Bool) {entry : Entry}
    (forms : entry.id.isForms = true)
    (passed : reader.encoded (textLines (markOf isObsolete) entry ++ [[]]) = .ok last) :
    last.catalog = reader.catalog ∧ last.header = reader.header ∧ last.draft.ids.length = 2 := by
  obtain ⟨first, second, split⟩ := textLines_forms forms isObsolete
  rw [split, List.append_assoc] at passed
  generalize properContext entry.context = context at passed
  cases context with
  | none => exact encoded_idLines unicode begun isObsolete passed
  | some text =>
    rw [Option.toList_some, List.map_singleton, List.singleton_append,
      encoded_cons unicode (textLine_ne_nil _ _ _) (textLine_trim _ (by decide) _),
      line_context begun, Outcome.ok_bind] at passed
    have drafted := encoded_idLines (by exact unicode) (by exact begun) isObsolete passed
    exact drafted

theorem finish_forms [Codecs] {reader next : Reader} (several : reader.draft.ids.length = 2)
    (finished : reader.finish = .ok next) :
    next.header = reader.header ∧ next.draft = .empty ∧ ∃ entry : Entry, entry.id.isForms = true ∧
      (next.catalog = reader.catalog.add entry ∨
        ∃ key, next.catalog = reader.catalog.addObsolete key entry) := by
  obtain ⟨first, second, two⟩ := List.length_eq_two.mp several
  have id : reader.draft.id = .forms [first, second] := by
    rw [Draft.id, two]
  rw [Reader.finish, if_neg (by simp [two])] at finished
  obtain ⟨entry, made, placed⟩ := bind_eq_ok.mp finished
  obtain ⟨translation, -, made⟩ := bind_eq_ok.mp made
  have own : entry.id = .forms [first, second] := by
    rw [← Except.ok.inj made]
    exact id
  have forms : entry.id.isForms = true := by rw [own]; rfl
  have shown : entry.isHeader = false := by rw [Entry.isHeader, own]; rfl
  split at placed
  · cases placed
    exact ⟨rfl, rfl, entry, forms, .inr ⟨_, rfl⟩⟩
  · rw [shown] at placed
    cases placed
    exact ⟨rfl, rfl, entry, forms, .inl rfl⟩

/-! ### Lines and what they keep -/

/-- Once the draft has ended, something is so of the catalog. -/
structure Reader.Promises [Codecs] (reader : Reader) (kept : Catalog → Prop) : Prop where
  unicode : reader.IsUtf8
  ended : ∀ next, reader.finish = .ok next → next.IsUtf8 ∧ next.draft = .empty ∧ kept next.catalog

/-- Reading lines keeps what is so of a catalog. -/
def Carries [Codecs] (lines : List (List Char)) (kept : Catalog → Prop) : Prop :=
  ∀ reader last : Reader, reader.Promises kept → reader.encoded lines = .ok last →
    last.Promises kept

/-- Entries with forms may come to a catalog. -/
structure AllowsForms (kept : Catalog → Prop) : Prop where
  add : ∀ catalog entry, entry.id.isForms = true → kept catalog → kept (catalog.add entry)
  addObsolete : ∀ catalog key entry, entry.id.isForms = true → kept catalog →
    kept (catalog.addObsolete key entry)

section Carries

variable {kept : Catalog → Prop} {lines more : List (List Char)}

theorem carries_nil [Codecs] : Carries [] kept := by
  intro reader last promised passed
  cases passed
  exact promised

theorem Carries.append [Codecs] (first : Carries lines kept) (second : Carries more kept) :
    Carries (lines ++ more) kept := by
  intro reader last promised passed
  rw [encoded_append] at passed
  obtain ⟨next, begun, later⟩ := bind_eq_ok.mp passed
  exact second next last (first reader next promised begun) later

theorem carries_flatMap [Codecs] {α : Type} {items : List α} {linesOf : α → List (List Char)}
    (each : ∀ item ∈ items, Carries (linesOf item) kept) : Carries (items.flatMap linesOf) kept := by
  induction items with
  | nil => exact carries_nil
  | cons item items ih =>
    rw [List.flatMap_cons]
    exact (each item List.mem_cons_self).append
      (ih fun other member => each other (List.mem_cons_of_mem _ member))

/-- The first line of an entry ends the draft before. -/
theorem Reader.Promises.begin [Codecs] {reader last : Reader} (promised : reader.Promises kept)
    (begins : ∃ line rest, lines = line :: rest ∧ Starts line)
    (passed : reader.encoded lines = .ok last) :
    ∃ catalog header, kept catalog ∧ header.charset.isUtf8 = true ∧
      reader.finish = .ok ⟨catalog, header, .empty⟩ ∧
      Reader.encoded ⟨catalog, header, .empty⟩ lines = .ok last := by
  obtain ⟨line, rest, rfl, starts⟩ := begins
  have ends := passed
  obtain ⟨text, reads, ended⟩ := starts
  rw [encoded_readsAs promised.unicode reads, ended] at ends
  obtain ⟨between, begun, -⟩ := bind_eq_ok.mp ends
  obtain ⟨⟨catalog, header, draft⟩, finished, -⟩ := bind_eq_ok.mp begun
  obtain ⟨readable, fresh, held⟩ := promised.ended _ finished
  obtain rfl : draft = .empty := fresh
  refine ⟨catalog, header, held, readable, finished, ?_⟩
  rw [← encoded_starts promised.unicode readable finished ⟨text, reads, ended⟩]
  exact passed

theorem carries_of_yields [Codecs] {effect : Catalog → Catalog} (yields : Yields lines effect)
    (begins : ∃ line rest, lines = line :: rest ∧ Starts line)
    (keeps : ∀ catalog, kept catalog → kept (effect catalog)) : Carries lines kept := by
  intro reader last promised passed
  obtain ⟨catalog, header, held, readable, finished, -⟩ := promised.begin begins passed
  obtain ⟨other, same, unicode, ended⟩ := yields reader catalog header promised.unicode readable finished
  obtain rfl : other = last := Except.ok.inj (same.symm.trans passed)
  refine ⟨unicode, fun next finishedToo => ?_⟩
  obtain rfl := Except.ok.inj (ended.symm.trans finishedToo)
  exact ⟨readable, rfl, keeps catalog held⟩

/-- A draft with forms ends as one more entry with forms. -/
theorem promises_forms [Codecs] (start : Reader) {last : Reader} (allows : AllowsForms kept)
    (held : kept start.catalog) (readable : start.IsUtf8)
    (drafted : last.catalog = start.catalog ∧ last.header = start.header ∧
      last.draft.ids.length = 2) : last.Promises kept := by
  obtain ⟨catalog, header, several⟩ := drafted
  have unicode : last.IsUtf8 := .of_header readable header
  refine ⟨unicode, fun next finished => ?_⟩
  obtain ⟨sameHeader, fresh, entry, forms, put⟩ := finish_forms several finished
  refine ⟨.of_header unicode sameHeader, fresh, ?_⟩
  rcases put with added | ⟨key, laid⟩
  · rw [added, catalog]
    exact allows.add _ _ forms held
  · rw [laid, catalog]
    exact allows.addObsolete _ _ _ forms held

theorem carries_formsEntry [Codecs] (allows : AllowsForms kept) {entry : Entry}
    (forms : entry.id.isForms = true) : Carries (entryLines entry) kept := by
  intro reader last promised passed
  obtain ⟨catalog, header, held, readable, -, passed⟩ :=
    promised.begin (entryLines_starts entry) passed
  rw [encoded_entryComments (by exact readable) rfl] at passed
  have drafted := encoded_forms (by exact readable) rfl false forms passed
  exact promises_forms ⟨catalog, header, .empty⟩ allows held readable drafted

theorem carries_formsObsolete [Codecs] (allows : AllowsForms kept) {entry : Entry}
    (forms : entry.id.isForms = true) : Carries (obsoleteLines entry) kept := by
  intro reader last promised passed
  obtain ⟨catalog, header, held, readable, -, passed⟩ :=
    promised.begin (obsoleteLines_starts entry) passed
  rw [encoded_obsoleteComments (by exact readable) rfl] at passed
  have drafted := encoded_forms (by exact readable) rfl true forms passed
  exact promises_forms ⟨catalog, header, .empty⟩ allows held readable drafted

end Carries

/-! ### Whole catalogs -/

theorem withForms_isForms (count : Nat) (entry : Entry) :
    (entry.withForms count).id.isForms = entry.id.isForms := by
  rw [Entry.withForms]
  split <;> rfl

/-- What the entries of single texts bring to a catalog when they are read keeps something. -/
structure IsCarriedBy (kept : Catalog → Prop) (catalog : Catalog) : Prop where
  start : kept empty
  forms : AllowsForms kept
  active : ∀ entry ∈ catalog.all, entry.isPlain = true →
    ∀ read, kept read → kept (read.add entry.asRead)
  obsolete : ∀ entry ∈ catalog.allObsolete, entry.isPlain = true →
    ∀ read, kept read → kept (read.addObsolete entry.asReadObsolete.key entry.asReadObsolete)

theorem IsCarriedBy.and {kept further : Catalog → Prop} {catalog : Catalog}
    (first : catalog.IsCarriedBy kept) (second : catalog.IsCarriedBy further) :
    catalog.IsCarriedBy fun read => kept read ∧ further read where
  start := ⟨first.start, second.start⟩
  forms := {
    add := fun read entry forms held =>
      ⟨first.forms.add read entry forms held.1, second.forms.add read entry forms held.2⟩
    addObsolete := fun read key entry forms held =>
      ⟨first.forms.addObsolete read key entry forms held.1,
        second.forms.addObsolete read key entry forms held.2⟩ }
  active entry member plain read held :=
    ⟨first.active entry member plain read held.1, second.active entry member plain read held.2⟩
  obsolete entry member plain read held :=
    ⟨first.obsolete entry member plain read held.1, second.obsolete entry member plain read held.2⟩

theorem IsCarriedBy.of_imp {condition : Prop} {kept : Catalog → Prop} {catalog : Catalog}
    (carried : condition → catalog.IsCarriedBy kept) :
    catalog.IsCarriedBy fun read => condition → kept read where
  start known := (carried known).start
  forms := {
    add := fun read entry forms held known => (carried known).forms.add read entry forms (held known)
    addObsolete := fun read key entry forms held known =>
      (carried known).forms.addObsolete read key entry forms (held known) }
  active entry member plain read held known :=
    (carried known).active entry member plain read (held known)
  obsolete entry member plain read held known :=
    (carried known).obsolete entry member plain read (held known)

theorem isPlain_of_not_isForms {entry : Entry} (single : ¬ entry.id.isForms = true) :
    entry.isPlain = true := by
  rw [Entry.isPlain, Bool.eq_false_iff.mpr single]
  rfl

variable {kept : Catalog → Prop} {catalog : Catalog}

/-- The lines of the entries in use keep what their entries keep. -/
theorem IsCarriedBy.carries_active [Codecs] (carried : catalog.IsCarriedBy kept)
    (keyed : catalog.WellKeyed) (count : Nat) :
    Carries (catalog.all.flatMap fun entry => entryLines (entry.withForms count)) kept := by
  refine carries_flatMap fun entry member => ?_
  by_cases forms : entry.id.isForms = true
  · exact carries_formsEntry carried.forms ((withForms_isForms _ _).trans forms)
  · have plain := isPlain_of_not_isForms forms
    rw [withForms_of_isPlain plain]
    exact carries_of_yields (yields_entry plain (keyed.first_ne member plain))
      (entryLines_starts entry) (carried.active entry member plain)

/-- The lines of the obsolete entries keep what their entries keep. -/
theorem IsCarriedBy.carries_obsolete [Codecs] (carried : catalog.IsCarriedBy kept) (count : Nat) :
    Carries (catalog.allObsolete.flatMap fun entry => obsoleteLines (entry.withForms count))
      kept := by
  refine carries_flatMap fun entry member => ?_
  by_cases forms : entry.id.isForms = true
  · exact carries_formsObsolete carried.forms ((withForms_isForms _ _).trans forms)
  · have plain := isPlain_of_not_isForms forms
    rw [withForms_of_isPlain plain]
    exact carries_of_yields (yields_obsolete plain) (obsoleteLines_starts entry)
      (carried.obsolete entry member plain)

/-- What the entries that are written keep is so of the catalog that is read. -/
theorem IsCarriedBy.read_write [Codecs] (carried : catalog.IsCarriedBy kept)
    (keyed : catalog.WellKeyed) {locale : String} {header last : Header}
    (unicode : header.charset.isUtf8 = true)
    (stated : (Header.ofLocale locale).read header.text = .ok last)
    (readable : last.charset.isUtf8 = true) {again : Header} {back : Catalog}
    (loaded : read locale (write header catalog) = .ok (again, back)) :
    again.charset.isUtf8 = true ∧ kept back := by
  let start : Reader := ⟨.empty, .ofLocale locale, .empty⟩
  have first : start.encoded (entryLines (headerEntry header)) =
      .ok (start.withDraft (headerEntry header).draft) := encoded_entry (by rfl) rfl rfl
  have promised : (start.withDraft (headerEntry header).draft).Promises kept := by
    refine ⟨rfl, fun next finished => ?_⟩
    obtain rfl := Except.ok.inj ((finish_header stated).symm.trans finished)
    exact ⟨readable, rfl, carried.start⟩
  have active := carried.carries_active keyed header.formCount
  have obsolete := carried.carries_obsolete header.formCount
  rw [read_write_eq (isLocaleName_of_read loaded) unicode] at loaded
  obtain ⟨reader, passed, loaded⟩ := bind_eq_ok.mp loaded
  obtain ⟨ended, finished, done⟩ := bind_eq_ok.mp loaded
  rw [lines, List.append_assoc, encoded_append, first, Outcome.ok_bind] at passed
  obtain ⟨unicodeToo, -, held⟩ :=
    ((active.append obsolete) _ reader promised passed).ended ended finished
  cases done
  exact ⟨unicodeToo, held⟩

end Catalog

namespace CatalogFiles

open Catalog (Header)

/-- What the entries that are saved keep is so of the catalog that is loaded. -/
theorem load_saved_keeps [Catalog.Codecs] {files : CatalogFiles} {tree after : FileTree}
    {locale : String} {header again : Header} {catalog back : Catalog} {kept : Catalog → Prop}
    (carried : catalog.IsCarriedBy kept) (keyed : catalog.WellKeyed) (steady : header.IsSteady)
    (unicode : header.charset.isUtf8 = true)
    (saved : files.save tree locale header catalog = .ok after)
    (loaded : files.load after locale = .ok (again, back)) : again.charset.isUtf8 = true ∧ kept back := by
  obtain ⟨bytes, present⟩ := FileTree.readBytes_stored (save_eq_ok.mp saved)
  unfold load at loaded
  dsimp only at loaded
  rw [if_pos present, bytes] at loaded
  exact carried.read_write keyed unicode (Header.read_text locale steady unicode) unicode
    (Outcome.mapError_eq_ok.mp loaded)

end CatalogFiles

end Phrasebook

import Phrasebook.Proofs.Catalog.Beside
import Phrasebook.Proofs.Catalog.Carried
import Phrasebook.Proofs.Catalog.ReadBack

set_option autoImplicit false

/-!
Translations in doubt. Merges and compiles leave them in doubt as long as their messages are stated,
and drop them with their entries. An obsolete entry is written without the mark of doubt, so a message
that takes its translation back from there has it as one without doubt.
-/
namespace Phrasebook

open Extract (Record UniqueMessage uniqueMessages)

namespace Catalog

variable {key : MessageKey} {text : String}

/-- An entry of a single text gives a message a translation. -/
structure Entry.Gives (entry : Entry) (key : MessageKey) (text : String) : Prop where
  plain : entry.isPlain = true
  own : entry.messageKey = key
  translates : entry.translation.first = text

instance (entry : Entry) (key : MessageKey) (text : String) : Decidable (entry.Gives key text) :=
  decidable_of_iff
    (entry.isPlain = true ∧ entry.messageKey = key ∧ entry.translation.first = text)
    ⟨fun ⟨plain, own, translates⟩ => ⟨plain, own, translates⟩,
      fun gives => ⟨gives.plain, gives.own, gives.translates⟩⟩

/-- Wherever a message has a translation, it is in doubt. -/
def InDoubt (catalog : Catalog) (key : MessageKey) (text : String) : Prop :=
  ∀ entry ∈ catalog.all, entry.Gives key text → entry.isFuzzy = true

/-- An obsolete entry holds a translation of a message. -/
def Remembers (catalog : Catalog) (key : MessageKey) (text : String) : Prop :=
  ∃ entry ∈ catalog.allObsolete, entry.Gives key text

instance (catalog : Catalog) (key : MessageKey) (text : String) :
    Decidable (catalog.InDoubt key text) :=
  inferInstanceAs (Decidable (∀ entry ∈ catalog.all, _))

instance (catalog : Catalog) (key : MessageKey) (text : String) :
    Decidable (catalog.Remembers key text) :=
  inferInstanceAs (Decidable (∃ entry ∈ catalog.allObsolete, _))

theorem not_gives_of_isForms {entry : Entry} (forms : entry.id.isForms = true) :
    ¬ entry.Gives key text := by
  intro gives
  have plain := gives.plain
  rw [Entry.isPlain, forms] at plain
  cases plain

/-! ### Adding entries -/

theorem isFuzzy_iff {entry : Entry} : entry.isFuzzy = true ↔ .fuzzy ∈ entry.flags :=
  List.contains_iff_mem

/-- An entry is in doubt if a part of it has been. -/
theorem unite_isFuzzy (entry further : Entry) :
    (entry.unite further).isFuzzy = (entry.isFuzzy || further.isFuzzy) := by
  rw [Bool.eq_iff_iff, Bool.or_eq_true, isFuzzy_iff, isFuzzy_iff, isFuzzy_iff, Entry.unite,
    mem_distinct, List.mem_append]

/-- What is read of an entry is in doubt just if the entry is. -/
theorem asRead_isFuzzy (entry : Entry) : entry.asRead.isFuzzy = entry.isFuzzy := by
  rw [Bool.eq_iff_iff, isFuzzy_iff, isFuzzy_iff, Entry.asRead, mem_orderedFlags]

/-- Of two entries with one key the first keeps its translation, and doubts of either count. -/
theorem InDoubt.add {catalog : Catalog} (doubt : catalog.InDoubt key text) {entry : Entry}
    (own : entry.Gives key text → entry.isFuzzy = true) : (catalog.add entry).InDoubt key text := by
  intro other member gives
  simp only [Catalog.add] at member
  split at member
  · rename_i found present
    rcases mem_all_set member with rfl | old
    · by_cases takes : (entry.id.isForms && !found.id.isForms) = true
      · have forms : (found.unite entry).id.isForms = true := by
          rw [Bool.and_eq_true] at takes
          simp [Entry.unite, takes]
        exact absurd gives (not_gives_of_isForms forms)
      · have id : (found.unite entry).id = found.id := if_neg takes
        have translation : (found.unite entry).translation = found.translation := if_neg takes
        have former : found.Gives key text := by
          obtain ⟨plain, own, translates⟩ := gives
          rw [Entry.isPlain, id] at plain
          rw [Entry.messageKey, id] at own
          rw [translation] at translates
          exact ⟨plain, own, translates⟩
        have fuzzy := doubt found (mem_all.mpr ⟨_, Dictionary.mem_of_get? present⟩) former
        rw [unite_isFuzzy, fuzzy, Bool.true_or]
    · exact doubt other old gives
  · split at member
    · exact doubt other member gives
    · rcases mem_all_set member with rfl | old
      · exact own gives
      · exact doubt other old gives

theorem add_allObsolete (catalog : Catalog) (entry : Entry) :
    (catalog.add entry).allObsolete = catalog.allObsolete := by
  simp only [Catalog.add]
  split
  · rfl
  · split <;> rfl

/-! ### Merges -/

section Merge

variable {mode : MergeMode} {catalog : Catalog} {messages : List UniqueMessage}

/-- Only a text of the language of the sources is its own translation. -/
theorem first_of_sourceFilled {message text : String} {translation : Wording}
    (foreign : mode.isSource = true → message ≠ text)
    (written : (sourceFilled mode message translation).first = text) : translation.first = text := by
  rw [sourceFilled] at written
  split at written
  · rename_i fills
    rw [Bool.and_eq_true] at fills
    exact absurd written (foreign fills.1)
  · exact written

/-- The obsolete entry that a message takes over has the key of the message. -/
theorem remembers_of_former {message : UniqueMessage} {former : Entry}
    (taken : formerOf catalog message = some former) (own : properKey message = key)
    (written : former.translation.first = text) : catalog.Remembers key text := by
  rw [formerOf, takeObsolete_fst] at taken
  have isOwn := List.find?_some taken
  simp only [isOf, Bool.and_eq_true, decide_eq_true_iff] at isOwn
  refine ⟨former, List.mem_of_find?_eq_some taken, ?_, ?_, written⟩
  · rw [Entry.isPlain, isOwn.1]
    rfl
  · rw [Entry.messageKey, isOwn.1, isOwn.2, ← own]
    rfl

/-- A message that is stated takes a translation without doubt from an obsolete entry only, or, in the
language of the sources, from its own text. -/
theorem InDoubt.mergeMessage (doubt : catalog.InDoubt key text) (keyed : catalog.WellKeyed)
    (absent : ¬ catalog.Remembers key text) (worded : text ≠ "")
    (foreign : mode.isSource = true → key.1 ≠ text) (message : UniqueMessage)
    (counts : MergeCounts) : (mergeMessage mode (catalog, counts) message).1.InDoubt key text := by
  intro entry member gives
  cases found : catalog.get? message.message message.context with
  | some former =>
    rw [mergeMessage_of_some found] at member
    rcases mem_all_set member with rfl | old
    · have present := Dictionary.mem_of_get? found
      have same : keyOf message.message message.context = former.key := keyed.keyed _ present
      have named : message.message = key.1 :=
        (keyOf_inj.mp same).1.trans (congrArg Prod.fst gives.own)
      exact doubt former (mem_all.mpr ⟨_, present⟩)
        ⟨gives.plain, gives.own, first_of_sourceFilled (named ▸ foreign) gives.translates⟩
    · exact doubt entry old gives
  | none =>
    by_cases header : message.message = ""
    · rw [mergeMessage_of_header found header, Catalog.all, takeObsolete_entries] at member
      exact doubt entry member gives
    · rw [mergeMessage_of_none found header] at member
      rcases mem_all_set member with rfl | old
      · have own : properKey message = key := gives.own
        have named : message.message = key.1 := congrArg Prod.fst own
        have written := first_of_sourceFilled (named ▸ foreign) gives.translates
        cases taken : formerOf catalog message with
        | none =>
          rw [taken] at written
          exact absurd written.symm worded
        | some former =>
          rw [taken] at written
          exact absurd (remembers_of_former taken own written) absent
      · exact doubt entry old gives

theorem mem_allObsolete_mergeMessage {message : UniqueMessage} {counts : MergeCounts}
    {entry : Entry} (member : entry ∈ (Catalog.mergeMessage mode (catalog, counts) message).1.allObsolete) :
    entry ∈ catalog.allObsolete := by
  have taken := (takeObsolete_sublist catalog message.message
    (properContext message.context)).map Prod.snd
  cases found : catalog.get? message.message message.context with
  | some former =>
    rw [mergeMessage_of_some found] at member
    exact member
  | none =>
    by_cases header : message.message = ""
    · rw [mergeMessage_of_header found header] at member
      exact taken.subset member
    · rw [mergeMessage_of_none found header] at member
      exact taken.subset member

theorem InDoubt.foldl (doubt : catalog.InDoubt key text) (keyed : catalog.WellKeyed)
    (absent : ¬ catalog.Remembers key text) (worded : text ≠ "")
    (foreign : mode.isSource = true → key.1 ≠ text) (counts : MergeCounts) :
    (messages.foldl (Catalog.mergeMessage mode) (catalog, counts)).1.InDoubt key text := by
  induction messages generalizing catalog counts with
  | nil => exact doubt
  | cons message messages ih =>
    refine ih (doubt.mergeMessage keyed absent worded foreign message counts)
      (mergeMessage_wellKeyed keyed mode message counts) ?_ _
    rintro ⟨entry, member, gives⟩
    exact absent ⟨entry, mem_allObsolete_mergeMessage member, gives⟩

theorem mem_allObsolete_foldl {counts : MergeCounts} {entry : Entry}
    (member : entry ∈ (messages.foldl (mergeMessage mode) (catalog, counts)).1.allObsolete) :
    entry ∈ catalog.allObsolete := by
  induction messages generalizing catalog counts with
  | nil => exact member
  | cons message messages ih => exact mem_allObsolete_mergeMessage (ih member)

theorem mem_allObsolete_foldl_retire {entries : List Entry} {entry : Entry}
    (member : entry ∈ (entries.foldl (retire mode) catalog).allObsolete) :
    entry ∈ entries ∨ entry ∈ catalog.allObsolete := by
  induction entries generalizing catalog with
  | nil => exact .inr member
  | cons first entries ih =>
    rcases ih member with later | old
    · exact .inl (List.mem_cons_of_mem _ later)
    · rw [retire] at old
      split at old
      · exact .inr old
      · rcases mem_allObsolete_addObsolete old with rfl | older
        · exact .inl List.mem_cons_self
        · exact .inr older

theorem InDoubt.merge (doubt : catalog.InDoubt key text) (keyed : catalog.WellKeyed)
    (absent : ¬ catalog.Remembers key text) (worded : text ≠ "")
    (foreign : mode.isSource = true → key.1 ≠ text) :
    (merge mode messages catalog).1.InDoubt key text := by
  intro entry member gives
  rw [merge_all keyed] at member
  exact doubt.foldl keyed absent worded foreign _ entry (List.mem_of_mem_filter member) gives

/-- A message that is not stated has no active entry after a merge. -/
theorem inDoubt_of_unstated (keyed : catalog.WellKeyed)
    (unstated : key ∉ messages.map properKey) : (merge mode messages catalog).1.InDoubt key text := by
  intro entry member gives
  rw [merge_all keyed] at member
  have said := (isStated_iff messages gives.plain).mp (List.mem_filter.mp member).2
  rw [gives.own] at said
  exact absurd said unstated

/-- After a merge an obsolete entry holds a translation only if obsolete entries stay, and if one held
it before or the message is not stated. -/
theorem remembers_merge (remembers : (merge mode messages catalog).1.Remembers key text) :
    mode.isClean = false ∧ (catalog.Remembers key text ∨ key ∉ messages.map properKey) := by
  obtain ⟨entry, member, gives⟩ := remembers
  cases clean : mode.isClean with
  | true =>
    rw [merge_eq, clean] at member
    cases member
  | false =>
    refine ⟨rfl, ?_⟩
    rw [merge_of_keeps clean] at member
    rcases mem_allObsolete_foldl_retire member with left | old
    · have unsaid := (List.mem_filter.mp left).2
      refine .inr fun said => ?_
      rw [← gives.own, ← isStated_iff messages gives.plain] at said
      rw [said] at unsaid
      cases unsaid
    · exact .inl ⟨entry, mem_allObsolete_foldl old, gives⟩

end Merge

/-! ### Written and read -/

theorem InDoubt.isCarriedBy {catalog : Catalog} (doubt : catalog.InDoubt key text) :
    catalog.IsCarriedBy fun read => read.InDoubt key text where
  start _ member := nomatch member
  forms := {
    add := fun _ _ forms held => held.add fun gives => absurd gives (not_gives_of_isForms forms)
    addObsolete := fun _ _ _ _ held => held }
  active entry member plain _ held := held.add fun gives => (asRead_isFuzzy entry).trans
    (doubt entry member ⟨plain, (asRead_messageKey entry).symm.trans gives.own, gives.translates⟩)
  obsolete _ _ _ _ held := held

theorem isCarriedBy_of_not_remembers {catalog : Catalog} (absent : ¬ catalog.Remembers key text) :
    catalog.IsCarriedBy fun read => ¬ read.Remembers key text where
  start := by
    rintro ⟨_, member, -⟩
    cases member
  forms := {
    add := fun read entry _ held => by
      rw [Remembers, add_allObsolete]
      exact held
    addObsolete := fun read place entry forms held => by
      rintro ⟨other, member, gives⟩
      rcases mem_allObsolete_addObsolete member with rfl | old
      · exact not_gives_of_isForms forms gives
      · exact held ⟨other, old, gives⟩ }
  active entry _ _ read held := by
    rw [Remembers, add_allObsolete]
    exact held
  obsolete entry member plain read held := by
    rintro ⟨other, listed, gives⟩
    rcases mem_allObsolete_addObsolete listed with rfl | old
    · have own : entry.messageKey = entry.asReadObsolete.messageKey := (asRead_messageKey entry).symm
      exact absent ⟨entry, member, plain, own.trans gives.own, gives.translates⟩
    · exact held ⟨other, old, gives⟩

/-- What is compiled is in no doubt. -/
theorem gives_of_mem_compile {catalog : Catalog} {id : String}
    (member : (id, text) ∈ catalog.compile) :
    ∃ entry ∈ catalog.all, ∃ key, entry.Gives key text ∧ Message.identifier key.1 key.2 = id ∧
      entry.isFuzzy = false ∧ text ≠ "" := by
  obtain ⟨entry, listed, used⟩ := List.mem_filterMap.mp (Dictionary.mem_ofPairs member)
  refine ⟨entry, listed, entry.messageKey, ?_⟩
  unfold usable? at used
  split at used
  · rename_i message translation named translated
    split at used
    · cases used
    rename_i usable
    cases used
    simp only [Bool.or_eq_true, not_or, Bool.not_eq_true, String.isEmpty_eq_false_iff] at usable
    have own : entry.messageKey = (message, properContext entry.context) := by
      rw [Entry.messageKey, named]
      rfl
    refine ⟨⟨?_, rfl, ?_⟩, ?_, usable.1.2, usable.2⟩
    · rw [Entry.isPlain, named]
      rfl
    · rw [translated]
      rfl
    · rw [own]
      exact Message.identifier_congr (properContext_properContext entry.context)
  · cases used

end Catalog

namespace CatalogFiles

open Catalog (Fault Header MessageKey properKey)
open Catalog.Template (catalogEnding isEnding_catalog isEnding_compiled)
open Outcome (bind_eq_ok toOption_eq_some)

/-! ### Compiled files lie beside catalogs -/

/-- Compiling a catalog leaves it as it is. -/
theorem load_compiled [Catalog.Codecs] {files : CatalogFiles} {tree after : FileTree}
    {locale : String} {compiled : Dictionary String String}
    (done : files.compile tree locale = .ok (compiled, after)) :
    files.load after locale = files.load tree locale := by
  obtain ⟨⟨header, catalog⟩, -, done⟩ := bind_eq_ok.mp done
  obtain ⟨stored, written, done⟩ := bind_eq_ok.mp done
  cases done
  have stored := Outcome.mapError_eq_ok.mp written
  have down := Catalog.Template.stem_ne files.template locale isEnding_compiled
  rw [Catalog.Template.compiledPath, Catalog.Template.path_eq _ _ isEnding_compiled] at stored
  obtain ⟨parent, -, leads, -⟩ := (FileTree.store_child_eq_ok down).mp stored
  have within := FileTree.within_store_child down stored
  have own : tree.place? (files.template.path locale catalogEnding) =
      some (parent ++ [files.template.stem locale ++ catalogEnding]) :=
    @Target.place?_path tree (files, locale) parent leads _ isEnding_catalog
  have still : after.place? (files.template.path locale catalogEnding) =
      some (parent ++ [files.template.stem locale ++ catalogEnding]) := by
    rw [FileTree.place?, within.here]
    exact within.walk own
  rw [load_eq, load_eq, at?_of_place? own, at?_of_place? still,
    FileTree.entry?_store_child down stored leads, if_neg, if_neg]
  · intro above
    have longer := above.length_le
    rw [List.length_append, List.length_singleton] at longer
    omega
  · intro same
    have names : files.template.stem locale ++ catalogEnding =
        files.template.stem locale ++ Catalog.Template.compiledEnding :=
      List.singleton_inj.mp (List.append_inj' same rfl).2
    have last := congrArg (fun name => name.toList.getLast?) names
    simp [Catalog.Template.compiledEnding, catalogEnding] at last

/-! ### Runs -/

/-- A call on the catalog of a locale. -/
inductive Call where
  | merge (records : List Record) (isClean : Bool)
  | compile

/-- Where the translation of a message may be besides an entry in doubt. -/
inductive Standing where
  | nowhere
  /-- In an obsolete entry, and in no active one. -/
  | away
  /-- In an active entry that is in no doubt. -/
  | back
  deriving DecidableEq

namespace Standing

/-- A merge that does not state the message takes the translation to an obsolete entry, or drops it; a
later one that states the message takes it back. -/
def after (key : MessageKey) (standing : Standing) : Call → Standing
  | .merge records isClean =>
    if key ∈ (uniqueMessages records).map properKey then
      if standing = nowhere then nowhere else back
    else if isClean then nowhere else away
  | .compile => standing

def afterAll (key : MessageKey) (standing : Standing) (calls : List Call) : Standing :=
  calls.foldl (after key) standing

/-- The standing in a catalog in which the translation is in doubt. -/
def atFirst (catalog : Catalog) (key : MessageKey) (text : String) : Standing :=
  if catalog.Remembers key text then away else nowhere

/-- What is so of a catalog. -/
def Fits (key : MessageKey) (text : String) (standing : Standing) (catalog : Catalog) : Prop :=
  (standing ≠ back → catalog.InDoubt key text) ∧
    (standing = nowhere → ¬ catalog.Remembers key text)

end Standing

/-- The tree after a call. -/
def perform [Catalog.Codecs] (files : CatalogFiles) (locale : String) (tree : FileTree) :
    Call → Except Fault FileTree
  | .merge records isClean => do
    .ok (← files.merge tree locale (uniqueMessages records) isClean).2
  | .compile => do .ok (← files.compile tree locale).2

def performAll [Catalog.Codecs] (files : CatalogFiles) (locale : String) (tree : FileTree)
    (calls : List Call) : Except Fault FileTree :=
  calls.foldlM (files.perform locale) tree

variable {files : CatalogFiles} {tree after : FileTree} {locale : String} {key : MessageKey}
  {text : String} {standing : Standing}

/-- What is so of a catalog is so when it has been written and read. -/
theorem Standing.Fits.isCarriedBy {catalog : Catalog} (fits : standing.Fits key text catalog) :
    catalog.IsCarriedBy (standing.Fits key text) :=
  (Catalog.IsCarriedBy.of_imp fun certain => (fits.1 certain).isCarriedBy).and
    (.of_imp fun absent => Catalog.isCarriedBy_of_not_remembers (fits.2 absent))

theorem Standing.fits_merge {mode : Catalog.MergeMode} {records : List Record} {catalog : Catalog}
    (keyed : catalog.WellKeyed) (worded : text ≠ "") (foreign : mode.isSource = true → key.1 ≠ text)
    (fits : standing.Fits key text catalog) :
    (standing.after key (.merge records mode.isClean)).Fits key text
      (catalog.merge mode (uniqueMessages records)).1 := by
  rw [after]
  split
  · rename_i stated
    split
    · rename_i none
      obtain ⟨doubt, absent⟩ := fits
      rw [none] at doubt absent
      refine ⟨fun _ => (doubt nofun).merge keyed (absent rfl) worded foreign, fun _ held => ?_⟩
      rcases (Catalog.remembers_merge held).2 with former | unstated
      · exact absent rfl former
      · exact unstated stated
    · exact ⟨fun certain => absurd rfl certain, nofun⟩
  · rename_i unstated
    refine ⟨fun _ => Catalog.inDoubt_of_unstated keyed unstated, fun dropped held => ?_⟩
    rw [(Catalog.remembers_merge held).1] at dropped
    cases dropped

/-- What is so of the catalog in a file. -/
def Guards [Catalog.Codecs] (files : CatalogFiles) (tree : FileTree) (locale : String)
    (key : MessageKey) (text : String) (standing : Standing) : Prop :=
  ∀ header catalog, files.load tree locale = .ok (header, catalog) →
    header.charset.isUtf8 = true ∧ standing.Fits key text catalog

theorem Guards.perform [Catalog.Codecs] (named : Header.IsFieldName locale) (worded : text ≠ "")
    (foreign : locale = files.sourceLocale → key.1 ≠ text)
    (guards : files.Guards tree locale key text standing) {call : Call}
    (done : files.perform locale tree call = .ok after) :
    files.Guards after locale key text (standing.after key call) := by
  cases call with
  | compile =>
    obtain ⟨⟨compiled, stored⟩, made, rest⟩ := bind_eq_ok.mp done
    obtain rfl : stored = after := Except.ok.inj rest
    intro header catalog loaded
    rw [load_compiled made] at loaded
    exact guards header catalog loaded
  | merge records isClean =>
    obtain ⟨⟨counts, saved⟩, merged, rest⟩ := bind_eq_ok.mp done
    obtain rfl : saved = after := Except.ok.inj rest
    obtain ⟨⟨header, catalog⟩, loaded, -⟩ := bind_eq_ok.mp merged
    obtain ⟨unicode, fits⟩ := guards header catalog loaded
    obtain ⟨-, saved⟩ := (merge_eq_ok loaded).mp merged
    have keyed := load_wellKeyed loaded
    let mode : Catalog.MergeMode := ⟨locale = files.sourceLocale, isClean⟩
    have source : mode.isSource = true → key.1 ≠ text := fun own => foreign (of_decide_eq_true own)
    have kept : (standing.after key (.merge records isClean)).Fits key text
        (catalog.merge mode (uniqueMessages records)).1 :=
      Standing.fits_merge keyed worded source fits
    intro again back reloaded
    exact load_saved_keeps kept.isCarriedBy (Catalog.merge_wellKeyed keyed)
      (load_sound named loaded).steady unicode saved reloaded

theorem Guards.performAll [Catalog.Codecs] (named : Header.IsFieldName locale) (worded : text ≠ "")
    (foreign : locale = files.sourceLocale → key.1 ≠ text) {calls : List Call}
    (guards : files.Guards tree locale key text standing)
    (done : files.performAll locale tree calls = .ok after) :
    files.Guards after locale key text (standing.afterAll key calls) := by
  induction calls generalizing tree standing with
  | nil =>
    cases done
    exact guards
  | cons call calls ih =>
    rw [CatalogFiles.performAll, List.foldlM_cons] at done
    obtain ⟨next, first, later⟩ := bind_eq_ok.mp done
    exact ih (guards.perform named worded foreign first) later

/-- A translation that is in doubt wherever it is stands for no id in what is compiled, whatever merges
and compiles come before, unless a message of that id has taken it back from an obsolete entry. -/
theorem compile_doubted [Catalog.Codecs] {header : Header} {catalog : Catalog}
    (named : Header.IsFieldName locale) (loaded : files.load tree locale = .ok (header, catalog))
    (unicode : header.charset.isUtf8 = true)
    {id : String} (doubt : ∀ key : MessageKey, Message.identifier key.1 key.2 = id →
      catalog.InDoubt key text ∧ (locale = files.sourceLocale → key.1 ≠ text))
    {calls : List Call} (lost : ∀ key : MessageKey, Message.identifier key.1 key.2 = id →
      (Standing.atFirst catalog key text).afterAll key calls ≠ .back)
    (done : files.performAll locale tree calls = .ok after) {compiled : Dictionary String String}
    {last : FileTree} (made : files.compile after locale = .ok (compiled, last)) :
    (id, text) ∉ compiled ∧
      ∃ stored, files.loadCompiled last locale = .ok stored ∧ (id, text) ∉ stored.texts := by
  suffices absent : (id, text) ∉ compiled by
    refine ⟨absent, _, loadCompiled_of_compile made, ?_⟩
    rw [CompiledCatalog.texts_ofTexts]
    exact fun member => absent ((List.mergeSort_perm compiled _).mem_iff.mp member)
  intro published
  obtain ⟨⟨again, back⟩, reloaded, rest⟩ := bind_eq_ok.mp made
  obtain ⟨stored, -, rest⟩ := bind_eq_ok.mp rest
  cases rest
  obtain ⟨entry, member, key, gives, identified, certain, worded⟩ :=
    Catalog.gives_of_mem_compile published
  obtain ⟨inDoubt, foreign⟩ := doubt key identified
  have guards : files.Guards tree locale key text (.atFirst catalog key text) := by
    intro other first loadedToo
    obtain ⟨rfl, rfl⟩ := Prod.mk.inj (Except.ok.inj (loaded.symm.trans loadedToo))
    refine ⟨unicode, fun _ => inDoubt, fun none held => ?_⟩
    rw [Standing.atFirst, if_pos held] at none
    cases none
  have fits := (guards.performAll named worded foreign done again back reloaded).2
  rw [fits.1 (lost key identified) entry member gives] at certain
  cases certain

/-- Calls that state one message again and again. -/
def steadyCalls : List Call :=
  [.merge [Catalog.bareRecord "shut"] false, .compile, .merge [Catalog.bareRecord "shut"] true]

theorem afterAll_steadyCalls (key : MessageKey) :
    Standing.nowhere.afterAll key steadyCalls = .nowhere := by
  have only : (uniqueMessages [Catalog.bareRecord "shut"]).map properKey = [("shut", none)] := by
    decide
  by_cases own : key = ("shut", none)
  · rw [own]
    decide
  · simp [steadyCalls, Standing.afterAll, Standing.after, only, own]

/-- Entries of other messages are retired and removed, and the one in doubt stays in doubt. -/
theorem compile_doubted_french :
    ∃ after compiled last stored,
      localeFiles.performAll "fr" (treeOf "fr.po" frenchText) steadyCalls = .ok after ∧
        localeFiles.compile after "fr" = .ok (compiled, last) ∧
        localeFiles.loadCompiled last "fr" = .ok stored ∧
        (Message.identifier "shut" none, "fermer") ∉ stored.texts := by
  have computed : (localeFiles.load (treeOf "fr.po" frenchText) "fr").toOption.map
      (fun pair => (pair.1.charset.isUtf8, pair.2.all, pair.2.allObsolete)) =
      some (true, [⟨.single "open", .single "ouvrir", some "menu", [], [], [], []⟩,
        ⟨.single "shut", .single "fermer", none, [], [.fuzzy], [], []⟩],
        [⟨.single "exit", .single "sortir", none, [], [], [], []⟩]) := by decide +kernel
  obtain ⟨header, catalog, loaded, parts⟩ := load_of_computed computed
  obtain ⟨unicode, all, obsolete⟩ := Prod.mk.inj parts |>.imp_right Prod.mk.inj
  have runs : ((localeFiles.performAll "fr" (treeOf "fr.po" frenchText) steadyCalls).toOption.bind
      fun after => (localeFiles.compile after "fr").toOption.map (·.1)) = some [] := by
    decide +kernel
  obtain ⟨after, performed, compiles⟩ := Option.bind_eq_some_iff.mp runs
  obtain ⟨⟨compiled, last⟩, written, -⟩ := Option.map_eq_some_iff.mp compiles
  have done := toOption_eq_some.mp performed
  have made := toOption_eq_some.mp written
  have lost : ∀ key, (Standing.atFirst catalog key "fermer").afterAll key steadyCalls ≠ .back := by
    intro key
    have absent : ¬ catalog.Remembers key "fermer" := by
      rintro ⟨entry, member, gives⟩
      rw [obsolete, List.mem_singleton] at member
      have text := gives.translates
      rw [member] at text
      revert text
      decide
    rw [Standing.atFirst, if_neg absent, afterAll_steadyCalls]
    decide
  have doubted : ∀ key, catalog.InDoubt key "fermer" := by
    intro key entry member gives
    rw [all] at member
    simp only [List.mem_cons, List.not_mem_nil, or_false] at member
    rcases member with rfl | rfl
    · exact absurd gives.translates (by decide)
    · rfl
  obtain ⟨-, stored, read, absent⟩ := compile_doubted ⟨by decide, by decide⟩ loaded unicode
    (fun key _ => ⟨doubted key, fun source => absurd source (by decide)⟩) (fun key _ => lost key)
    done made
  exact ⟨after, compiled, last, stored, done, made, read, absent⟩

/-- A translation in doubt, and no other. -/
def doubtfulText : String :=
  "msgid \"\"\nmsgstr \"\"\n\"Content-Type: text/plain; charset=utf-8\\n\"\n\n" ++
    "#, fuzzy\nmsgid \"m\"\nmsgstr \"T\"\n"

/-- A message is not stated once, and stated again: its translation, which was in doubt, is
published. -/
theorem compile_returned_doubt :
    (∃ header catalog, localeFiles.load (treeOf "ja.po" doubtfulText) "ja" = .ok (header, catalog) ∧
      catalog.all = [⟨.single "m", .single "T", none, [], [.fuzzy], [], []⟩]) ∧
    ∃ after last stored,
      localeFiles.performAll "ja" (treeOf "ja.po" doubtfulText)
          [.merge [] false, .merge [Catalog.bareRecord "m"] false] = .ok after ∧
        localeFiles.compile after "ja" = .ok ([(Message.identifier "m" none, "T")], last) ∧
        localeFiles.loadCompiled last "ja" = .ok stored ∧
        (Message.identifier "m" none, "T") ∈ stored.texts := by
  refine ⟨load_of_all _ _ _ (by decide +kernel), ?_⟩
  have runs : ((localeFiles.performAll "ja" (treeOf "ja.po" doubtfulText)
      [.merge [] false, .merge [Catalog.bareRecord "m"] false]).toOption.bind
      fun after => (localeFiles.compile after "ja").toOption.map (·.1)) =
      some [(Message.identifier "m" none, "T")] := by
    decide +kernel
  obtain ⟨after, done, compiles⟩ := Option.bind_eq_some_iff.mp runs
  obtain ⟨⟨compiled, last⟩, made, rfl⟩ := Option.map_eq_some_iff.mp compiles
  have performed := toOption_eq_some.mp done
  have written := toOption_eq_some.mp made
  refine ⟨after, last, _, performed, written, loadCompiled_of_compile written, ?_⟩
  rw [CompiledCatalog.texts_ofTexts]
  exact (List.mergeSort_perm _ _).mem_iff.mpr List.mem_cons_self

end CatalogFiles

end Phrasebook

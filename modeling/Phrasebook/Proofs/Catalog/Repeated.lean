import Phrasebook.Proofs.Catalog.Files
import Phrasebook.Proofs.Catalog.Settled
import Phrasebook.Proofs.Catalog.Updated

set_option autoImplicit false

/-!
Running a merge twice. The second run loads what the first one has saved; it finds every message
there, and saves what is loaded as before, just if the messages and their contexts can be found again.
-/
namespace Phrasebook

open Catalog (Header MergeCounts)
open Extract (Record UniqueMessage uniqueMessages)

namespace Catalog

/-- Records whose ids tell apart what they state; an empty context states nothing. -/
def Identified (records : List Record) : Prop :=
  ∀ record ∈ records, ∀ other ∈ records, record.id = other.id ↔
    record.message = other.message ∧ properContext record.context = properContext other.context

instance (records : List Record) : Decidable (Identified records) :=
  inferInstanceAs (Decidable (∀ record ∈ records, ∀ other ∈ records, _))

/-- A message that can be found again: neither its text nor its context is written and empty. -/
def IsLasting (message : UniqueMessage) : Prop :=
  message.message ≠ "" ∧ message.context ≠ some ""

instance (message : UniqueMessage) : Decidable (IsLasting message) :=
  inferInstanceAs (Decidable (_ ∧ _))

theorem Identified.once {records : List Record} (identified : Identified records) :
    ((uniqueMessages records).map uniqueKey).Nodup := by
  refine nodup_uniqueKey fun record stated other otherStated same => ?_
  obtain ⟨text, context⟩ := Prod.mk.inj same
  exact (identified record stated other otherStated).mpr ⟨text, congrArg properContext context⟩

theorem Identified.distinct {records : List Record} (identified : Identified records)
    (lasting : ∀ message ∈ uniqueMessages records, IsLasting message) :
    Distinct (uniqueMessages records) where
  once := identified.once
  shown message member := (lasting message member).1
  proper message member := (lasting message member).2

/-- What is found in a catalog that has been read can be found again. -/
theorem IsRead.lasting {catalog : Catalog} (read : catalog.IsRead) {message : UniqueMessage}
    (found : (catalog.get? message.message message.context).isSome = true) : IsLasting message := by
  obtain ⟨entry, present⟩ := Option.isSome_iff_exists.mp found
  have placed := Dictionary.mem_of_get? present
  have member : entry ∈ catalog.all := mem_all.mpr ⟨_, placed⟩
  have own : keyOf message.message message.context = entry.key := read.keyed.keyed _ placed
  obtain ⟨text, context⟩ := keyOf_inj.mp own
  constructor
  · rw [text]
    exact read.keyed.first_ne member (read.plain.active entry member)
  · rw [context]
    exact read.proper entry member

/-- A merge that adds nothing finds every message. -/
theorem found_of_counts {mode : MergeMode} {messages : List UniqueMessage} {catalog : Catalog}
    (once : (messages.map uniqueKey).Nodup) (none : (merge mode messages catalog).2.added = 0) :
    ∀ message ∈ messages, (catalog.get? message.message message.context).isSome = true := by
  intro message member
  rw [merge_eq, foldl_counts once] at none
  have absent := List.countP_eq_zero.mp ((Nat.zero_add _).symm.trans none) message member
  rwa [Option.isNone_iff_eq_none, ← ne_eq, Option.ne_none_iff_isSome] at absent

theorem merge_clean {mode : MergeMode} (clean : mode.isClean = true)
    (messages : List UniqueMessage) (catalog : Catalog) :
    (merge mode messages catalog).1.asRead.obsolete = [] := by
  rw [asRead_obsolete, merge_eq, clean]
  rfl

end Catalog

namespace CatalogFiles

variable {files : CatalogFiles} {tree after : FileTree} {locale : String} {header : Header}
  {catalog : Catalog}

theorem load_isSingle [Catalog.Codecs] (loaded : files.load tree locale = .ok (header, catalog))
    (plain : catalog.Plain) : catalog.IsSingle := by
  have keyed := load_wellKeyed loaded
  rcases load_cases loaded with ⟨bytes, read⟩ | ⟨-, -, rfl⟩
  · exact (Catalog.read_matched read).isSingle keyed plain
  · exact ⟨keyed, plain, nofun⟩

section Merged

variable {messages : List UniqueMessage} {isClean : Bool} {counts : MergeCounts}

/-- What is loaded after a merge. -/
theorem load_merged [Catalog.Codecs] (named : Header.IsFieldName locale)
    (loaded : files.load tree locale = .ok (header, catalog))
    (unicode : header.charset.isUtf8 = true) (plain : catalog.Plain)
    (merged : files.merge tree locale messages isClean = .ok (counts, after)) :
    files.load after locale = .ok (header.asRead,
      (catalog.merge ⟨locale = files.sourceLocale, isClean⟩ messages).1.asRead) := by
  have single := Catalog.merge_isSingle ⟨locale = files.sourceLocale, isClean⟩ messages
    (load_isSingle loaded plain)
  exact load_save (isLocaleName_of_load loaded) (load_sound named loaded).steady unicode
    single.keyed single.plain ((merge_eq_ok loaded).mp merged).2

/-- After a merge there can be another one. -/
theorem exists_merge_again [Catalog.Codecs]
    (loaded : files.load tree locale = .ok (header, catalog))
    (merged : files.merge tree locale messages isClean = .ok (counts, after)) {read : Header}
    {next : Catalog} (reloaded : files.load after locale = .ok (read, next))
    (others : List UniqueMessage) (again : Bool) :
    ∃ last, files.merge after locale others again =
      .ok ((next.merge ⟨locale = files.sourceLocale, again⟩ others).2, last) := by
  obtain ⟨last, saved⟩ := save_again ((merge_eq_ok loaded).mp merged).2 read
    (next.merge ⟨locale = files.sourceLocale, again⟩ others).1
  exact ⟨last, (merge_eq_ok reloaded).mpr ⟨rfl, saved⟩⟩

end Merged

/-- A merge finds each of the messages and retires nothing, and what can be loaded is the same
afterwards, but for the obsolete entries where those are dropped. -/
def MergesNothing [Catalog.Codecs] (files : CatalogFiles) (tree : FileTree) (locale : String)
    (messages : List UniqueMessage) (isClean drops : Bool) : Prop :=
  ∃ again header catalog,
    files.merge tree locale messages isClean = .ok (⟨0, messages.length, 0⟩, again) ∧
      files.load tree locale = .ok (header, catalog) ∧
      files.load again locale =
        .ok (header, if drops then { catalog with obsolete := [] } else catalog)

/-- A merge that is repeated does nothing, but drop the obsolete entries that it was not to drop
before, just if every message can be found again. -/
theorem merge_again_iff [Catalog.Codecs] {records : List Record}
    (identified : Catalog.Identified records) (named : Header.IsFieldName locale)
    (loaded : files.load tree locale = .ok (header, catalog))
    (unicode : header.charset.isUtf8 = true) (plain : catalog.Plain)
    (proper : catalog.ProperWhereStated (uniqueMessages records)) {isClean : Bool}
    {counts : MergeCounts}
    (merged : files.merge tree locale (uniqueMessages records) isClean = .ok (counts, after))
    (again : Bool) :
    files.MergesNothing after locale (uniqueMessages records) again (again && !isClean) ↔
      ∀ message ∈ uniqueMessages records, Catalog.IsLasting message := by
  let source : Bool := locale = files.sourceLocale
  have reloaded := load_merged named loaded unicode plain merged
  have read := Catalog.asRead_isRead
    (catalog.merge ⟨source, isClean⟩ (uniqueMessages records)).1
  constructor
  · rintro ⟨last, -, -, repeated, -, -⟩ message member
    have counted := ((merge_eq_ok reloaded).mp repeated).1
    have none := congrArg MergeCounts.added counted
    exact read.lasting (Catalog.found_of_counts identified.once none message member)
  · intro lasting
    have distinct := identified.distinct lasting
    have settled : Catalog.IsSettled ⟨source, isClean⟩ (uniqueMessages records) _ :=
      Catalog.merge_settled distinct (load_isSingle loaded plain) proper
    have counted := settled.counts_again distinct ⟨source, again⟩
    have same := settled.asRead_again distinct again
    obtain ⟨last, repeated⟩ := exists_merge_again loaded merged reloaded _ again
    have lastLoaded := load_merged named reloaded unicode read.plain repeated
    rw [counted] at repeated
    refine ⟨last, _, _, repeated, reloaded, ?_⟩
    rw [lastLoaded, Header.asRead_asRead, same]
    -- what the first merge was to drop is not there any more
    have none : isClean = true → (catalog.merge ⟨source, isClean⟩
        (uniqueMessages records)).1.asRead.obsolete = [] :=
      fun clean => Catalog.merge_clean clean _ catalog
    cases isClean with
    | false => rw [Bool.not_false, Bool.and_true]
    | true =>
      rw [Bool.not_true, Bool.and_false, ← none rfl]
      cases again <;> rfl

/-- A translated entry and an obsolete one. -/
def orchardText : String :=
  "msgid \"apple\"\nmsgstr \"pomme\"\n\n#~ msgid \"plum\"\n#~ msgstr \"prune\"\n"

theorem load_orchard : ∃ header catalog,
    localeFiles.load (treeOf "fr.po" orchardText) "fr" = .ok (header, catalog) ∧
      (header.charset.isUtf8, catalog.all, catalog.allObsolete) =
        (true, [⟨.single "apple", .single "pomme", none, [], [], [], []⟩],
          [⟨.single "plum", .single "prune", none, [], [], [], []⟩]) := by
  have computed : (localeFiles.load (treeOf "fr.po" orchardText) "fr").toOption.map
      (fun pair => (pair.1.charset.isUtf8, pair.2.all, pair.2.allObsolete)) =
      some (true, [⟨.single "apple", .single "pomme", none, [], [], [], []⟩],
        [⟨.single "plum", .single "prune", none, [], [], [], []⟩]) := by decide +kernel
  exact load_of_computed computed

/-- An entry is stated again, an obsolete one comes back, and nothing is left for a second merge. -/
theorem merge_again_orchard :
    ∃ header catalog counts after,
      localeFiles.load (treeOf "fr.po" orchardText) "fr" = .ok (header, catalog) ∧
        catalog.Plain ∧ catalog.ProperWhereStated (uniqueMessages Catalog.fruitRecords) ∧
        localeFiles.merge (treeOf "fr.po" orchardText) "fr"
          (uniqueMessages Catalog.fruitRecords) false = .ok (counts, after) ∧
        localeFiles.MergesNothing after "fr" (uniqueMessages Catalog.fruitRecords) false false ∧
        localeFiles.MergesNothing after "fr" (uniqueMessages Catalog.fruitRecords) true true := by
  obtain ⟨header, catalog, loaded, parts⟩ := load_orchard
  obtain ⟨unicode, all, obsolete⟩ := Prod.mk.inj parts |>.imp_right Prod.mk.inj
  have identified : Catalog.Identified Catalog.fruitRecords := by decide
  have named : Header.IsFieldName "fr" := ⟨by decide, by decide⟩
  have plain : catalog.Plain := by
    constructor
    · rw [all]
      decide
    · rw [obsolete]
      decide
  have proper : catalog.ProperWhereStated (uniqueMessages Catalog.fruitRecords) := by
    rw [Catalog.ProperWhereStated, all]
    decide
  have lasting : ∀ message ∈ uniqueMessages Catalog.fruitRecords,
      Catalog.IsLasting message := by
    decide
  obtain ⟨after, merged⟩ :=
    exists_merge loaded (by decide +kernel) (uniqueMessages Catalog.fruitRecords) false
  refine ⟨header, catalog, _, after, loaded, plain, proper, merged, ?_, ?_⟩
  · exact (merge_again_iff identified named loaded unicode plain proper merged false).mpr lasting
  · exact (merge_again_iff identified named loaded unicode plain proper merged true).mpr lasting

theorem load_nothing [Catalog.Codecs] :
    localeFiles.load ⟨[], []⟩ "ja" = .ok (.ofLocale "ja", .empty) := by
  have absent : FileTree.has ⟨[], []⟩ (localeFiles.template.catalogPath "ja") = false := by
    decide +kernel
  have named : Catalog.isLocaleName "ja" = true := by decide
  unfold load
  dsimp only
  rw [absent, named]
  rfl

/-- A record that is merged twice where nothing has been saved before. -/
theorem counts_again [Catalog.Codecs] {record : Record} {counts : MergeCounts}
    (counted : (Catalog.merge ⟨false, false⟩ (uniqueMessages [record])
      (Catalog.merge ⟨false, false⟩ (uniqueMessages [record]) .empty).1.asRead).2 = counts) :
    ∃ first after again,
      localeFiles.merge ⟨[], []⟩ "ja" (uniqueMessages [record]) false = .ok (first, after) ∧
        localeFiles.merge after "ja" (uniqueMessages [record]) false = .ok (counts, again) := by
  have plain : Catalog.empty.Plain := ⟨by decide, by decide⟩
  have named : Header.IsFieldName "ja" := ⟨by decide, by decide⟩
  have foreign : decide ("ja" = localeFiles.sourceLocale) = false := by decide
  obtain ⟨after, merged⟩ :=
    exists_merge load_nothing (by decide +kernel) (uniqueMessages [record]) false
  have reloaded := load_merged named load_nothing rfl plain merged
  obtain ⟨again, repeated⟩ :=
    exists_merge_again load_nothing merged reloaded (uniqueMessages [record]) false
  rw [foreign, counted] at repeated
  exact ⟨_, after, again, merged, repeated⟩

/-- The record of a message with a context that is written, but empty. -/
def blankContextRecord : Record := ⟨"1", "m", some "", none, none⟩

/-- A message with an empty context, and the empty message, count as new ones once more. -/
theorem merge_again_fleeting :
    (Catalog.Identified [blankContextRecord] ∧ ∃ counts after again,
      localeFiles.merge ⟨[], []⟩ "ja" (uniqueMessages [blankContextRecord]) false =
          .ok (counts, after) ∧
        localeFiles.merge after "ja" (uniqueMessages [blankContextRecord]) false =
          .ok (⟨1, 0, 0⟩, again)) ∧
    Catalog.Identified [Catalog.bareRecord ""] ∧ ∃ counts after again,
      localeFiles.merge ⟨[], []⟩ "ja" (uniqueMessages [Catalog.bareRecord ""]) false =
          .ok (counts, after) ∧
        localeFiles.merge after "ja" (uniqueMessages [Catalog.bareRecord ""]) false =
          .ok (⟨1, 0, 0⟩, again) :=
  ⟨⟨by decide, counts_again (by decide)⟩, by decide, counts_again (by decide)⟩

end CatalogFiles

end Phrasebook

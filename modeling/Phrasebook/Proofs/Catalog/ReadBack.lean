import Phrasebook.Proofs.Catalog.Repeated

set_option autoImplicit false

/-!
What is written and read keeps the translations: of each message the first active entry counts, and
the last obsolete one. So merges through files are runs of merges.
-/
namespace Phrasebook

open Catalog (Header MergeCounts)
open Extract (Record UniqueMessage uniqueMessages)
open Outcome (bind_eq_ok)

namespace Catalog

/-! ### Entries by their messages -/

/-- Where keys hold no redundant context, the entry of a message is found under its key. -/
theorem mem_messageKey_iff {entries : Dictionary EntryKey Entry}
    (once : (Dictionary.keys entries).Nodup)
    (own : ∀ pair ∈ entries, pair.1 = keyOf pair.2.messageKey.1 pair.2.messageKey.2)
    {key : MessageKey} {entry : Entry} :
    entry ∈ entries.map (·.2) ∧ entry.messageKey = key ↔
      Dictionary.get? (keyOf key.1 key.2) entries = some entry := by
  constructor
  · rintro ⟨member, rfl⟩
    obtain ⟨pair, listed, rfl⟩ := List.mem_map.mp member
    rw [← own pair listed]
    exact Dictionary.get?_of_mem once listed
  · intro found
    have listed := Dictionary.mem_of_get? found
    obtain ⟨text, context⟩ := keyOf_inj.mp (own _ listed)
    exact ⟨List.mem_map_of_mem listed, (Prod.ext text context).symm⟩

section IsRead

variable {catalog : Catalog} (read : catalog.IsRead)

include read

theorem IsRead.entry_key {pair : EntryKey × Entry} (member : pair ∈ catalog.entries) :
    pair.1 = keyOf pair.2.messageKey.1 pair.2.messageKey.2 :=
  (read.keyed.keyed pair member).trans (Entry.key_eq (read.proper _ (List.mem_map_of_mem member)))

theorem IsRead.obsolete_key {pair : EntryKey × Entry} (member : pair ∈ catalog.obsolete) :
    pair.1 = keyOf pair.2.messageKey.1 pair.2.messageKey.2 :=
  (read.obsolete pair member).1.trans
    (Entry.key_eq (read.obsoleteProper (List.mem_map_of_mem member)))

theorem IsRead.activeOf_eq (key : MessageKey) :
    activeOf catalog key = Dictionary.get? (keyOf key.1 key.2) catalog.entries := by
  ext entry
  rw [activeOf_eq_some read.keyed read.proper,
    ← mem_messageKey_iff read.keyed.once fun _ => read.entry_key]
  rfl

theorem IsRead.obsoleteOf_eq (key : MessageKey) :
    obsoleteOf catalog key = Dictionary.get? (keyOf key.1 key.2) catalog.obsolete := by
  ext entry
  rw [obsoleteOf_eq_some read.orderly.once,
    ← mem_messageKey_iff read.keyed.obsoleteOnce fun _ => read.obsolete_key]
  rfl

end IsRead

/-! ### Active entries -/

theorem asRead_messageKey (entry : Entry) : entry.asRead.messageKey = entry.messageKey :=
  Prod.ext rfl (properContext_properContext entry.context)

theorem asRead_key (entry : Entry) :
    entry.asRead.key = keyOf entry.messageKey.1 entry.messageKey.2 := rfl

/-- The first entry of a message gives the translation. -/
theorem IsRead.translation_add {catalog : Catalog} (read : catalog.IsRead) {entry : Entry}
    (shown : entry.id.first ≠ "") (key : MessageKey) :
    (activeOf (catalog.add entry.asRead) key).map (·.translation) =
      ((activeOf catalog key).or (if entry.messageKey = key then some entry.asRead else none)).map
        (·.translation) := by
  have place : entry.messageKey = key ↔ keyOf key.1 key.2 = entry.asRead.key := by
    rw [asRead_key, keyOf_inj, Prod.ext_iff, eq_comm, eq_comm (a := entry.messageKey.2)]
  have named : entry.asRead.isHeader = false := by
    simp [Entry.isHeader, Entry.asRead, shown]
  rw [(read.add entry).activeOf_eq, read.activeOf_eq]
  simp only [Catalog.add]
  split
  · rename_i found present
    by_cases own : entry.messageKey = key
    · rw [place.mp own, Dictionary.get?_set_self, present]
      rfl
    · rw [if_neg own, Option.or_none, Dictionary.get?_set_ne _ _ (mt place.mpr own)]
  · rename_i absent
    rw [if_neg (by simp [named])]
    by_cases own : entry.messageKey = key
    · rw [if_pos own, place.mp own, Dictionary.get?_set_self, absent]
      rfl
    · rw [if_neg own, Option.or_none, Dictionary.get?_set_ne _ _ (mt place.mpr own)]

theorem translation_foldl_add {entries : List Entry} (shown : ∀ entry ∈ entries, entry.id.first ≠ "")
    {catalog : Catalog} (read : catalog.IsRead) (key : MessageKey) :
    (activeOf (entries.foldl (fun catalog entry => catalog.add entry.asRead) catalog) key).map
        (·.translation) =
      ((activeOf catalog key).map (·.translation)).or
        ((entries.find? (·.messageKey = key)).map (·.asRead.translation)) := by
  induction entries generalizing catalog with
  | nil => simp
  | cons entry entries ih =>
    rw [List.foldl_cons, ih (fun other later => shown other (List.mem_cons_of_mem _ later))
      (read.add entry), read.translation_add (shown entry List.mem_cons_self), Option.map_or,
      Option.or_assoc, List.find?_cons]
    by_cases own : entry.messageKey = key
    · simp [own]
    · simp [own]

/-! ### Obsolete entries -/

/-- The last entry of a message gives the translation. -/
theorem translation_obsolete (catalog : Catalog) (key : MessageKey) :
    (obsoleteOf catalog.asRead key).map (·.translation) =
      (obsoleteOf catalog key).map (·.asReadObsolete.translation) := by
  rw [(asRead_isRead catalog).obsoleteOf_eq, asRead_obsolete, Dictionary.get?_ofPairs, obsoleteOf]
  induction catalog.allObsolete using List.reverseRecOn with
  | nil => rfl
  | append_singleton entries entry ih =>
    have place : entry.asReadObsolete.key = keyOf key.1 key.2 ↔ entry.messageKey = key := by
      rw [Entry.key, keyOf_inj, Prod.ext_iff]
      rfl
    rw [List.map_append, List.filterMap_append, List.getLast?_append, Option.map_or, ih,
      List.reverse_append, List.map_singleton, List.reverse_singleton, List.singleton_append,
      List.find?_cons]
    by_cases own : entry.messageKey = key
    · simp [own, place.mpr own]
    · simp [own, mt place.mp own]

/-- A catalog of single texts is read with the translations that it has. -/
theorem asRead_readBack {catalog : Catalog} (single : catalog.IsSingle) :
    ReadBack catalog catalog.asRead := by
  have read := asRead_isRead catalog
  refine ⟨read.keyed, read.plain, read.proper, fun entry => read.obsoleteProper, ?_, ?_⟩
  · intro key
    have shown : ∀ entry ∈ catalog.all, entry.id.first ≠ "" := fun entry member =>
      single.keyed.first_ne member (single.plain.active entry member)
    have same : catalog.asRead.all =
        (catalog.all.foldl (fun read entry => read.add entry.asRead) empty).all := by
      rw [Catalog.all, Catalog.asRead_entries, List.foldl_map]
      rfl
    rw [activeOf, same, ← activeOf, translation_foldl_add shown empty_isRead]
    refine Option.map_congr fun entry found => ?_
    exact single_first (single.translated.active (List.mem_of_find?_eq_some found))
  · intro key
    rw [translation_obsolete]
    refine Option.map_congr fun entry found => ?_
    have member := List.mem_reverse.mp (List.mem_of_find?_eq_some found)
    exact single_first (single.translated.obsolete member)

end Catalog

namespace CatalogFiles

/-- Records are merged into the catalog of a locale, one list after another, and obsolete entries are
kept. -/
def mergeAll [Catalog.Codecs] (files : CatalogFiles) (locale : String) :
    FileTree → List (List Record) → Except Catalog.Fault FileTree
  | tree, [] => .ok tree
  | tree, records :: rest => do
    let (_, after) ← files.merge tree locale (uniqueMessages records) false
    files.mergeAll locale after rest

/-- Merges through files make up a run: each loads what the one before has saved. -/
theorem mergeAll_run [Catalog.Codecs] {files : CatalogFiles} {locale : String}
    (named : Header.IsFieldName locale) {lists : List (List Record)} {tree after : FileTree}
    {header : Header} {first catalog : Catalog}
    (loaded : files.load tree locale = .ok (header, catalog))
    (unicode : header.charset.isUtf8 = true) (plain : catalog.Plain)
    (earlier : Catalog.Run first catalog)
    (merged : files.mergeAll locale tree lists = .ok after) :
    ∃ header last, files.load after locale = .ok (header, last) ∧ Catalog.Run first last := by
  induction lists generalizing tree header catalog with
  | nil =>
    cases merged
    exact ⟨header, catalog, loaded, earlier⟩
  | cons records lists ih =>
    rw [mergeAll] at merged
    obtain ⟨⟨counts, next⟩, once, later⟩ := bind_eq_ok.mp merged
    have reloaded := load_merged named loaded unicode plain once
    have single := load_isSingle loaded plain
    have back : Catalog.ReadBack
        (catalog.merge ⟨locale = files.sourceLocale, false⟩ (uniqueMessages records)).1 _ :=
      Catalog.asRead_readBack (Catalog.merge_isSingle _ _ single)
    exact ih reloaded unicode back.plain (.call earlier _ records back) later

end CatalogFiles

end Phrasebook

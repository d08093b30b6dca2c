import Mathlib.Data.Finset.Card
import Phrasebook.Proofs.Catalog.Update
import Phrasebook.Proofs.Extract.Grouping

set_option autoImplicit false

/-!
What records make of a catalog. The statement is about the records themselves: which of them state
a message, where, and with which comment.
-/
namespace Phrasebook.Catalog

open Extract (Record UniqueMessage uniqueMessages)

/-- The key of what a record states. -/
def recordKey (record : Record) : MessageKey := (record.message, record.context)

/-- Where a message is stated. -/
def statedLocations (records : List Record) (key : MessageKey) : List Location :=
  ((records.filter (recordKey · = key)).filterMap (·.origin)).map fun origin =>
    ⟨origin.file, some origin.position.line⟩

/-- The first comment on a message, unless it is empty. -/
def statedComments (records : List Record) (key : MessageKey) : List String :=
  (((records.filter (recordKey · = key)).findSome? (·.comment)).filter (!·.isEmpty)).toList.map
    commentText

/-- The keys of the active entries. -/
def activeKeys (catalog : Catalog) : Finset MessageKey :=
  (catalog.all.map Entry.messageKey).toFinset

def statedKeys (records : List Record) : Finset MessageKey := (records.map recordKey).toFinset

/-- What records make of a catalog: an entry for each message that they state, which keeps the
translation of the active entry of the message or else takes that of the obsolete one. -/
structure Updated (mode : MergeMode) (records : List Record) (before after : Catalog)
    (counts : MergeCounts) : Prop where
  plain : ∀ entry ∈ after.all, entry.isPlain = true
  once : (after.all.map Entry.messageKey).Nodup
  active : activeKeys after = statedKeys records
  kept : ∀ entry ∈ after.all, ∀ former, activeOf before entry.messageKey = some former →
    entry.translation = sourceFilled mode entry.messageKey.1 former.translation ∧
      entry.flags = former.flags ∧
      entry.locations = statedLocations records entry.messageKey
  added : ∀ entry ∈ after.all, activeOf before entry.messageKey = none →
    entry.translation = sourceFilled mode entry.messageKey.1
        (((obsoleteOf before entry.messageKey).map (·.translation)).getD (.single "")) ∧
      entry.locations = distinct (statedLocations records entry.messageKey)
  comments : ∀ entry ∈ after.all, entry.comments = statedComments records entry.messageKey
  obsolete : ∀ key, obsoleteOf after key =
    if mode.isClean then none
    else if key ∈ statedKeys records then
      if (activeOf before key).isNone then none else obsoleteOf before key
    else (activeOf before key).or (obsoleteOf before key)
  counts : counts = ⟨(statedKeys records \ activeKeys before).card,
    (statedKeys records ∩ activeKeys before).card,
    (activeKeys before \ statedKeys records).card⟩

/-- Records of messages whose ids tell them apart. -/
structure Stating (records : List Record) : Prop where
  shown : ∀ record ∈ records, record.message ≠ ""
  proper : ∀ record ∈ records, record.context ≠ some ""
  apart : ∀ record ∈ records, ∀ other ∈ records,
    record.id = other.id ↔ recordKey record = recordKey other

section Records

variable {records : List Record}

/-- The first record of a unique message has its key. -/
theorem exists_record {message : UniqueMessage} (member : message ∈ uniqueMessages records) :
    ∃ record ∈ records, record.id = message.id ∧ recordKey record = uniqueKey message := by
  obtain ⟨record, stated, id, text, context⟩ :=
    ((Extract.uniqueMessages_grouped records).gathered message member).stated
  exact ⟨record, stated, id, Prod.ext text context⟩

/-- If what records state tells their ids, each message is there once. -/
theorem nodup_uniqueKey (told : ∀ record ∈ records, ∀ other ∈ records,
    recordKey record = recordKey other → record.id = other.id) :
    ((uniqueMessages records).map uniqueKey).Nodup := by
  have grouped := Extract.uniqueMessages_grouped records
  refine List.Nodup.map_on (fun message member other otherMember same => ?_)
    (List.Nodup.of_map _ grouped.once)
  obtain ⟨record, stated, id, key⟩ := exists_record member
  obtain ⟨second, secondStated, secondId, secondKey⟩ := exists_record otherMember
  have sameId := told record stated second secondStated (key.trans (same.trans secondKey.symm))
  exact List.inj_on_of_nodup_map grouped.once member otherMember
    (id.symm.trans (sameId.trans secondId))

variable (stating : Stating records)

include stating

theorem mem_keys_iff (key : MessageKey) :
    key ∈ (uniqueMessages records).map uniqueKey ↔ key ∈ records.map recordKey := by
  constructor
  · intro known
    obtain ⟨message, member, rfl⟩ := List.mem_map.mp known
    obtain ⟨record, stated, -, same⟩ := exists_record member
    exact same ▸ List.mem_map_of_mem stated
  · intro known
    obtain ⟨record, stated, rfl⟩ := List.mem_map.mp known
    obtain ⟨message, member, id⟩ := List.mem_map.mp
      ((Extract.uniqueMessages_grouped records).covered record stated)
    obtain ⟨first, firstStated, firstId, same⟩ := exists_record member
    rw [(stating.apart record stated first firstStated).mp (id.symm.trans firstId.symm), same]
    exact List.mem_map_of_mem member

theorem distinct_uniqueMessages : Distinct (uniqueMessages records) where
  once := nodup_uniqueKey fun record stated other otherStated =>
    (stating.apart record stated other otherStated).mpr
  shown message member := by
    obtain ⟨record, stated, -, same⟩ := exists_record member
    have text : record.message = message.message := congrArg Prod.fst same
    exact text ▸ stating.shown record stated
  proper message member := by
    obtain ⟨record, stated, -, same⟩ := exists_record member
    have context : record.context = message.context := congrArg Prod.snd same
    exact context ▸ stating.proper record stated

theorem recordsOf_id {message : UniqueMessage} (member : message ∈ uniqueMessages records) :
    Extract.recordsOf message.id records =
      records.filter (recordKey · = uniqueKey message) := by
  obtain ⟨first, firstStated, id, key⟩ := exists_record member
  refine List.filter_congr fun record stated => decide_eq_decide.mpr ?_
  rw [← id, ← key]
  exact stating.apart record stated first firstStated

theorem locationsOfMessage_eq {message : UniqueMessage}
    (member : message ∈ uniqueMessages records) :
    locationsOfMessage message = statedLocations records (uniqueKey message) := by
  rw [locationsOfMessage,
    ((Extract.uniqueMessages_grouped records).gathered message member).origins,
    recordsOf_id stating member, statedLocations]

theorem commentsOfMessage_eq {message : UniqueMessage}
    (member : message ∈ uniqueMessages records) :
    commentsOfMessage message = statedComments records (uniqueKey message) := by
  rw [commentsOfMessage,
    ((Extract.uniqueMessages_grouped records).gathered message member).comment,
    recordsOf_id stating member, statedComments]

end Records

/-! ### Counts -/

theorem mem_activeKeys {catalog : Catalog} (keyed : catalog.WellKeyed)
    (proper : catalog.ProperContexts) {key : MessageKey} :
    key ∈ activeKeys catalog ↔ (activeOf catalog key).isSome = true := by
  rw [activeKeys, List.mem_toFinset, List.mem_map, Option.isSome_iff_exists]
  exact exists_congr fun entry => (activeOf_eq_some keyed proper).symm

theorem countP_uniqueKey {messages : List UniqueMessage} (distinct : Distinct messages)
    (p : MessageKey → Bool) :
    messages.countP (fun message => p (uniqueKey message)) =
      ((messages.map uniqueKey).toFinset.filter (p · = true)).card := by
  rw [← List.toFinset_filter, List.toFinset_card_of_nodup (distinct.once.filter _),
    List.filter_map, List.length_map, List.countP_eq_length_filter]
  rfl

theorem statedKeys_eq {records : List Record} (stating : Stating records) :
    statedKeys records = ((uniqueMessages records).map uniqueKey).toFinset := by
  ext key
  rw [statedKeys, List.mem_toFinset, List.mem_toFinset, mem_keys_iff stating]

theorem card_unstated {mode : MergeMode} {messages : List UniqueMessage} {catalog : Catalog}
    (distinct : Distinct messages) (orderly : catalog.Orderly) (proper : catalog.ProperContexts) :
    (unstated mode messages catalog).length =
      (activeKeys catalog \ (messages.map uniqueKey).toFinset).card := by
  have keys : activeKeys catalog \ (messages.map uniqueKey).toFinset =
      ((unstated mode messages catalog).map Entry.messageKey).toFinset := by
    ext key
    simp only [activeKeys, Finset.mem_sdiff, List.mem_toFinset]
    constructor
    · rintro ⟨active, unknown⟩
      obtain ⟨entry, old, rfl⟩ := List.mem_map.mp active
      exact List.mem_map_of_mem ((mem_unstated distinct orderly proper).mpr ⟨old, unknown⟩)
    · intro left
      obtain ⟨entry, member, rfl⟩ := List.mem_map.mp left
      obtain ⟨old, unknown⟩ := (mem_unstated distinct orderly proper).mp member
      exact ⟨List.mem_map_of_mem old, unknown⟩
  rw [keys, List.toFinset_card_of_nodup (nodup_unstated distinct orderly proper), List.length_map]

theorem merge_counts {mode : MergeMode} {records : List Record} (stating : Stating records)
    {catalog : Catalog} (orderly : catalog.Orderly) (proper : catalog.ProperContexts) :
    (merge mode (uniqueMessages records) catalog).2 =
      ⟨(statedKeys records \ activeKeys catalog).card,
        (statedKeys records ∩ activeKeys catalog).card,
        (activeKeys catalog \ statedKeys records).card⟩ := by
  have distinct := distinct_uniqueMessages stating
  have added : (uniqueMessages records).countP (fun message =>
      (catalog.get? message.message message.context).isNone) =
      (statedKeys records \ activeKeys catalog).card := by
    simp only [← activeOf_uniqueKey orderly.keyed proper]
    rw [countP_uniqueKey distinct fun key => (activeOf catalog key).isNone, ← statedKeys_eq stating]
    congr 1
    ext key
    rw [Finset.mem_sdiff, mem_activeKeys orderly.keyed proper, Finset.mem_filter,
      Bool.not_eq_true, Option.isSome_eq_false_iff]
  have kept : (uniqueMessages records).countP (fun message =>
      (catalog.get? message.message message.context).isSome) =
      (statedKeys records ∩ activeKeys catalog).card := by
    simp only [← activeOf_uniqueKey orderly.keyed proper]
    rw [countP_uniqueKey distinct fun key => (activeOf catalog key).isSome, ← statedKeys_eq stating]
    congr 1
    ext key
    rw [Finset.mem_inter, mem_activeKeys orderly.keyed proper, Finset.mem_filter]
  rw [merge_eq, foldl_counts distinct.once, card_unstated distinct orderly proper,
    ← statedKeys_eq stating, added, kept, Nat.zero_add, Nat.zero_add]

/-! ### The whole merge -/

section Merged

variable {mode : MergeMode} {records : List Record} {catalog : Catalog} {message : UniqueMessage}

theorem mergedEntry_of_active (orderly : catalog.Orderly) (proper : catalog.ProperContexts)
    {former : Entry} (active : activeOf catalog (uniqueKey message) = some former) :
    mergedEntry mode catalog message = refreshed mode message former := by
  rw [activeOf_uniqueKey orderly.keyed proper] at active
  rw [mergedEntry, active]

theorem mergedEntry_of_not_active (orderly : catalog.Orderly) (proper : catalog.ProperContexts)
    (messageProper : message.context ≠ some "")
    (absent : activeOf catalog (uniqueKey message) = none) :
    mergedEntry mode catalog message =
      newEntry mode message (obsoleteOf catalog (uniqueKey message)) := by
  rw [activeOf_uniqueKey orderly.keyed proper] at absent
  rw [mergedEntry, absent, formerOf_eq orderly.plain orderly.once, properKey_eq messageProper]

theorem mergedEntry_comments : (mergedEntry mode catalog message).comments =
    commentsOfMessage message := by
  rw [mergedEntry]
  split <;> rfl

theorem merge_updated (stating : Stating records) (orderly : catalog.Orderly)
    (proper : catalog.ProperContexts) :
    Updated mode records catalog (merge mode (uniqueMessages records) catalog).1
      (merge mode (uniqueMessages records) catalog).2 := by
  have distinct := distinct_uniqueMessages stating
  have keyOfEntry : ∀ message ∈ uniqueMessages records,
      (mergedEntry mode catalog message).messageKey = uniqueKey message := fun message member =>
    mergedEntry_messageKey orderly.keyed proper (distinct.proper message member)
  have entries : ∀ {entry : Entry}, entry ∈ (merge mode (uniqueMessages records) catalog).1.all ↔
      ∃ message ∈ uniqueMessages records, entry = mergedEntry mode catalog message :=
    mem_merge distinct orderly proper
  have mergedProper : (merge mode (uniqueMessages records) catalog).1.ProperContexts := by
    intro entry member
    obtain ⟨message, known, rfl⟩ := entries.mp member
    exact mergedEntry_proper proper (distinct.proper message known)
  refine ⟨?_, nodup_messageKey (merge_wellKeyed orderly.keyed) mergedProper, ?_, ?_, ?_, ?_, ?_,
    merge_counts stating orderly proper⟩
  · intro entry member
    obtain ⟨message, -, rfl⟩ := entries.mp member
    exact mergedEntry_isPlain orderly.plain message
  · ext key
    rw [statedKeys_eq stating, activeKeys, List.mem_toFinset, List.mem_toFinset, List.mem_map,
      List.mem_map]
    constructor
    · rintro ⟨entry, member, rfl⟩
      obtain ⟨message, known, rfl⟩ := entries.mp member
      exact ⟨message, known, (keyOfEntry message known).symm⟩
    · rintro ⟨message, known, rfl⟩
      exact ⟨_, entries.mpr ⟨message, known, rfl⟩, keyOfEntry message known⟩
  · intro entry member former active
    obtain ⟨message, known, rfl⟩ := entries.mp member
    rw [keyOfEntry message known] at active ⊢
    rw [mergedEntry_of_active orderly proper active, ← locationsOfMessage_eq stating known]
    exact ⟨rfl, rfl, rfl⟩
  · intro entry member absent
    obtain ⟨message, known, rfl⟩ := entries.mp member
    rw [keyOfEntry message known] at absent ⊢
    rw [mergedEntry_of_not_active orderly proper (distinct.proper message known) absent,
      ← locationsOfMessage_eq stating known]
    exact ⟨rfl, rfl⟩
  · intro entry member
    obtain ⟨message, known, rfl⟩ := entries.mp member
    rw [keyOfEntry message known, ← commentsOfMessage_eq stating known]
    exact mergedEntry_comments
  · intro key
    rw [merge_obsoleteOf distinct orderly proper, statedKeys_eq stating]
    simp only [List.mem_toFinset]

end Merged

/-- The record of a text, as a source without a context states it. -/
def bareRecord (text : String) : Record := ⟨text, text, none, none, none⟩

theorem stating_bareRecord {text : String} (shown : text ≠ "") : Stating [bareRecord text] where
  shown := by simpa [bareRecord] using shown
  proper := by simp [bareRecord]
  apart := by simp

/-- An entry with an empty context is not found by its message, yet the message states it. -/
theorem not_updated_of_blank {catalog : Catalog} (orderly : catalog.Orderly) {entry : Entry}
    (member : entry ∈ catalog.all) (blank : entry.context = some "") (mode : MergeMode) :
    Stating [bareRecord entry.id.first] ∧
      ¬Updated mode [bareRecord entry.id.first] catalog
        (merge mode (uniqueMessages [bareRecord entry.id.first]) catalog).1
        (merge mode (uniqueMessages [bareRecord entry.id.first]) catalog).2 := by
  have shown := orderly.keyed.first_ne member (orderly.plain.active entry member)
  have stating := stating_bareRecord shown
  have distinct := distinct_uniqueMessages stating
  refine ⟨stating, fun updated => ?_⟩
  have before := stated_orderly mode distinct orderly
  let message : UniqueMessage := .ofRecord (bareRecord entry.id.first)
  have known : message ∈ uniqueMessages [bareRecord entry.id.first] := List.mem_singleton.mpr rfl
  have stays : ∀ other ∈ (stated mode (uniqueMessages [bareRecord entry.id.first]) catalog).all,
      other.messageKey = (entry.id.first, none) →
        other ∈ (merge mode (uniqueMessages [bareRecord entry.id.first]) catalog).1.all := by
    intro other present own
    rw [merge_all orderly.keyed, List.mem_filter]
    refine ⟨present, ?_⟩
    rw [isStated_iff_of_distinct distinct (before.plain.active other present), own]
    exact List.mem_map_of_mem known
  -- the entry with the empty context
  have entryKey : entry.messageKey = (entry.id.first, none) := by
    rw [Entry.messageKey, blank]
    rfl
  have entryPresent :
      entry ∈ (stated mode (uniqueMessages [bareRecord entry.id.first]) catalog).all := by
    rw [before.keyed.mem_all_iff, stated, foldl_get?_other]
    · exact orderly.keyed.mem_all_iff.mp member
    · intro other otherKnown place
      rw [List.mem_singleton.mp otherKnown, placeOf, Entry.key, keyOf_inj, blank] at place
      cases place.2
  -- the entry that the message itself has or gets
  have merged := foldl_get?_of_mem mode distinct orderly ⟨0, 0, 0⟩ known
  have placed := Dictionary.mem_of_get? merged
  have ownPlace := keyOf_inj.mp (before.keyed.keyed _ placed)
  have mergedKey : (mergedEntry mode catalog message).messageKey = (entry.id.first, none) := by
    rw [Entry.messageKey, ← ownPlace.1, ← ownPlace.2]
    rfl
  have mergedPresent := mem_all.mpr ⟨_, placed⟩
  have same := List.inj_on_of_nodup_map updated.once (stays _ entryPresent entryKey)
    (stays _ mergedPresent mergedKey) (entryKey.trans mergedKey.symm)
  rw [same, ← ownPlace.2] at blank
  cases blank

/-- A merge does what it should for all records just if no active entry of the catalog has an empty
context in place of none. -/
theorem merge_updated_iff {catalog : Catalog} (orderly : catalog.Orderly) :
    (∀ mode records, Stating records →
      Updated mode records catalog (merge mode (uniqueMessages records) catalog).1
        (merge mode (uniqueMessages records) catalog).2) ↔ catalog.ProperContexts := by
  constructor
  · intro always entry member blank
    have failing := not_updated_of_blank orderly member blank ⟨false, false⟩
    exact failing.2 (always _ _ failing.1)
  · intro proper mode records stating
    exact merge_updated stating orderly proper

/-- A translated entry, one without a translation, and an obsolete one. -/
def fruits : Catalog where
  entries := [
    (["apple"], ⟨.single "apple", .single "Apfel", none, [],
      [.fuzzy, ⟨"no-wrap", by decide, by decide, by decide⟩], [], []⟩),
    (["pear", "food"], ⟨.single "pear", .single "", some "food", [], [], [], []⟩)]
  obsolete := [(["plum"], ⟨.single "plum", .single "Pflaume", none, [], [], [], []⟩)]

/-- The obsolete entry is stated again, and one active entry is stated no longer. -/
def fruitRecords : List Record := [
  ⟨"1", "plum", none, none, some ⟨"a.js", ⟨3, 0⟩⟩⟩,
  ⟨"2", "apple", none, none, none⟩,
  ⟨"1", "plum", none, some (Text.CodePoints.ofString "violet"), some ⟨"b.js", ⟨7, 2⟩⟩⟩]

theorem fruits_orderly : fruits.Orderly where
  keyed := ⟨by decide, by decide, by decide, by decide, by decide⟩
  plain := ⟨by decide, by decide⟩
  once := by decide

theorem merge_updated_fruits :
    fruits.Orderly ∧ fruits.ProperContexts ∧ Stating fruitRecords ∧
      Updated ⟨false, false⟩ fruitRecords fruits
        (merge ⟨false, false⟩ (uniqueMessages fruitRecords) fruits).1 ⟨1, 1, 1⟩ := by
  have proper : fruits.ProperContexts := by decide
  have stating : Stating fruitRecords := ⟨by decide, by decide, by decide⟩
  exact ⟨fruits_orderly, proper, stating,
    (merge_updated_iff fruits_orderly).mpr proper ⟨false, false⟩ fruitRecords stating⟩

/-- An entry whose context is written, but empty. -/
def blankContext : Catalog where
  entries := [(["apple", ""], ⟨.single "apple", .single "Apfel", some "", [], [], [], []⟩)]
  obsolete := []

/-- The message of the entry counts as a new one. -/
theorem merge_blankContext :
    blankContext.Orderly ∧ Stating [bareRecord "apple"] ∧
      (merge ⟨false, false⟩ (uniqueMessages [bareRecord "apple"]) blankContext).2 = ⟨1, 0, 0⟩ ∧
      ¬Updated ⟨false, false⟩ [bareRecord "apple"] blankContext
        (merge ⟨false, false⟩ (uniqueMessages [bareRecord "apple"]) blankContext).1
        (merge ⟨false, false⟩ (uniqueMessages [bareRecord "apple"]) blankContext).2 := by
  have orderly : blankContext.Orderly :=
    ⟨⟨by decide, by decide, by decide, by decide, by decide⟩, ⟨by decide, by decide⟩, by decide⟩
  have failing := not_updated_of_blank orderly (List.mem_singleton.mpr rfl) rfl ⟨false, false⟩
  exact ⟨orderly, failing.1, by decide, failing.2⟩

end Phrasebook.Catalog

import Phrasebook.Proofs.Catalog.Merging

set_option autoImplicit false

/-!
No translation is lost while messages come and go: through every merge, a message keeps the
translation that it has, be its entry active or obsolete.
-/
namespace Phrasebook.Catalog

open Extract (Record UniqueMessage uniqueMessages)

/-- A catalog in which no message is active and obsolete at once. -/
structure Separate (catalog : Catalog) : Prop where
  keyed : catalog.WellKeyed
  plain : catalog.Plain
  named : ∀ entry ∈ catalog.allObsolete, entry.isHeader = false
  apart : ∀ key ∈ catalog.all.map Entry.messageKey,
    key ∉ catalog.allObsolete.map Entry.messageKey

/-- The translation that a message has in a catalog, from its active entry if there is one. -/
def translationOf (catalog : Catalog) (key : MessageKey) : Option Wording :=
  ((activeOf catalog key).or (obsoleteOf catalog key)).map (·.translation)

/-- Each message with a translation has it still. -/
def Preserves (before after : Catalog) : Prop :=
  ∀ key translation, translation.isEmpty = false →
    translationOf before key = some translation → translationOf after key = some translation

theorem Preserves.refl (catalog : Catalog) : Preserves catalog catalog := fun _ _ _ has => has

theorem Preserves.trans {first second third : Catalog} (before : Preserves first second)
    (after : Preserves second third) : Preserves first third :=
  fun key translation given has => after key translation given (before key translation given has)

/-- What holds between two messages of a merge. Entries of messages that are stated may stand twice
until the catalog is written, once without a context and once with an empty one. -/
structure Merging (messages : List UniqueMessage) (catalog : Catalog) : Prop
    extends Separate catalog where
  obsoleteOnce : catalog.ObsoleteOnce
  unstatedOnce : ((catalog.all.map Entry.messageKey).filter
    (· ∉ messages.map properKey)).Nodup

section Message

variable {mode : MergeMode} {messages : List UniqueMessage} {catalog : Catalog}
  {message : UniqueMessage} {counts : MergeCounts}

theorem sourceFilled_of_translated {text : String} {translation : Wording}
    (given : translation.isEmpty = false) : sourceFilled mode text translation = translation := by
  simp [sourceFilled, given]

/-- A message that has an entry leaves all keys as they are. -/
theorem merging_of_some (merging : Merging messages catalog) {entry : Entry}
    (found : catalog.get? message.message message.context = some entry) :
    Merging messages (mergeMessage mode (catalog, counts) message).1 := by
  have keyed := mergeMessage_wellKeyed merging.keyed mode message counts
  rw [mergeMessage_of_some found] at keyed ⊢
  obtain ⟨front, back, split, placed⟩ :=
    Dictionary.set_of_get? (refreshed mode message entry) found
  have keys : (Catalog.all { catalog with
      entries := Dictionary.set (keyOf message.message message.context)
        (refreshed mode message entry) catalog.entries }).map Entry.messageKey =
      catalog.all.map Entry.messageKey := by
    rw [Catalog.all, Catalog.all, placed, split]
    simp [Entry.messageKey, refreshed]
  have former : entry.isPlain = true := merging.plain.get? found
  have own : (refreshed mode message entry).isPlain = true := former
  have plain := all_set_plain merging.plain.active own
  refine ⟨⟨keyed, ⟨plain _ _, merging.plain.obsolete⟩, merging.named, ?_⟩,
    merging.obsoleteOnce, ?_⟩
  · rw [keys]
    exact merging.apart
  · rw [keys]
    exact merging.unstatedOnce

theorem preserves_of_some {entry : Entry}
    (found : catalog.get? message.message message.context = some entry) :
    Preserves catalog (mergeMessage mode (catalog, counts) message).1 := by
  obtain ⟨front, back, split, placed⟩ :=
    Dictionary.set_of_get? (refreshed mode message entry) found
  rw [mergeMessage_of_some found, placed]
  intro key translation given has
  simp only [translationOf, activeOf, Catalog.all, split, List.map_append, List.map_cons,
    List.find?_append, List.find?_cons] at has
  simp only [translationOf, activeOf, Catalog.all, List.map_append, List.map_cons,
    List.find?_append, List.find?_cons]
  cases first : (front.map (·.2)).find? (·.messageKey = key) with
  | some other => simpa [first] using has
  | none =>
    by_cases own : entry.messageKey = key
    · have ownRefreshed : (refreshed mode message entry).messageKey = key := own
      obtain rfl : entry.translation = translation := by simpa [first, own] using has
      simp only [ownRefreshed, decide_true, Option.none_or, Option.some_or, Option.map_some]
      exact congrArg some (sourceFilled_of_translated given)
    · have otherRefreshed : (refreshed mode message entry).messageKey ≠ key := own
      simp only [first, own, otherRefreshed, decide_false] at has ⊢
      exact has

/-- The header is no obsolete entry, so nothing is taken for it. -/
theorem mergeMessage_of_header_eq (merging : Merging messages catalog)
    (absent : catalog.get? message.message message.context = none)
    (header : message.message = "") :
    (mergeMessage mode (catalog, counts) message).1 = catalog := by
  rw [mergeMessage_of_header absent header, takeObsolete]
  split
  · rename_i key entry found
    have member := List.mem_map_of_mem (f := fun pair : EntryKey × Entry => pair.2)
      (List.mem_of_find?_eq_some found)
    have own : isOf message.message (properContext message.context) entry = true := by
      simpa using List.find?_some found
    have named := merging.named entry member
    simp only [isOf, header, Bool.and_eq_true, decide_eq_true_eq] at own
    simp [Entry.isHeader, own.1] at named
  · rfl

theorem merging_of_none (merging : Merging messages catalog) (stated : message ∈ messages)
    (absent : catalog.get? message.message message.context = none)
    (shown : message.message ≠ "") :
    Merging messages (mergeMessage mode (catalog, counts) message).1 := by
  have keyed := mergeMessage_wellKeyed merging.keyed mode message counts
  have fewer := takeObsolete_sublist catalog message.message (properContext message.context)
  have taken := mem_takeObsolete merging.keyed merging.plain merging.obsoleteOnce message.message
    (properContext message.context)
  rw [mergeMessage_of_none absent shown] at keyed ⊢
  have appended := Dictionary.set_of_not_mem (newEntry mode message (formerOf catalog message))
    (Dictionary.get?_eq_none.mp absent)
  have keys : (Catalog.all ⟨Dictionary.set (keyOf message.message message.context)
        (newEntry mode message (formerOf catalog message)) catalog.entries,
        (takeObsolete catalog message.message (properContext message.context)).2.obsolete⟩).map
          Entry.messageKey =
      catalog.all.map Entry.messageKey ++ [properKey message] := by
    rw [Catalog.all, Catalog.all, appended]
    simp [Entry.messageKey, newEntry, properKey, Wording.first, Wording.texts]
  refine ⟨⟨keyed, ⟨all_set_plain merging.plain.active rfl _ _, ?_⟩, ?_, ?_⟩, ?_, ?_⟩
  · exact fun other member => merging.plain.obsolete other ((fewer.map _).subset member)
  · exact fun other member => merging.named other ((fewer.map _).subset member)
  · intro key active obsolete
    rw [keys] at active
    rcases List.mem_append.mp active with old | own
    · exact merging.apart key old (((fewer.map _).map _).subset obsolete)
    · obtain ⟨entry, member, rfl⟩ := List.mem_map.mp obsolete
      obtain ⟨place, present⟩ := mem_allObsolete.mp member
      exact ((taken _).mp present).2 (List.mem_singleton.mp own)
  · exact merging.obsoleteOnce.sublist ((fewer.map _).map _)
  · have said : properKey message ∈ messages.map properKey := List.mem_map_of_mem stated
    have dropped : [properKey message].filter (· ∉ messages.map properKey) = [] := by
      rw [List.filter_eq_nil_iff]
      intro key member unsaid
      rw [List.mem_singleton.mp member] at unsaid
      exact of_decide_eq_true unsaid said
    rw [keys, List.filter_append, dropped, List.append_nil]
    exact merging.unstatedOnce

/-- A new entry has the translation of the obsolete entry that it replaces. -/
theorem preserves_of_none (merging : Merging messages catalog)
    (absent : catalog.get? message.message message.context = none)
    (shown : message.message ≠ "") :
    Preserves catalog (mergeMessage mode (catalog, counts) message).1 := by
  have appended := Dictionary.set_of_not_mem (newEntry mode message (formerOf catalog message))
    (Dictionary.get?_eq_none.mp absent)
  have taken := mem_takeObsolete merging.keyed merging.plain merging.obsoleteOnce message.message
    (properContext message.context)
  have fewer := takeObsolete_sublist catalog message.message (properContext message.context)
  have once : ObsoleteOnce
      (takeObsolete catalog message.message (properContext message.context)).2 :=
    merging.obsoleteOnce.sublist ((fewer.map _).map _)
  rw [mergeMessage_of_none absent shown, appended]
  intro key translation given has
  simp only [translationOf, activeOf, Catalog.all, List.map_append, List.find?_append] at has ⊢
  cases active : (catalog.entries.map (·.2)).find? (·.messageKey = key) with
  | some entry => simpa [active] using has
  | none =>
    rw [active, Option.none_or] at has
    obtain ⟨former, found, rfl⟩ := Option.map_eq_some_iff.mp has
    by_cases own : properKey message = key
    · have revived : formerOf catalog message = some former := by
        rw [formerOf_eq merging.plain merging.obsoleteOnce, own, found]
      have filled : (newEntry mode message (some former)).translation = former.translation :=
        sourceFilled_of_translated given
      have newKey : (newEntry mode message (some former)).messageKey = key := own
      simp [revived, newKey, filled]
    · have stays : obsoleteOf ⟨catalog.entries ++ [(keyOf message.message message.context,
            newEntry mode message (formerOf catalog message))],
          (takeObsolete catalog message.message (properContext message.context)).2.obsolete⟩ key =
          some former := by
        obtain ⟨member, formerKey⟩ := (obsoleteOf_eq_some merging.obsoleteOnce).mp found
        obtain ⟨place, present⟩ := mem_allObsolete.mp member
        refine (obsoleteOf_eq_some once).mpr ⟨mem_allObsolete.mpr ⟨place, ?_⟩, formerKey⟩
        exact (taken _).mpr ⟨present, fun same => own (same.symm.trans formerKey)⟩
      have newKey : (newEntry mode message (formerOf catalog message)).messageKey ≠ key := own
      simp [newKey, stays]

/-- One message keeps the invariant and every translation. -/
theorem mergeMessage_merging (merging : Merging messages catalog) (stated : message ∈ messages) :
    Merging messages (mergeMessage mode (catalog, counts) message).1 ∧
      Preserves catalog (mergeMessage mode (catalog, counts) message).1 := by
  cases found : catalog.get? message.message message.context with
  | some entry => exact ⟨merging_of_some merging found, preserves_of_some found⟩
  | none =>
    by_cases header : message.message = ""
    · rw [mergeMessage_of_header_eq merging found header]
      exact ⟨merging, Preserves.refl catalog⟩
    · exact ⟨merging_of_none merging stated found header, preserves_of_none merging found header⟩

end Message

theorem foldl_mergeMessage_merging {mode : MergeMode} {messages : List UniqueMessage}
    {catalog : Catalog} (merging : Merging messages catalog) {left : List UniqueMessage}
    (known : ∀ message ∈ left, message ∈ messages) (counts : MergeCounts) :
    Merging messages (left.foldl (mergeMessage mode) (catalog, counts)).1 ∧
      Preserves catalog (left.foldl (mergeMessage mode) (catalog, counts)).1 := by
  induction left generalizing catalog counts with
  | nil => exact ⟨merging, Preserves.refl catalog⟩
  | cons message left ih =>
    have step : Merging messages (mergeMessage mode (catalog, counts) message).1 ∧
        Preserves catalog (mergeMessage mode (catalog, counts) message).1 :=
      mergeMessage_merging merging (known message (by simp))
    have rest := ih step.1 (fun other member => known other (by simp [member]))
      (mergeMessage mode (catalog, counts) message).2
    exact ⟨rest.1, step.2.trans rest.2⟩

/-! ### One merge -/

/-- A catalog in which each message has one entry, active or obsolete. -/
structure Unambiguous (catalog : Catalog) : Prop extends Separate catalog where
  activeOnce : (catalog.all.map Entry.messageKey).Nodup
  obsoleteOnce : catalog.ObsoleteOnce

theorem Unambiguous.merging {catalog : Catalog} (unambiguous : catalog.Unambiguous)
    (messages : List UniqueMessage) : Merging messages catalog :=
  ⟨unambiguous.toSeparate, unambiguous.obsoleteOnce,
    unambiguous.activeOnce.sublist List.filter_sublist⟩

section Merge

variable {mode : MergeMode} {messages : List UniqueMessage} {catalog : Catalog}

theorem unstated_messageKey (merging : Merging messages (stated mode messages catalog)) :
    (unstated mode messages catalog).map Entry.messageKey =
      ((stated mode messages catalog).all.map Entry.messageKey).filter
        (· ∉ messages.map properKey) := by
  rw [unstated, List.filter_map]
  congr 1
  refine List.filter_congr fun entry member => ?_
  have said := isStated_iff messages (merging.plain.active entry member)
  rw [Bool.eq_iff_iff, Function.comp_apply, decide_eq_true_iff, ← said]
  simp

theorem mem_unstated_iff (merging : Merging messages (stated mode messages catalog))
    {entry : Entry} :
    entry ∈ unstated mode messages catalog ↔
      entry ∈ (stated mode messages catalog).all ∧ entry.messageKey ∉ messages.map properKey := by
  rw [unstated, List.mem_filter]
  refine and_congr_right fun member => ?_
  rw [← isStated_iff messages (merging.plain.active entry member)]
  simp

theorem retired_obsoleteOf (keeps : mode.isClean = false)
    (merging : Merging messages (stated mode messages catalog)) (key : MessageKey) :
    obsoleteOf (retired mode messages catalog) key =
      ((unstated mode messages catalog).find? (·.messageKey = key)).or
        (obsoleteOf (stated mode messages catalog) key) := by
  refine obsoleteOf_foldl_retire keeps ?_ ?_ merging.keyed merging.plain.obsolete ?_ key
  · intro entry member
    exact merging.plain.active entry ((mem_unstated_iff merging).mp member).1
  · rw [unstated_messageKey merging]
    exact merging.unstatedOnce
  · intro entry member
    have active := List.mem_map_of_mem (f := Entry.messageKey)
      ((mem_unstated_iff merging).mp member).1
    rw [List.count_eq_zero_of_not_mem (merging.apart _ active)]
    exact Nat.zero_le 1

/-- Entries that leave keep their translations as obsolete ones. -/
theorem retired_preserves (keeps : mode.isClean = false) (keyed : catalog.WellKeyed)
    (merging : Merging messages (stated mode messages catalog)) :
    Preserves (stated mode messages catalog) (merge mode messages catalog).1 := by
  intro key translation given has
  have same : ∀ entry ∈ (stated mode messages catalog).all, entry.messageKey = key →
      (isStated messages entry = true ↔ key ∈ messages.map properKey) :=
    fun entry member own => own ▸ isStated_iff messages (merging.plain.active entry member)
  by_cases said : key ∈ messages.map properKey
  · have stays : activeOf (merge mode messages catalog).1 key =
        activeOf (stated mode messages catalog) key := by
      rw [activeOf, merge_all keyed, List.find?_filter]
      refine List.find?_congr fun entry member => decide_eq_decide.mpr ?_
      rw [decide_eq_true_iff]
      exact and_iff_right_of_imp fun own => (same entry member own).mpr said
    have none : (unstated mode messages catalog).find? (·.messageKey = key) = none := by
      rw [List.find?_eq_none]
      intro entry member own
      have unsaid := ((mem_unstated_iff merging).mp member).2
      exact unsaid (of_decide_eq_true own ▸ said)
    rw [translationOf, stays, merge_of_keeps keeps, retired_obsoleteOf keeps merging, none,
      Option.none_or]
    exact has
  · have leaves : activeOf (merge mode messages catalog).1 key = none := by
      rw [activeOf, merge_all keyed, List.find?_eq_none]
      intro entry member own
      obtain ⟨present, kept⟩ := List.mem_filter.mp member
      exact said ((same entry present (of_decide_eq_true own)).mp kept)
    have moved : (unstated mode messages catalog).find? (·.messageKey = key) =
        activeOf (stated mode messages catalog) key := by
      rw [unstated, List.find?_filter, activeOf]
      refine List.find?_congr fun entry member => decide_eq_decide.mpr ?_
      rw [decide_eq_true_iff]
      refine and_iff_right_of_imp fun own => ?_
      simpa using mt (same entry member own).mp said
    rw [translationOf, leaves, merge_of_keeps keeps, retired_obsoleteOf keeps merging, moved,
      Option.none_or]
    exact has

theorem mem_foldl_retire_obsolete {entries : List Entry} {catalog : Catalog} {entry : Entry}
    (member : entry ∈ (entries.foldl (retire mode) catalog).allObsolete) :
    entry ∈ catalog.allObsolete ∨ entry ∈ entries := by
  induction entries generalizing catalog with
  | nil => exact .inl member
  | cons first entries ih =>
    rcases ih member with old | later
    · rw [Catalog.allObsolete] at old
      cases keeps : mode.isClean with
      | true =>
        rw [retire_obsolete_of_clean keeps] at old
        exact .inl old
      | false =>
        rw [retire_obsolete keeps] at old
        rcases mem_allObsolete_addObsolete old with rfl | kept
        · exact .inr List.mem_cons_self
        · exact .inl kept
    · exact .inr (List.mem_cons_of_mem _ later)

theorem merge_separate (keyed : catalog.WellKeyed) (keeps : mode.isClean = false)
    (merging : Merging messages (stated mode messages catalog)) :
    Separate (merge mode messages catalog).1 := by
  have active : ∀ entry ∈ (merge mode messages catalog).1.all,
      entry ∈ (stated mode messages catalog).all ∧ isStated messages entry = true := by
    intro entry member
    rwa [merge_all keyed, List.mem_filter] at member
  have obsolete : ∀ entry ∈ (merge mode messages catalog).1.allObsolete,
      entry ∈ (stated mode messages catalog).allObsolete ∨
        entry ∈ unstated mode messages catalog := by
    intro entry member
    rw [merge_of_keeps keeps, retired] at member
    exact mem_foldl_retire_obsolete member
  refine ⟨merge_wellKeyed keyed, ⟨?_, ?_⟩, ?_, ?_⟩
  · exact fun entry member => merging.plain.active entry (active entry member).1
  · intro entry member
    rcases obsolete entry member with old | left
    · exact merging.plain.obsolete entry old
    · exact merging.plain.active entry ((mem_unstated_iff merging).mp left).1
  · intro entry member
    rcases obsolete entry member with old | left
    · exact merging.named entry old
    · obtain ⟨place, present⟩ := mem_all.mp ((mem_unstated_iff merging).mp left).1
      exact merging.keyed.shown _ present
  · intro key stays leaves
    obtain ⟨entry, member, rfl⟩ := List.mem_map.mp stays
    obtain ⟨other, otherMember, same⟩ := List.mem_map.mp leaves
    obtain ⟨present, said⟩ := active entry member
    rcases obsolete other otherMember with old | left
    · exact merging.apart _ (List.mem_map_of_mem present) (same ▸ List.mem_map_of_mem old)
    · have known := (isStated_iff messages (merging.plain.active entry present)).mp said
      exact ((mem_unstated_iff merging).mp left).2 (same ▸ known)

theorem merge_preserves (unambiguous : catalog.Unambiguous) (keeps : mode.isClean = false) :
    Preserves catalog (merge mode messages catalog).1 ∧
      Separate (merge mode messages catalog).1 := by
  have within : Merging messages (stated mode messages catalog) ∧
      Preserves catalog (stated mode messages catalog) :=
    foldl_mergeMessage_merging (unambiguous.merging messages) (fun _ known => known) _
  exact ⟨within.2.trans (retired_preserves keeps unambiguous.keyed within.1),
    merge_separate unambiguous.keyed keeps within.1⟩

end Merge

/-! ### Runs -/

/-- What a catalog is read as from the file that it has been written to: texts are as they were, an
empty context is none, and of two active entries of a message the first one counts. -/
structure ReadBack (written read : Catalog) : Prop where
  keyed : read.WellKeyed
  plain : read.Plain
  proper : read.ProperContexts
  obsoleteProper : ∀ entry ∈ read.allObsolete, entry.context ≠ some ""
  active : ∀ key, (activeOf read key).map (·.translation) =
    (activeOf written key).map (·.translation)
  obsolete : ∀ key, (obsoleteOf read key).map (·.translation) =
    (obsoleteOf written key).map (·.translation)

theorem isSome_activeOf {catalog : Catalog} {key : MessageKey} :
    (activeOf catalog key).isSome = true ↔ key ∈ catalog.all.map Entry.messageKey := by
  simp [activeOf]

theorem isSome_obsoleteOf {catalog : Catalog} {key : MessageKey} :
    (obsoleteOf catalog key).isSome = true ↔ key ∈ catalog.allObsolete.map Entry.messageKey := by
  simp [obsoleteOf]

section ReadBack

variable {written read : Catalog} (back : ReadBack written read)

include back

theorem ReadBack.preserves : Preserves written read := by
  intro key translation given has
  rw [translationOf, Option.map_or, back.active, back.obsolete, ← Option.map_or]
  exact has

theorem ReadBack.mem_active {key : MessageKey} :
    key ∈ read.all.map Entry.messageKey ↔ key ∈ written.all.map Entry.messageKey := by
  rw [← isSome_activeOf, ← isSome_activeOf, ← Option.isSome_map, back.active, Option.isSome_map]

theorem ReadBack.mem_obsolete {key : MessageKey} :
    key ∈ read.allObsolete.map Entry.messageKey ↔
      key ∈ written.allObsolete.map Entry.messageKey := by
  rw [← isSome_obsoleteOf, ← isSome_obsoleteOf, ← Option.isSome_map, back.obsolete,
    Option.isSome_map]

theorem ReadBack.unambiguous (separate : Separate written) : read.Unambiguous := by
  refine ⟨⟨back.keyed, back.plain, ?_, ?_⟩, nodup_messageKey back.keyed back.proper, ?_⟩
  · intro entry member
    obtain ⟨written, present, same⟩ :=
      List.mem_map.mp (back.mem_obsolete.mp (List.mem_map_of_mem member))
    have shown := separate.named written present
    have spelled := Entry.id_of_isPlain (separate.plain.obsolete written present)
    have text : written.id.first = entry.id.first := congrArg Prod.fst same
    rw [Entry.isHeader, Entry.id_of_isPlain (back.plain.obsolete entry member), ← text, ← spelled]
    exact shown
  · intro key active obsolete
    exact separate.apart key (back.mem_active.mp active) (back.mem_obsolete.mp obsolete)
  · refine nodup_of_keys back.keyed.obsoleteOnce fun pair member => ?_
    have present := List.mem_map_of_mem (f := fun pair : EntryKey × Entry => pair.2) member
    rcases back.keyed.obsoleteKeyed pair member with own | own
    · rw [own, Entry.key_eq (back.obsoleteProper _ present)]
    · rw [own, Entry.obsoleteKey_of_isPlain (back.plain.obsolete _ present)]

end ReadBack

/-- A run of merges, each of a catalog that is read from its file and written to it again. -/
inductive Run (first : Catalog) : Catalog → Prop
  | start : Run first first
  | call {before read : Catalog} (earlier : Run first before) (isSource : Bool)
      (records : List Record)
      (back : ReadBack (merge ⟨isSource, false⟩ (uniqueMessages records) before).1 read) :
      Run first read

theorem Run.preserves {first last : Catalog} (run : Run first last)
    (unambiguous : first.Unambiguous) : Preserves first last ∧ last.Unambiguous := by
  induction run with
  | start => exact ⟨Preserves.refl first, unambiguous⟩
  | @call before read earlier isSource records back ih =>
    obtain ⟨merged, separate⟩ : Preserves before (merge ⟨isSource, false⟩ _ before).1 ∧
        Separate (merge ⟨isSource, false⟩ (uniqueMessages records) before).1 :=
      merge_preserves ih.2 rfl
    exact ⟨(ih.1.trans merged).trans back.preserves, back.unambiguous separate⟩

/-- A catalog has an entry for the message of a given entry, with the same translation. -/
def Keeps (catalog : Catalog) (entry : Entry) : Prop :=
  ∃ kept ∈ catalog.all ++ catalog.allObsolete,
    kept.messageKey = entry.messageKey ∧ kept.translation = entry.translation

instance (catalog : Catalog) (entry : Entry) : Decidable (catalog.Keeps entry) :=
  inferInstanceAs (Decidable (∃ kept ∈ catalog.all ++ catalog.allObsolete, _ ∧ _))

theorem Unambiguous.translationOf_eq {catalog : Catalog} (unambiguous : catalog.Unambiguous)
    {entry : Entry} (member : entry ∈ catalog.all ++ catalog.allObsolete) :
    translationOf catalog entry.messageKey = some entry.translation := by
  rcases List.mem_append.mp member with active | obsolete
  · have found : activeOf catalog entry.messageKey = some entry :=
      (find?_messageKey unambiguous.activeOnce).mpr ⟨active, rfl⟩
    rw [translationOf, found]
    rfl
  · have found := (obsoleteOf_eq_some unambiguous.obsoleteOnce).mpr ⟨obsolete, rfl⟩
    have absent : activeOf catalog entry.messageKey = none := by
      rw [← Option.not_isSome_iff_eq_none, isSome_activeOf]
      exact fun active => unambiguous.apart _ active (List.mem_map_of_mem obsolete)
    rw [translationOf, absent, found]
    rfl

theorem keeps_of_translationOf {catalog : Catalog} {entry : Entry}
    (has : translationOf catalog entry.messageKey = some entry.translation) :
    catalog.Keeps entry := by
  obtain ⟨kept, found, same⟩ := Option.map_eq_some_iff.mp has
  rcases Option.or_eq_some_iff.mp found with active | ⟨-, obsolete⟩
  · have own : kept.messageKey = entry.messageKey := by simpa using List.find?_some active
    exact ⟨kept, List.mem_append_left _ (List.mem_of_find?_eq_some active), own, same⟩
  · have own : kept.messageKey = entry.messageKey := by simpa using List.find?_some obsolete
    have member := List.mem_reverse.mp (List.mem_of_find?_eq_some obsolete)
    exact ⟨kept, List.mem_append_right _ member, own, same⟩

/-- Whatever messages are stated in a run of merges, and in whatever order, an entry with a
translation keeps it, in the catalog that is read next and in the one that a further merge makes. -/
theorem run_keeps {first last : Catalog} (run : Run first last) (unambiguous : first.Unambiguous)
    {entry : Entry} (member : entry ∈ first.all ++ first.allObsolete)
    (given : entry.translation.isEmpty = false) :
    last.Keeps entry ∧ ∀ isSource records,
      Keeps (merge ⟨isSource, false⟩ (uniqueMessages records) last).1 entry := by
  have has := unambiguous.translationOf_eq member
  obtain ⟨preserved, stillUnambiguous⟩ := run.preserves unambiguous
  have now := preserved _ _ given has
  refine ⟨keeps_of_translationOf now, fun isSource records => ?_⟩
  exact keeps_of_translationOf ((merge_preserves stillUnambiguous rfl).1 _ _ given now)

/-- A translated entry and an obsolete one. -/
def colours : Catalog where
  entries := [(["red", "wine"], ⟨.single "red", .single "rouge", some "wine", [], [], [], []⟩)]
  obsolete := [(["blue"], ⟨.single "blue", .single "bleu", none, [], [], [], []⟩)]

/-- Nothing is stated at first, so that all entries become obsolete. -/
def coloursLater : Catalog := (merge ⟨true, false⟩ (uniqueMessages []) colours).1

theorem colours_unambiguous : colours.Unambiguous where
  keyed := ⟨by decide, by decide, by decide, by decide, by decide⟩
  plain := ⟨by decide, by decide⟩
  named := by decide
  apart := by decide
  activeOnce := by decide
  obsoleteOnce := by decide

theorem coloursLater_readBack : ReadBack coloursLater coloursLater where
  keyed := merge_wellKeyed colours_unambiguous.keyed
  plain := ⟨by decide, by decide⟩
  proper := by decide
  obsoleteProper := by decide
  active _ := rfl
  obsolete _ := rfl

theorem run_keeps_colours :
    Run colours coloursLater ∧ colours.Unambiguous ∧
      ∃ entry ∈ colours.all ++ colours.allObsolete,
        entry.translation.isEmpty = false ∧ coloursLater.Keeps entry ∧
          Keeps (merge ⟨true, false⟩ (uniqueMessages [⟨"1", "blue", none, none, none⟩])
            coloursLater).1 entry := by
  have run : Run colours coloursLater := .call .start true [] coloursLater_readBack
  have member : (⟨.single "blue", .single "bleu", none, [], [], [], []⟩ : Entry) ∈
      colours.all ++ colours.allObsolete := by decide
  have kept := run_keeps run colours_unambiguous member rfl
  exact ⟨run, colours_unambiguous, _, member, rfl, kept.1, kept.2 true _⟩

/-- Two active entries of one message: a written context that is empty, and none. -/
def twins : Catalog where
  entries := [
    (["red", ""], ⟨.single "red", .single "rouge", some "", [], [], [], []⟩),
    (["red"], ⟨.single "red", .single "", none, [], [], [], []⟩)]
  obsolete := []

/-- An obsolete entry with the empty text, which is that of the header. -/
def obsoleteHeader : Catalog where
  entries := []
  obsolete := [([""], ⟨.single "", .single "rouge", none, [], [], [], []⟩)]

/-- As obsolete entries the twins would have one key, and the second one stays. A message that is
empty takes the obsolete entry, but is never stored. -/
theorem twins_and_header_lose :
    (twins.WellKeyed ∧ twins.Plain ∧ twins.allObsolete = [] ∧
      ∃ entry ∈ twins.all, entry.translation.isEmpty = false ∧
        ¬Keeps (merge ⟨false, false⟩ (uniqueMessages []) twins).1 entry) ∧
    (obsoleteHeader.WellKeyed ∧ obsoleteHeader.Plain ∧ obsoleteHeader.all = [] ∧
      ∃ entry ∈ obsoleteHeader.allObsolete, entry.translation.isEmpty = false ∧
        ¬Keeps (merge ⟨false, false⟩ (uniqueMessages [⟨"1", "", none, none, none⟩])
          obsoleteHeader).1 entry) := by
  refine ⟨⟨⟨?_, ?_, ?_, ?_, ?_⟩, ⟨?_, ?_⟩, rfl, ?_⟩, ⟨⟨?_, ?_, ?_, ?_, ?_⟩, ⟨?_, ?_⟩, rfl, ?_⟩⟩
  all_goals decide

end Phrasebook.Catalog

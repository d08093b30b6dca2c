import Phrasebook.Proofs.Catalog.Merging

set_option autoImplicit false

/-!
A whole merge, message by message and then entry by entry: what each key finds afterwards, and how
many entries there are of each kind.
-/
namespace Phrasebook.Catalog

open Extract (UniqueMessage)

def uniqueKey (message : UniqueMessage) : MessageKey := (message.message, message.context)

theorem properKey_eq {message : UniqueMessage} (proper : message.context ≠ some "") :
    properKey message = uniqueKey message := by
  rw [properKey, properContext_eq_self proper, uniqueKey]

/-- The place of the entry of a message. -/
def placeOf (message : UniqueMessage) : EntryKey := keyOf message.message message.context

/-- Keys without a redundant context stand for one place each. -/
theorem placeOf_inj {message other : UniqueMessage} :
    placeOf message = placeOf other ↔ uniqueKey message = uniqueKey other := by
  rw [placeOf, placeOf, keyOf_inj, uniqueKey, uniqueKey, Prod.mk.injEq]

/-- A catalog that messages are merged into: no message has two obsolete entries. -/
structure Orderly (catalog : Catalog) : Prop where
  keyed : catalog.WellKeyed
  plain : catalog.Plain
  once : catalog.ObsoleteOnce

/-- The entry of a message after the merge. -/
def mergedEntry (mode : MergeMode) (catalog : Catalog) (message : UniqueMessage) : Entry :=
  match catalog.get? message.message message.context with
  | some entry => refreshed mode message entry
  | none => newEntry mode message (formerOf catalog message)

section Step

variable {mode : MergeMode} {catalog : Catalog} {counts : MergeCounts} {message : UniqueMessage}

theorem mergeMessage_get?_self (shown : message.message ≠ "") :
    Dictionary.get? (placeOf message) (mergeMessage mode (catalog, counts) message).1.entries =
      some (mergedEntry mode catalog message) := by
  rw [mergedEntry]
  cases found : catalog.get? message.message message.context with
  | some entry =>
    rw [mergeMessage_of_some found]
    exact Dictionary.get?_set_self ..
  | none =>
    rw [mergeMessage_of_none found shown]
    exact Dictionary.get?_set_self ..

theorem mergeMessage_get?_ne {key : EntryKey} (apart : placeOf message ≠ key) :
    Dictionary.get? key (mergeMessage mode (catalog, counts) message).1.entries =
      Dictionary.get? key catalog.entries := by
  cases found : catalog.get? message.message message.context with
  | some entry =>
    rw [mergeMessage_of_some found]
    exact Dictionary.get?_set_ne _ _ (Ne.symm apart)
  | none =>
    by_cases header : message.message = ""
    · rw [mergeMessage_of_header found header, takeObsolete_entries]
    · rw [mergeMessage_of_none found header]
      exact Dictionary.get?_set_ne _ _ (Ne.symm apart)

/-- What another message finds stays as it is. -/
theorem mergeMessage_get?_later {other : UniqueMessage}
    (apart : uniqueKey message ≠ uniqueKey other) :
    (mergeMessage mode (catalog, counts) message).1.get? other.message other.context =
      catalog.get? other.message other.context :=
  mergeMessage_get?_ne fun same => apart (placeOf_inj.mp same)

theorem mergeMessage_counts : (mergeMessage mode (catalog, counts) message).2 =
    ⟨counts.added + if (catalog.get? message.message message.context).isNone then 1 else 0,
      counts.kept + if (catalog.get? message.message message.context).isSome then 1 else 0,
      counts.retired⟩ := by
  cases found : catalog.get? message.message message.context with
  | some entry =>
    rw [mergeMessage_of_some found]
    rfl
  | none =>
    by_cases header : message.message = ""
    · rw [mergeMessage_of_header found header]
      rfl
    · rw [mergeMessage_of_none found header]
      rfl

/-- A message that had no entry takes its obsolete entry away, and no other one. -/
theorem mem_mergeMessage_obsolete (orderly : catalog.Orderly) (shown : message.message ≠ "")
    (proper : message.context ≠ some "") (pair : EntryKey × Entry) :
    pair ∈ (mergeMessage mode (catalog, counts) message).1.obsolete ↔
      pair ∈ catalog.obsolete ∧ (catalog.get? message.message message.context = none →
        pair.2.messageKey ≠ uniqueKey message) := by
  cases found : catalog.get? message.message message.context with
  | some entry =>
    rw [mergeMessage_of_some found]
    simp
  | none =>
    rw [mergeMessage_of_none found shown]
    have taken := mem_takeObsolete orderly.keyed orderly.plain orderly.once message.message
      (properContext message.context) pair
    rw [properContext_eq_self proper] at taken ⊢
    simpa [uniqueKey] using taken

theorem mergeMessage_orderly (orderly : catalog.Orderly) (shown : message.message ≠ "") :
    (mergeMessage mode (catalog, counts) message).1.Orderly := by
  have keyed := mergeMessage_wellKeyed orderly.keyed mode message counts
  cases found : catalog.get? message.message message.context with
  | some entry =>
    rw [mergeMessage_of_some found] at keyed ⊢
    have former : entry.isPlain = true := orderly.plain.get? found
    have own : (refreshed mode message entry).isPlain = true := former
    exact ⟨keyed, ⟨all_set_plain orderly.plain.active own _ _, orderly.plain.obsolete⟩,
      orderly.once⟩
  | none =>
    have fewer := takeObsolete_sublist catalog message.message (properContext message.context)
    rw [mergeMessage_of_none found shown] at keyed ⊢
    refine ⟨keyed, ⟨all_set_plain orderly.plain.active rfl _ _, ?_⟩, ?_⟩
    · intro other member
      exact orderly.plain.obsolete other ((fewer.map _).subset member)
    · exact orderly.once.sublist ((fewer.map _).map _)

theorem mergeMessage_obsoleteOf (orderly : catalog.Orderly) (shown : message.message ≠ "")
    (proper : message.context ≠ some "") (key : MessageKey) :
    obsoleteOf (mergeMessage mode (catalog, counts) message).1 key =
      if uniqueKey message = key ∧ catalog.get? message.message message.context = none then none
      else obsoleteOf catalog key := by
  ext entry
  rw [obsoleteOf_eq_some (mergeMessage_orderly orderly shown).once, mem_allObsolete]
  simp only [mem_mergeMessage_obsolete orderly shown proper]
  split
  · rename_i taken
    simp only [reduceCtorEq, iff_false]
    rintro ⟨⟨place, -, apart⟩, own⟩
    exact apart taken.2 (own.trans taken.1.symm)
  · rename_i untaken
    rw [obsoleteOf_eq_some orderly.once, mem_allObsolete]
    constructor
    · rintro ⟨⟨place, member, -⟩, own⟩
      exact ⟨⟨place, member⟩, own⟩
    · rintro ⟨⟨place, member⟩, own⟩
      exact ⟨⟨place, member, fun absent same => untaken ⟨same.symm.trans own, absent⟩⟩, own⟩

end Step

/-- Messages that a merge tells apart. -/
structure Distinct (messages : List UniqueMessage) : Prop where
  once : (messages.map uniqueKey).Nodup
  shown : ∀ message ∈ messages, message.message ≠ ""
  proper : ∀ message ∈ messages, message.context ≠ some ""

theorem Distinct.tail {message : UniqueMessage} {messages : List UniqueMessage}
    (distinct : Distinct (message :: messages)) : Distinct messages where
  once := (List.nodup_cons.mp distinct.once).2
  shown other member := distinct.shown other (List.mem_cons_of_mem _ member)
  proper other member := distinct.proper other (List.mem_cons_of_mem _ member)

theorem Distinct.apart {message : UniqueMessage} {messages : List UniqueMessage}
    (distinct : Distinct (message :: messages)) {other : UniqueMessage}
    (member : other ∈ messages) :
    uniqueKey message ≠ uniqueKey other := fun same =>
  (List.nodup_cons.mp distinct.once).1 (same ▸ List.mem_map_of_mem member)

section Run

variable {mode : MergeMode} {messages : List UniqueMessage}

theorem foldl_get?_other (catalog : Catalog) (counts : MergeCounts) {key : EntryKey}
    (apart : ∀ message ∈ messages, placeOf message ≠ key) :
    Dictionary.get? key (messages.foldl (mergeMessage mode) (catalog, counts)).1.entries =
      Dictionary.get? key catalog.entries := by
  induction messages generalizing catalog counts with
  | nil => rfl
  | cons message messages ih =>
    rw [List.foldl_cons, ih _ _ fun other member => apart other (List.mem_cons_of_mem _ member)]
    exact mergeMessage_get?_ne (apart message List.mem_cons_self)

/-- What becomes of a message does not depend on the messages before it. -/
theorem mergedEntry_step {catalog : Catalog} (orderly : catalog.Orderly) {counts : MergeCounts}
    {message : UniqueMessage} (distinct : Distinct (message :: messages)) {other : UniqueMessage}
    (member : other ∈ messages) :
    mergedEntry mode (mergeMessage mode (catalog, counts) message).1 other =
      mergedEntry mode catalog other := by
  have shown := distinct.shown message (by simp)
  have proper := distinct.proper message (by simp)
  have otherProper := distinct.proper other (by simp [member])
  have sameFormer : formerOf (mergeMessage mode (catalog, counts) message).1 other =
      formerOf catalog other := by
    have after : (mergeMessage mode (catalog, counts) message).1.Orderly :=
      mergeMessage_orderly orderly shown
    rw [formerOf_eq after.plain after.once, formerOf_eq orderly.plain orderly.once,
      properKey_eq otherProper, mergeMessage_obsoleteOf orderly shown proper,
      if_neg fun taken => distinct.apart member taken.1]
  rw [mergedEntry, mergedEntry, mergeMessage_get?_later (distinct.apart member), sameFormer]

theorem foldl_get?_of_mem (mode : MergeMode) (distinct : Distinct messages) {catalog : Catalog}
    (orderly : catalog.Orderly) (counts : MergeCounts) {message : UniqueMessage}
    (member : message ∈ messages) :
    Dictionary.get? (placeOf message)
        (messages.foldl (mergeMessage mode) (catalog, counts)).1.entries =
      some (mergedEntry mode catalog message) := by
  induction messages generalizing catalog counts with
  | nil => simp at member
  | cons first messages ih =>
    have shown := distinct.shown first (by simp)
    rw [List.foldl_cons]
    rcases List.mem_cons.mp member with rfl | later
    · rw [foldl_get?_other]
      · exact mergeMessage_get?_self shown
      · exact fun other present same =>
          distinct.apart present (placeOf_inj.mp same).symm
    · rw [← mergedEntry_step orderly distinct later]
      exact ih distinct.tail (mergeMessage_orderly orderly shown) _ later

theorem foldl_obsoleteOf (distinct : Distinct messages) {catalog : Catalog}
    (orderly : catalog.Orderly) (counts : MergeCounts) (key : MessageKey) :
    obsoleteOf (messages.foldl (mergeMessage mode) (catalog, counts)).1 key =
      if ∃ message ∈ messages, uniqueKey message = key ∧
          catalog.get? message.message message.context = none then none
      else obsoleteOf catalog key := by
  induction messages generalizing catalog counts with
  | nil => simp
  | cons first messages ih =>
    have shown := distinct.shown first (by simp)
    have later : (∃ message ∈ messages, uniqueKey message = key ∧
        (mergeMessage mode (catalog, counts) first).1.get? message.message message.context = none) ↔
        ∃ message ∈ messages, uniqueKey message = key ∧
          catalog.get? message.message message.context = none :=
      exists_congr fun message => and_congr_right fun member => by
        rw [mergeMessage_get?_later (distinct.apart member)]
    rw [List.foldl_cons, ih distinct.tail (mergeMessage_orderly orderly shown),
      mergeMessage_obsoleteOf orderly shown (distinct.proper first (by simp))]
    simp only [later, List.mem_cons, exists_eq_or_imp]
    by_cases taken : uniqueKey first = key ∧ catalog.get? first.message first.context = none
    · simp [taken]
    · simp only [taken, false_or, if_false]

theorem foldl_counts (once : (messages.map uniqueKey).Nodup) (catalog : Catalog)
    (counts : MergeCounts) :
    (messages.foldl (mergeMessage mode) (catalog, counts)).2 =
      ⟨counts.added + messages.countP fun message =>
          (catalog.get? message.message message.context).isNone,
        counts.kept + messages.countP fun message =>
          (catalog.get? message.message message.context).isSome,
        counts.retired⟩ := by
  induction messages generalizing catalog counts with
  | nil => rfl
  | cons first messages ih =>
    rw [List.map_cons, List.nodup_cons] at once
    have later : ∀ other ∈ messages,
        (mergeMessage mode (catalog, counts) first).1.get? other.message other.context =
          catalog.get? other.message other.context := fun other member =>
      mergeMessage_get?_later fun same => once.1 (same ▸ List.mem_map_of_mem member)
    have none : ∀ other ∈ messages,
        ((mergeMessage mode (catalog, counts) first).1.get? other.message other.context).isNone ↔
          (catalog.get? other.message other.context).isNone := fun other member => by
      rw [later other member]
    have some : ∀ other ∈ messages,
        ((mergeMessage mode (catalog, counts) first).1.get? other.message other.context).isSome ↔
          (catalog.get? other.message other.context).isSome := fun other member => by
      rw [later other member]
    rw [List.foldl_cons, ← Prod.eta (mergeMessage mode (catalog, counts) first), ih once.2,
      List.countP_congr none, List.countP_congr some, List.countP_cons, List.countP_cons,
      mergeMessage_counts]
    simp only [MergeCounts.mk.injEq, and_true]
    omega

theorem foldl_orderly (distinct : Distinct messages) {catalog : Catalog}
    (orderly : catalog.Orderly) (counts : MergeCounts) :
    (messages.foldl (mergeMessage mode) (catalog, counts)).1.Orderly := by
  induction messages generalizing catalog counts with
  | nil => exact orderly
  | cons first messages ih =>
    exact ih distinct.tail (mergeMessage_orderly orderly (distinct.shown first (by simp))) _

end Run

/-! ### Keys without redundant contexts -/

theorem Entry.key_eq_placeOf {entry : Entry} (proper : entry.context ≠ some "")
    {message : UniqueMessage} :
    entry.key = placeOf message ↔ entry.messageKey = uniqueKey message := by
  rw [Entry.key_eq proper, placeOf, keyOf_inj, uniqueKey, Prod.ext_iff]

theorem activeOf_eq_some {catalog : Catalog} (keyed : catalog.WellKeyed)
    (proper : catalog.ProperContexts) {key : MessageKey} {entry : Entry} :
    activeOf catalog key = some entry ↔ entry ∈ catalog.all ∧ entry.messageKey = key :=
  find?_messageKey (nodup_messageKey keyed proper)

theorem activeOf_uniqueKey {catalog : Catalog} (keyed : catalog.WellKeyed)
    (proper : catalog.ProperContexts) (message : UniqueMessage) :
    activeOf catalog (uniqueKey message) = catalog.get? message.message message.context := by
  ext entry
  rw [activeOf_eq_some keyed proper]
  constructor
  · rintro ⟨member, own⟩
    rw [Catalog.get?, ← placeOf, ← (Entry.key_eq_placeOf (proper entry member)).mpr own]
    exact keyed.mem_all_iff.mp member
  · intro found
    have placed := Dictionary.mem_of_get? found
    have member : entry ∈ catalog.all := mem_all.mpr ⟨_, placed⟩
    exact ⟨member, (Entry.key_eq_placeOf (proper entry member)).mp (keyed.keyed _ placed).symm⟩

theorem mergedEntry_messageKey {mode : MergeMode} {catalog : Catalog}
    (keyed : catalog.WellKeyed) (proper : catalog.ProperContexts) {message : UniqueMessage}
    (messageProper : message.context ≠ some "") :
    (mergedEntry mode catalog message).messageKey = uniqueKey message := by
  rw [mergedEntry]
  split
  · rename_i entry found
    rw [← activeOf_uniqueKey keyed proper] at found
    exact ((activeOf_eq_some keyed proper).mp found).2
  · rw [Entry.messageKey, newEntry]
    exact Prod.ext rfl (properContext_eq_self messageProper)

theorem mergedEntry_proper {mode : MergeMode} {catalog : Catalog}
    (proper : catalog.ProperContexts) {message : UniqueMessage}
    (messageProper : message.context ≠ some "") :
    (mergedEntry mode catalog message).context ≠ some "" := by
  rw [mergedEntry]
  split
  · rename_i entry found
    exact proper entry (mem_all.mpr ⟨_, Dictionary.mem_of_get? found⟩)
  · exact messageProper

theorem mergedEntry_isPlain {mode : MergeMode} {catalog : Catalog} (plain : catalog.Plain)
    (message : UniqueMessage) : (mergedEntry mode catalog message).isPlain = true := by
  rw [mergedEntry]
  split
  · rename_i entry found
    have former : entry.isPlain = true := plain.get? found
    exact former
  · rfl

/-! ### The whole merge -/

theorem isStated_iff_of_distinct {messages : List UniqueMessage} (distinct : Distinct messages)
    {entry : Entry} (plain : entry.isPlain = true) :
    isStated messages entry = true ↔ entry.messageKey ∈ messages.map uniqueKey := by
  have same : messages.map properKey = messages.map uniqueKey :=
    List.map_congr_left fun message member => properKey_eq (distinct.proper message member)
  rw [isStated_iff messages plain, same]

section Whole

variable {mode : MergeMode} {messages : List UniqueMessage} {catalog : Catalog}

theorem mem_stated (mode : MergeMode) (distinct : Distinct messages) (orderly : catalog.Orderly)
    (proper : catalog.ProperContexts) {entry : Entry} :
    entry ∈ (stated mode messages catalog).all ↔
      (∃ message ∈ messages, entry = mergedEntry mode catalog message) ∨
        entry ∈ catalog.all ∧ entry.messageKey ∉ messages.map uniqueKey := by
  have after : (stated mode messages catalog).Orderly := foldl_orderly distinct orderly _
  rw [after.keyed.mem_all_iff]
  constructor
  · intro found
    by_cases met : ∃ message ∈ messages, placeOf message = entry.key
    · obtain ⟨message, member, place⟩ := met
      have merged := foldl_get?_of_mem mode distinct orderly ⟨0, 0, 0⟩ member
      rw [place] at merged
      exact .inl ⟨message, member, Option.some.inj (found.symm.trans merged)⟩
    · have apart : ∀ message ∈ messages, placeOf message ≠ entry.key := fun message member place =>
        met ⟨message, member, place⟩
      rw [stated, foldl_get?_other _ _ apart] at found
      have old : entry ∈ catalog.all := orderly.keyed.mem_all_iff.mpr found
      refine .inr ⟨old, fun known => ?_⟩
      obtain ⟨message, member, same⟩ := List.mem_map.mp known
      exact apart message member ((Entry.key_eq_placeOf (proper entry old)).mpr same.symm).symm
  · rintro (⟨message, member, rfl⟩ | ⟨old, unknown⟩)
    · have messageProper := distinct.proper message member
      rw [(Entry.key_eq_placeOf (mergedEntry_proper proper messageProper)).mpr
        (mergedEntry_messageKey orderly.keyed proper messageProper)]
      exact foldl_get?_of_mem mode distinct orderly _ member
    · rw [stated, foldl_get?_other]
      · exact orderly.keyed.mem_all_iff.mp old
      · intro message member place
        have same := (Entry.key_eq_placeOf (proper entry old)).mp place.symm
        exact unknown (same ▸ List.mem_map_of_mem member)

theorem stated_orderly (mode : MergeMode) (distinct : Distinct messages)
    (orderly : catalog.Orderly) :
    (stated mode messages catalog).Orderly := foldl_orderly distinct orderly _

theorem stated_proper (distinct : Distinct messages) (orderly : catalog.Orderly)
    (proper : catalog.ProperContexts) : (stated mode messages catalog).ProperContexts := by
  intro entry member
  rcases (mem_stated mode distinct orderly proper).mp member with ⟨message, known, rfl⟩ | ⟨old, -⟩
  · exact mergedEntry_proper proper (distinct.proper message known)
  · exact proper entry old

theorem mem_unstated (distinct : Distinct messages) (orderly : catalog.Orderly)
    (proper : catalog.ProperContexts) {entry : Entry} :
    entry ∈ unstated mode messages catalog ↔
      entry ∈ catalog.all ∧ entry.messageKey ∉ messages.map uniqueKey := by
  have plain := (stated_orderly mode distinct orderly).plain.active
  rw [unstated, List.mem_filter]
  constructor
  · rintro ⟨member, gone⟩
    rcases (mem_stated mode distinct orderly proper).mp member with ⟨message, known, rfl⟩ | old
    · have own : (mergedEntry mode catalog message).messageKey = uniqueKey message :=
        mergedEntry_messageKey orderly.keyed proper (distinct.proper message known)
      have said := (isStated_iff_of_distinct distinct (plain _ member)).mpr
        (own ▸ List.mem_map_of_mem known)
      simp [said] at gone
    · exact old
  · intro old
    have member := (mem_stated mode distinct orderly proper).mpr (.inr old)
    have unsaid := mt (isStated_iff_of_distinct distinct (plain _ member)).mp old.2
    exact ⟨member, by simpa using unsaid⟩

/-- The entries after a merge are those of the messages. -/
theorem mem_merge (distinct : Distinct messages) (orderly : catalog.Orderly)
    (proper : catalog.ProperContexts) {entry : Entry} :
    entry ∈ (merge mode messages catalog).1.all ↔
      ∃ message ∈ messages, entry = mergedEntry mode catalog message := by
  have plain := (stated_orderly mode distinct orderly).plain.active
  rw [merge_all orderly.keyed, List.mem_filter]
  constructor
  · rintro ⟨member, said⟩
    rcases (mem_stated mode distinct orderly proper).mp member with merged | ⟨-, unknown⟩
    · exact merged
    · exact absurd ((isStated_iff_of_distinct distinct (plain entry member)).mp said) unknown
  · rintro ⟨message, known, rfl⟩
    have member := (mem_stated mode distinct orderly proper).mpr
      (.inl ⟨message, known, rfl⟩)
    refine ⟨member, (isStated_iff_of_distinct distinct (plain _ member)).mpr ?_⟩
    rw [mergedEntry_messageKey orderly.keyed proper (distinct.proper message known)]
    exact List.mem_map_of_mem known

theorem nodup_unstated (distinct : Distinct messages) (orderly : catalog.Orderly)
    (proper : catalog.ProperContexts) :
    ((unstated mode messages catalog).map Entry.messageKey).Nodup :=
  (nodup_messageKey (stated_orderly mode distinct orderly).keyed
    (stated_proper distinct orderly proper)).sublist (List.filter_sublist.map _)

theorem find?_unstated (distinct : Distinct messages) (orderly : catalog.Orderly)
    (proper : catalog.ProperContexts) (key : MessageKey) :
    (unstated mode messages catalog).find? (·.messageKey = key) =
      if key ∈ messages.map uniqueKey then none else activeOf catalog key := by
  ext entry
  rw [find?_messageKey (nodup_unstated distinct orderly proper),
    mem_unstated distinct orderly proper]
  split
  · rename_i known
    simp only [reduceCtorEq, iff_false]
    rintro ⟨⟨-, unknown⟩, rfl⟩
    exact unknown known
  · rename_i unknown
    rw [activeOf_eq_some orderly.keyed proper]
    constructor
    · rintro ⟨⟨old, -⟩, own⟩
      exact ⟨old, own⟩
    · rintro ⟨old, rfl⟩
      exact ⟨⟨old, unknown⟩, rfl⟩

theorem merge_obsoleteOf (distinct : Distinct messages) (orderly : catalog.Orderly)
    (proper : catalog.ProperContexts) (key : MessageKey) :
    obsoleteOf (merge mode messages catalog).1 key =
      if mode.isClean then none
      else if key ∈ messages.map uniqueKey then
        if (activeOf catalog key).isNone then none else obsoleteOf catalog key
      else (activeOf catalog key).or (obsoleteOf catalog key) := by
  rw [merge_eq]
  cases keeps : mode.isClean with
  | true => rfl
  | false =>
    have before := stated_orderly mode distinct orderly
    have plain : ∀ entry ∈ unstated mode messages catalog, entry.isPlain = true :=
      fun entry member => before.plain.active entry (List.mem_filter.mp member).1
    have lone : ∀ entry ∈ unstated mode messages catalog,
        ((stated mode messages catalog).allObsolete.map Entry.messageKey).count
          entry.messageKey ≤ 1 :=
      fun entry _ => List.nodup_iff_count_le_one.mp before.once _
    simp only [Bool.false_eq_true, if_false]
    rw [retired, obsoleteOf_foldl_retire keeps plain (nodup_unstated distinct orderly proper)
      before.keyed before.plain.obsolete lone, find?_unstated distinct orderly proper, stated,
      foldl_obsoleteOf distinct orderly]
    by_cases known : key ∈ messages.map uniqueKey
    · have taken : (∃ message ∈ messages, uniqueKey message = key ∧
          catalog.get? message.message message.context = none) ↔
          (activeOf catalog key).isNone = true := by
        constructor
        · rintro ⟨message, -, rfl, absent⟩
          rw [activeOf_uniqueKey orderly.keyed proper, absent]
          rfl
        · intro absent
          obtain ⟨message, member, rfl⟩ := List.mem_map.mp known
          rw [activeOf_uniqueKey orderly.keyed proper, Option.isNone_iff_eq_none] at absent
          exact ⟨message, member, rfl, absent⟩
      simp only [taken, if_pos known, Option.none_or]
    · have untaken : ¬∃ message ∈ messages, uniqueKey message = key ∧
          catalog.get? message.message message.context = none := by
        rintro ⟨message, member, rfl, -⟩
        exact known (List.mem_map_of_mem member)
      rw [if_neg known, if_neg known, if_neg untaken]

end Whole

end Phrasebook.Catalog

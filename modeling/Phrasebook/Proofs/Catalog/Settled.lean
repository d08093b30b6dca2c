import Phrasebook.Proofs.Catalog.Kept
import Phrasebook.Proofs.Catalog.Reread

set_option autoImplicit false

/-!
A merge leaves a catalog in which each message has an entry that says what the message says. After
it has been written and read, a second merge of the messages finds all of them and changes nothing.
-/
namespace Phrasebook.Catalog

open Extract (UniqueMessage)
open Outcome (bind_eq_ok)

/-! ### All entries -/

/-- What is so of all entries, active and obsolete. -/
def Every (holds : Entry → Prop) (catalog : Catalog) : Prop :=
  ∀ entry ∈ catalog.all ++ catalog.allObsolete, holds entry

section Every

variable {holds : Entry → Prop} {catalog : Catalog} (every : catalog.Every holds)

include every

theorem Every.active {entry : Entry} (member : entry ∈ catalog.all) : holds entry :=
  every entry (List.mem_append_left _ member)

theorem Every.obsolete {entry : Entry} (member : entry ∈ catalog.allObsolete) : holds entry :=
  every entry (List.mem_append_right _ member)

theorem Every.set {entry : Entry} (own : holds entry) (key : EntryKey) :
    Every holds { catalog with entries := Dictionary.set key entry catalog.entries } := by
  intro other member
  rcases List.mem_append.mp member with active | obsolete
  · rcases mem_all_set active with rfl | old
    · exact own
    · exact every.active old
  · exact every.obsolete obsolete

theorem Every.addObsolete {entry : Entry} (own : holds entry) (key : EntryKey) :
    (catalog.addObsolete key entry).Every holds := by
  intro other member
  rcases List.mem_append.mp member with active | obsolete
  · exact every.active active
  · rcases mem_allObsolete_addObsolete obsolete with rfl | old
    · exact own
    · exact every.obsolete old

theorem Every.takeObsolete (text : String) (context : Option String) :
    (takeObsolete catalog text context).2.Every holds := by
  intro other member
  rcases List.mem_append.mp member with active | obsolete
  · rw [Catalog.all, takeObsolete_entries] at active
    exact every.active active
  · exact every.obsolete (((takeObsolete_sublist catalog text context).map _).subset obsolete)

end Every

theorem Plain.every {catalog : Catalog} (plain : catalog.Plain) :
    catalog.Every fun entry => entry.isPlain = true := fun entry member =>
  (List.mem_append.mp member).elim (plain.active entry) (plain.obsolete entry)

theorem Every.plain {catalog : Catalog} (every : catalog.Every fun entry => entry.isPlain = true) :
    catalog.Plain := ⟨fun _ => every.active, fun _ => every.obsolete⟩

/-! ### Translations with forms -/

/-- Translations have forms just where the texts that they translate have. -/
def Matched (catalog : Catalog) : Prop :=
  catalog.Every fun entry => entry.translation.isForms = entry.id.isForms

theorem Draft.entry_matched {draft : Draft} (begun : draft.ids ≠ []) {count : Nat} {entry : Entry}
    (made : draft.entry count = .ok entry) : entry.translation.isForms = entry.id.isForms := by
  obtain ⟨translation, stated, done⟩ := bind_eq_ok.mp made
  cases done
  rw [Draft.translation] at stated
  rw [Draft.id]
  split at stated
  · rename_i ids
    obtain ⟨forms, -, done⟩ := bind_eq_ok.mp stated
    cases done
    rw [ids]
    rfl
  · rename_i single
    cases stated
    cases ids : draft.ids with
    | nil => exact absurd ids begun
    | cons first rest =>
      cases rest with
      | nil => rfl
      | cons second rest => exact absurd ids (single first second rest)

theorem Matched.add {catalog : Catalog} (matched : catalog.Matched) {entry : Entry}
    (own : entry.translation.isForms = entry.id.isForms) : (catalog.add entry).Matched := by
  simp only [Catalog.add]
  split
  · rename_i found present
    have former : found.translation.isForms = found.id.isForms :=
      matched.active (mem_all.mpr ⟨_, Dictionary.mem_of_get? present⟩)
    refine matched.set ?_ _
    simp only [Entry.unite]
    split
    · exact own
    · exact former
  · split
    · exact matched
    · exact matched.set own _

theorem read_matched [Codecs] {locale : String} {bytes : List UInt8} {header : Header}
    {catalog : Catalog} (loaded : read locale bytes = .ok (header, catalog)) : catalog.Matched := by
  have ends : IsKept fun catalog _ => catalog.Matched := by
    intro reader last before finished
    simp only [Reader.finish] at finished
    split at finished
    · cases finished
      exact before
    · rename_i begun
      obtain ⟨entry, made, placed⟩ := bind_eq_ok.mp finished
      have own := Draft.entry_matched begun made
      split at placed
      · cases placed
        exact Every.addObsolete before own _
      · split at placed
        · obtain ⟨header, -, done⟩ := bind_eq_ok.mp placed
          cases done
          exact before
        · cases placed
          exact before.add own
  have start : empty.Matched := by
    simp [Matched, Every, Catalog.all, Catalog.allObsolete, empty]
  exact read_keeps ends start loaded

/-! ### Catalogs of single texts -/

/-- Entries of single texts with single translations, under their keys. -/
structure IsSingle (catalog : Catalog) : Prop where
  keyed : catalog.WellKeyed
  plain : catalog.Plain
  translated : catalog.Every fun entry => entry.translation.isForms = false

theorem Matched.isSingle {catalog : Catalog} (matched : catalog.Matched)
    (keyed : catalog.WellKeyed) (plain : catalog.Plain) : catalog.IsSingle where
  keyed := keyed
  plain := plain
  translated entry member := by
    have own : entry.id.isForms = false := by
      simpa [Entry.isPlain] using plain.every entry member
    exact (matched entry member).trans own

theorem single_first {wording : Wording} (single : wording.isForms = false) :
    Wording.single wording.first = wording := by
  cases wording with
  | single text => rfl
  | forms texts => cases single

theorem sourceFilled_isForms (mode : MergeMode) (text : String) {translation : Wording}
    (single : translation.isForms = false) :
    (sourceFilled mode text translation).isForms = false := by
  rw [sourceFilled]
  split
  · rfl
  · exact single

theorem sourceFilled_again (mode : MergeMode) (text : String) (translation : Wording) :
    sourceFilled mode text (sourceFilled mode text translation) =
      sourceFilled mode text translation := by
  by_cases fills : (mode.isSource && translation.isEmpty) = true
  · have filled : sourceFilled mode text translation = .single text := if_pos fills
    rw [filled, sourceFilled]
    split <;> rfl
  · have same : sourceFilled mode text translation = translation := if_neg fills
    rw [same, same]

section Message

variable {mode : MergeMode} {catalog : Catalog} {counts : MergeCounts} {message : UniqueMessage}

theorem formerOf_mem {former : Entry} (found : formerOf catalog message = some former) :
    former ∈ catalog.allObsolete := by
  rw [formerOf, takeObsolete_fst] at found
  exact List.mem_of_find?_eq_some found

theorem mergedEntry_isForms (mode : MergeMode) (single : catalog.IsSingle)
    (message : UniqueMessage) :
    (mergedEntry mode catalog message).translation.isForms = false := by
  rw [mergedEntry]
  split
  · rename_i entry found
    have active : entry ∈ catalog.all := mem_all.mpr ⟨_, Dictionary.mem_of_get? found⟩
    exact sourceFilled_isForms mode _ (single.translated.active active)
  · apply sourceFilled_isForms
    cases found : formerOf catalog message with
    | none => rfl
    | some former =>
      exact single.translated.obsolete (formerOf_mem found)

theorem IsSingle.takeObsolete (single : catalog.IsSingle) (text : String)
    (context : Option String) : (takeObsolete catalog text context).2.IsSingle where
  keyed := takeObsolete_wellKeyed single.keyed text context
  plain := single.plain.every.takeObsolete text context |>.plain
  translated := single.translated.takeObsolete text context

theorem IsSingle.set (single : catalog.IsSingle) {entry : Entry} (shown : entry.isHeader = false)
    (plain : entry.isPlain = true) (translated : entry.translation.isForms = false) :
    IsSingle { catalog with entries := Dictionary.set entry.key entry catalog.entries } where
  keyed := single.keyed.set shown
  plain := single.plain.every.set plain _ |>.plain
  translated := single.translated.set translated _

theorem mergeMessage_isSingle (single : catalog.IsSingle) (message : UniqueMessage) :
    (mergeMessage mode (catalog, counts) message).1.IsSingle := by
  have plain : (mergedEntry mode catalog message).isPlain = true :=
    mergedEntry_isPlain single.plain message
  have translated := mergedEntry_isForms mode single message
  rw [mergedEntry] at plain translated
  cases found : catalog.get? message.message message.context with
  | some entry =>
    rw [found] at plain translated
    have member := Dictionary.mem_of_get? found
    have own : keyOf message.message message.context = entry.key := single.keyed.keyed _ member
    have shown : entry.isHeader = false := single.keyed.shown _ member
    rw [mergeMessage_of_some found, own, ← refreshed_key entry]
    exact single.set shown plain translated
  | none =>
    rw [found] at plain translated
    have taken := single.takeObsolete message.message (properContext message.context)
    by_cases header : message.message = ""
    · rw [mergeMessage_of_header found header]
      exact taken
    · rw [mergeMessage_of_none found header,
        ← takeObsolete_entries catalog message.message (properContext message.context)]
      have shown : (newEntry mode message (formerOf catalog message)).isHeader = false := by
        simp [Entry.isHeader, newEntry, header]
      exact taken.set shown plain translated

end Message

theorem stated_isSingle (mode : MergeMode) (messages : List UniqueMessage) {catalog : Catalog}
    (single : catalog.IsSingle) : (stated mode messages catalog).IsSingle :=
  List.foldlRecOn (motive := fun state : Catalog × MergeCounts => state.1.IsSingle) messages
    (mergeMessage mode) single fun _ before message _ => mergeMessage_isSingle before message

theorem mem_merge_obsolete {mode : MergeMode} {messages : List UniqueMessage} {catalog : Catalog}
    {entry : Entry} (member : entry ∈ (merge mode messages catalog).1.allObsolete) :
    entry ∈ (stated mode messages catalog).all ++ (stated mode messages catalog).allObsolete := by
  cases keeps : mode.isClean with
  | true =>
    rw [merge_eq, keeps] at member
    cases member
  | false =>
    rw [merge_of_keeps keeps] at member
    rcases mem_foldl_retire_obsolete member with old | left
    · exact List.mem_append_right _ old
    · exact List.mem_append_left _ (List.mem_filter.mp left).1

theorem merge_isSingle (mode : MergeMode) (messages : List UniqueMessage) {catalog : Catalog}
    (single : catalog.IsSingle) : (merge mode messages catalog).1.IsSingle := by
  have before := stated_isSingle mode messages single
  have within : ∀ entry ∈ (merge mode messages catalog).1.all ++
      (merge mode messages catalog).1.allObsolete,
      entry ∈ (stated mode messages catalog).all ++ (stated mode messages catalog).allObsolete := by
    intro entry member
    rcases List.mem_append.mp member with active | obsolete
    · rw [merge_all single.keyed] at active
      exact List.mem_append_left _ (List.mem_filter.mp active).1
    · exact mem_merge_obsolete obsolete
  exact ⟨merge_wellKeyed single.keyed,
    Every.plain fun entry member => before.plain.every entry (within entry member),
    fun entry member => before.translated entry (within entry member)⟩

/-! ### What messages leave behind -/

/-- An entry says what a message says. -/
structure IsOwn (mode : MergeMode) (message : UniqueMessage) (entry : Entry) : Prop where
  id : entry.id = .single message.message
  context : entry.context = message.context
  translated : entry.translation.isForms = false
  filled : sourceFilled mode message.message entry.translation = entry.translation
  locations : locationTexts entry.locations = locationTexts (locationsOfMessage message)
  comments : entry.comments = commentsOfMessage message

theorem numbered_locationsOfMessage (message : UniqueMessage) :
    Numbered (locationsOfMessage message) := by
  intro location member
  obtain ⟨origin, -, rfl⟩ := List.mem_map.mp member
  exact ⟨origin.position.line, rfl⟩

theorem mergedEntry_isOwn (mode : MergeMode) {catalog : Catalog} (single : catalog.IsSingle)
    (message : UniqueMessage) : IsOwn mode message (mergedEntry mode catalog message) := by
  have translated := mergedEntry_isForms mode single message
  rw [mergedEntry] at translated ⊢
  split at translated
  · rename_i entry found
    have member := Dictionary.mem_of_get? found
    have own : keyOf message.message message.context = entry.key := single.keyed.keyed _ member
    obtain ⟨text, context⟩ := keyOf_inj.mp own
    have plain := single.plain.active entry (mem_all.mpr ⟨_, member⟩)
    refine ⟨?_, context.symm, translated, sourceFilled_again .., rfl, rfl⟩
    rw [text]
    exact Entry.id_of_isPlain plain
  · exact ⟨rfl, rfl, translated, sourceFilled_again ..,
      locationTexts_distinct (numbered_locationsOfMessage message), rfl⟩

section Run

variable {mode : MergeMode} {messages : List UniqueMessage} {catalog : Catalog}

/-- The entry of each message is made when its turn comes. -/
theorem exists_mergedEntry (mode : MergeMode) (distinct : Distinct messages) (single : catalog.IsSingle)
    (counts : MergeCounts) {message : UniqueMessage} (member : message ∈ messages) :
    ∃ before : Catalog, before.IsSingle ∧
      Dictionary.get? (placeOf message)
          (messages.foldl (mergeMessage mode) (catalog, counts)).1.entries =
        some (mergedEntry mode before message) := by
  induction messages generalizing catalog counts with
  | nil => cases member
  | cons first messages ih =>
    rw [List.foldl_cons]
    rcases List.mem_cons.mp member with rfl | later
    · refine ⟨catalog, single, ?_⟩
      rw [foldl_get?_other]
      · exact mergeMessage_get?_self (distinct.shown message List.mem_cons_self)
      · exact fun other present same => distinct.apart present (placeOf_inj.mp same).symm
    · exact ih distinct.tail (mergeMessage_isSingle single first) _ later

/-- Each message has its entry, and each entry is that of a message. -/
structure IsSettled (mode : MergeMode) (messages : List UniqueMessage) (catalog : Catalog) :
    Prop where
  keyed : catalog.WellKeyed
  owned : ∀ entry ∈ catalog.all, ∃ message ∈ messages, IsOwn mode message entry
  covered : ∀ message ∈ messages, ∃ entry ∈ catalog.all, IsOwn mode message entry

/-- No entry that is stated has an empty context in place of none. -/
def ProperWhereStated (catalog : Catalog) (messages : List UniqueMessage) : Prop :=
  ∀ entry ∈ catalog.all, isStated messages entry = true → entry.context ≠ some ""

/-- An entry that stays is that of a message. -/
theorem merge_owned (distinct : Distinct messages) (single : catalog.IsSingle)
    (proper : catalog.ProperWhereStated messages) {entry : Entry}
    (member : entry ∈ (merge mode messages catalog).1.all) :
    ∃ message ∈ messages, IsOwn mode message entry := by
  have after := stated_isSingle mode messages single
  rw [merge_all single.keyed] at member
  obtain ⟨present, said⟩ := List.mem_filter.mp member
  have found := after.keyed.mem_all_iff.mp present
  by_cases met : ∃ message ∈ messages, placeOf message = entry.key
  · obtain ⟨message, known, place⟩ := met
    obtain ⟨before, fair, merged⟩ := exists_mergedEntry mode distinct single ⟨0, 0, 0⟩ known
    rw [place] at merged
    rw [Option.some.inj (found.symm.trans merged)]
    exact ⟨message, known, mergedEntry_isOwn mode fair message⟩
  · -- an entry of the catalog before, which no message has found, is stated by none
    have apart : ∀ message ∈ messages, placeOf message ≠ entry.key := fun message known place =>
      met ⟨message, known, place⟩
    rw [stated, foldl_get?_other _ _ apart] at found
    have old : entry ∈ catalog.all := single.keyed.mem_all_iff.mpr found
    have plain := after.plain.active entry present
    obtain ⟨message, known, same⟩ :=
      List.mem_map.mp ((isStated_iff_of_distinct distinct plain).mp said)
    exact absurd ((Entry.key_eq_placeOf (proper entry old said)).mpr same.symm).symm
      (apart message known)

/-- The entry of each message stays. -/
theorem merge_covered (distinct : Distinct messages) (single : catalog.IsSingle)
    {message : UniqueMessage} (known : message ∈ messages) :
    ∃ entry ∈ (merge mode messages catalog).1.all, IsOwn mode message entry := by
  have after := stated_isSingle mode messages single
  obtain ⟨before, fair, merged⟩ := exists_mergedEntry mode distinct single ⟨0, 0, 0⟩ known
  have own := mergedEntry_isOwn mode fair message
  have present : mergedEntry mode before message ∈ (stated mode messages catalog).all :=
    mem_all.mpr ⟨_, Dictionary.mem_of_get? merged⟩
  have key : (mergedEntry mode before message).messageKey = uniqueKey message := by
    rw [Entry.messageKey, own.id, own.context,
      properContext_eq_self (distinct.proper message known)]
    rfl
  refine ⟨_, ?_, own⟩
  rw [merge_all single.keyed, List.mem_filter,
    isStated_iff_of_distinct distinct (after.plain.active _ present)]
  exact ⟨present, key ▸ List.mem_map_of_mem known⟩

theorem merge_settled (distinct : Distinct messages) (single : catalog.IsSingle)
    (proper : catalog.ProperWhereStated messages) :
    IsSettled mode messages (merge mode messages catalog).1 where
  keyed := merge_wellKeyed single.keyed
  owned _ member := merge_owned distinct single proper member
  covered _ known := merge_covered distinct single known

end Run

/-! ### A second merge -/

section Own

variable {mode : MergeMode} {message : UniqueMessage} {entry : Entry}

theorem IsOwn.key (own : IsOwn mode message entry) : entry.key = placeOf message := by
  rw [Entry.key, own.id, own.context]
  rfl

theorem IsOwn.key_asRead (own : IsOwn mode message entry) (proper : message.context ≠ some "") :
    entry.asRead.key = placeOf message := by
  simp only [Entry.key, Entry.asRead, own.id, own.context, properContext_eq_self proper]
  rfl

theorem IsOwn.shown_asRead (own : IsOwn mode message entry) (shown : message.message ≠ "") :
    entry.asRead.isHeader = false := by
  have first : entry.id.first = message.message := by
    rw [own.id]
    rfl
  simp [Entry.isHeader, Entry.asRead, first, shown]

end Own

/-- What a message says already makes no difference to its entry. -/
theorem IsOwn.asRead_refreshed {isSource isClean : Bool} {message : UniqueMessage} {entry : Entry}
    (own : IsOwn ⟨isSource, isClean⟩ message entry) (again : Bool) :
    (refreshed ⟨isSource, again⟩ message entry.asRead).asRead = entry.asRead := by
  have single := single_first own.translated
  have filled : sourceFilled ⟨isSource, again⟩ message.message entry.asRead.translation =
      .single entry.translation.first := by
    rw [Entry.asRead, single]
    exact own.filled
  have located : relocated (locationsOfMessage message) = relocated entry.locations :=
    relocated_congr own.locations.symm
  simp only [refreshed, Entry.asRead] at filled ⊢
  rw [filled, located, ← own.comments, refilled_refilled, properContext_properContext,
    orderedFlags_again]
  rfl

/-! ### Reading what has been settled -/

/-- Entries that have no keys in common are added one after another. -/
theorem foldl_add {catalog : Catalog} {entries : List Entry}
    (once : (Dictionary.keys catalog.entries ++ entries.map Entry.key).Nodup)
    (shown : ∀ entry ∈ entries, entry.isHeader = false) :
    entries.foldl Catalog.add catalog =
      { catalog with
        entries := catalog.entries ++ entries.map fun entry => (entry.key, entry) } := by
  induction entries generalizing catalog with
  | nil => simp
  | cons entry entries ih =>
    have fresh : entry.key ∉ Dictionary.keys catalog.entries := fun present =>
      (List.nodup_append.mp once).2.2 _ present _ List.mem_cons_self rfl
    have added : catalog.add entry =
        { catalog with entries := catalog.entries ++ [(entry.key, entry)] } := by
      rw [add_of_none (Dictionary.get?_eq_none.mpr fresh) (shown entry List.mem_cons_self),
        Dictionary.set_of_not_mem _ fresh]
    rw [List.foldl_cons, added, ih]
    · simp
    · simpa [Dictionary.keys] using once
    · exact fun other later => shown other (List.mem_cons_of_mem _ later)

theorem add_obsolete (catalog : Catalog) (entry : Entry) :
    (catalog.add entry).obsolete = catalog.obsolete := by
  simp only [Catalog.add]
  split
  · rfl
  · split <;> rfl

/-- Obsolete entries make no difference to the active ones. -/
theorem asRead_entries (catalog : Catalog) : catalog.asRead.entries =
    ((catalog.all.map Entry.asRead).foldl Catalog.add empty).entries := by
  rw [List.foldl_map]
  exact List.foldlRecOn (motive := fun read : Catalog => read.entries =
    (catalog.all.foldl (fun read entry => read.add entry.asRead) empty).entries)
    catalog.allObsolete _ rfl fun _ same _ _ => same

theorem asRead_obsolete (catalog : Catalog) : catalog.asRead.obsolete =
    Dictionary.ofPairs (catalog.allObsolete.map fun entry =>
      (entry.asReadObsolete.key, entry.asReadObsolete)) := by
  have start : (catalog.all.foldl (fun read entry => read.add entry.asRead) empty).obsolete = [] :=
    List.foldlRecOn (motive := fun read : Catalog => read.obsolete = []) catalog.all _ rfl
      fun read none entry _ => (add_obsolete read entry.asRead).trans none
  rw [Dictionary.ofPairs, List.foldl_map, ← start, asRead]
  generalize catalog.all.foldl (fun read entry => read.add entry.asRead) empty = read
  induction catalog.allObsolete generalizing read with
  | nil => rfl
  | cons entry entries ih => exact ih _

/-- Obsolete entries that have been read are read as they are. -/
theorem IsRead.asRead_obsolete {catalog : Catalog} (read : catalog.IsRead) :
    catalog.asRead.obsolete = catalog.obsolete := by
  have same : (catalog.allObsolete.map fun entry =>
      (entry.asReadObsolete.key, entry.asReadObsolete)) = catalog.obsolete := by
    rw [Catalog.allObsolete, List.map_map]
    refine (List.map_congr_left fun pair member => ?_).trans (List.map_id _)
    obtain ⟨key, fixed⟩ := read.obsolete pair member
    rw [Function.comp_apply, fixed, ← key]
    rfl
  rw [Catalog.asRead_obsolete, same, Dictionary.ofPairs_of_nodup read.keyed.obsoleteOnce]

section Settled

variable {mode : MergeMode} {messages : List UniqueMessage} {catalog : Catalog}

theorem IsSettled.keys_asRead (settled : IsSettled mode messages catalog)
    (distinct : Distinct messages) :
    (catalog.all.map Entry.asRead).map Entry.key = Dictionary.keys catalog.entries := by
  rw [List.map_map, Catalog.all, List.map_map]
  refine List.map_congr_left fun pair member => ?_
  obtain ⟨message, known, own⟩ := settled.owned _ (List.mem_map_of_mem member)
  rw [settled.keyed.keyed pair member, own.key]
  exact own.key_asRead (distinct.proper message known)

/-- No two entries come together when a settled catalog is read. -/
theorem IsSettled.asRead_entries (settled : IsSettled mode messages catalog)
    (distinct : Distinct messages) : catalog.asRead.entries =
      (catalog.all.map Entry.asRead).map fun entry => (entry.key, entry) := by
  rw [Catalog.asRead_entries, foldl_add]
  · rfl
  · rw [settled.keys_asRead distinct]
    exact settled.keyed.once
  · intro entry member
    obtain ⟨former, present, rfl⟩ := List.mem_map.mp member
    obtain ⟨message, known, own⟩ := settled.owned former present
    exact own.shown_asRead (distinct.shown message known)

theorem IsSettled.asRead_all (settled : IsSettled mode messages catalog)
    (distinct : Distinct messages) : catalog.asRead.all = catalog.all.map Entry.asRead := by
  rw [Catalog.all, settled.asRead_entries distinct, List.map_map]
  exact List.map_id _

/-- Each message finds what is read of its entry. -/
theorem IsSettled.get?_asRead (settled : IsSettled mode messages catalog)
    (distinct : Distinct messages) {message : UniqueMessage} (known : message ∈ messages) :
    ∃ entry ∈ catalog.all, IsOwn mode message entry ∧
      catalog.asRead.get? message.message message.context = some entry.asRead := by
  obtain ⟨entry, member, own⟩ := settled.covered message known
  refine ⟨entry, member, own, ?_⟩
  have present : entry.asRead ∈ catalog.asRead.all := by
    rw [settled.asRead_all distinct]
    exact List.mem_map_of_mem member
  have found := (asRead_isRead catalog).keyed.mem_all_iff.mp present
  rw [own.key_asRead (distinct.proper message known)] at found
  exact found

theorem IsSettled.found (settled : IsSettled mode messages catalog) (distinct : Distinct messages) :
    ∀ message ∈ messages,
      (catalog.asRead.get? message.message message.context).isSome = true := by
  intro message known
  obtain ⟨entry, -, -, present⟩ := settled.get?_asRead distinct known
  rw [present]
  rfl

end Settled

/-! ### A second merge -/

section Again

variable {mode : MergeMode} {messages : List UniqueMessage} {catalog : Catalog}

/-- Messages that all have their entries change no keys, and take no obsolete entry. -/
theorem foldl_of_found (once : (messages.map uniqueKey).Nodup)
    (found : ∀ message ∈ messages, (catalog.get? message.message message.context).isSome = true)
    (counts : MergeCounts) :
    Dictionary.keys (messages.foldl (mergeMessage mode) (catalog, counts)).1.entries =
        Dictionary.keys catalog.entries ∧
      (messages.foldl (mergeMessage mode) (catalog, counts)).1.obsolete = catalog.obsolete := by
  induction messages generalizing catalog counts with
  | nil => exact ⟨rfl, rfl⟩
  | cons message messages ih =>
    rw [List.map_cons, List.nodup_cons] at once
    obtain ⟨entry, present⟩ := Option.isSome_iff_exists.mp (found message List.mem_cons_self)
    have later : ∀ other ∈ messages, ((mergeMessage mode (catalog, counts) message).1.get?
        other.message other.context).isSome = true := by
      intro other member
      have apart : uniqueKey message ≠ uniqueKey other := fun same =>
        once.1 (same ▸ List.mem_map_of_mem member)
      rw [mergeMessage_get?_later apart]
      exact found other (List.mem_cons_of_mem _ member)
    obtain ⟨keys, obsolete⟩ := ih once.2 later (mergeMessage mode (catalog, counts) message).2
    have placed : keyOf message.message message.context ∈ Dictionary.keys catalog.entries :=
      Dictionary.mem_keys_of_mem (Dictionary.mem_of_get? present)
    rw [mergeMessage_of_some present] at keys obsolete
    rw [List.foldl_cons, mergeMessage_of_some present]
    exact ⟨keys.trans (Dictionary.keys_set_of_mem _ placed), obsolete⟩

/-- After a second merge, each entry is read as it was before. -/
theorem IsSettled.stated_all {isSource isClean : Bool}
    (settled : IsSettled ⟨isSource, isClean⟩ messages catalog) (distinct : Distinct messages)
    (again : Bool) :
    (stated ⟨isSource, again⟩ messages catalog.asRead).all.map Entry.asRead =
      catalog.asRead.all := by
  have read := asRead_isRead catalog
  have found := settled.found distinct
  have keys : Dictionary.keys (stated ⟨isSource, again⟩ messages catalog.asRead).entries =
      Dictionary.keys catalog.asRead.entries := (foldl_of_found distinct.once found _).1
  have once := (stated_orderly ⟨isSource, again⟩ distinct read.orderly).keyed.once
  have each : ∀ key ∈ Dictionary.keys catalog.asRead.entries,
      (Dictionary.get? key
        (stated ⟨isSource, again⟩ messages catalog.asRead).entries).map Entry.asRead =
        Dictionary.get? key catalog.asRead.entries := by
    intro key member
    rw [settled.asRead_entries distinct] at member
    obtain ⟨pair, listed, rfl⟩ := List.mem_map.mp member
    obtain ⟨entry, present, rfl⟩ := List.mem_map.mp listed
    obtain ⟨former, active, rfl⟩ := List.mem_map.mp present
    obtain ⟨message, known, stating⟩ := settled.owned former active
    obtain ⟨entry, -, own, reads⟩ := settled.get?_asRead distinct known
    have place : former.asRead.key = placeOf message :=
      stating.key_asRead (distinct.proper message known)
    have merged := foldl_get?_of_mem ⟨isSource, again⟩ distinct read.orderly ⟨0, 0, 0⟩ known
    rw [mergedEntry, reads] at merged
    rw [place, stated, merged, Option.map_some, own.asRead_refreshed again]
    exact reads.symm
  rw [Catalog.all, List.map_map]
  exact Dictionary.map_values_eq once keys each

theorem IsSettled.unstated_again (settled : IsSettled mode messages catalog)
    (distinct : Distinct messages) (further : MergeMode) :
    unstated further messages catalog.asRead = [] := by
  have read := asRead_isRead catalog
  rw [List.eq_nil_iff_forall_not_mem]
  intro entry left
  obtain ⟨member, unknown⟩ := (mem_unstated distinct read.orderly read.proper).mp left
  rw [settled.asRead_all distinct] at member
  obtain ⟨former, active, rfl⟩ := List.mem_map.mp member
  obtain ⟨message, known, own⟩ := settled.owned former active
  have key : former.asRead.messageKey = uniqueKey message :=
    (Entry.key_eq_placeOf (properContext_ne _)).mp (own.key_asRead (distinct.proper message known))
  exact unknown (key ▸ List.mem_map_of_mem known)

/-- A second merge finds every message and retires nothing. -/
theorem IsSettled.counts_again (settled : IsSettled mode messages catalog)
    (distinct : Distinct messages) (further : MergeMode) :
    (merge further messages catalog.asRead).2 = ⟨0, messages.length, 0⟩ := by
  have found := settled.found distinct
  have absent : messages.countP (fun message =>
      (catalog.asRead.get? message.message message.context).isNone) = 0 :=
    List.countP_eq_zero.mpr fun message known => by
      rw [Option.isNone_iff_eq_none, ← Option.not_isSome_iff_eq_none, not_not]
      exact found message known
  have present : messages.countP (fun message =>
      (catalog.asRead.get? message.message message.context).isSome) = messages.length :=
    List.countP_eq_length.mpr found
  rw [merge_eq, foldl_counts distinct.once, settled.unstated_again distinct, absent, present]
  simp

theorem IsSettled.merge_again (settled : IsSettled mode messages catalog)
    (distinct : Distinct messages) (further : MergeMode) :
    (merge further messages catalog.asRead).1 = ⟨(stated further messages catalog.asRead).entries,
      if further.isClean then [] else catalog.asRead.obsolete⟩ := by
  have obsolete : (stated further messages catalog.asRead).obsolete = catalog.asRead.obsolete :=
    (foldl_of_found distinct.once (settled.found distinct) _).2
  rw [merge_eq, retired, settled.unstated_again distinct, ← obsolete]
  cases further.isClean <;> rfl

/-- What is read after a second merge is what has been read before, without the obsolete entries if
they are removed now. -/
theorem IsSettled.asRead_again {isSource isClean : Bool}
    (settled : IsSettled ⟨isSource, isClean⟩ messages catalog) (distinct : Distinct messages)
    (again : Bool) :
    (merge ⟨isSource, again⟩ messages catalog.asRead).1.asRead =
      if again then { catalog.asRead with obsolete := [] } else catalog.asRead := by
  have whole := settled.merge_again distinct ⟨isSource, again⟩
  have entries : (merge ⟨isSource, again⟩ messages catalog.asRead).1.asRead.entries =
      catalog.asRead.entries := by
    rw [whole, Catalog.asRead_entries, Catalog.asRead_entries catalog,
      ← settled.asRead_all distinct, ← settled.stated_all distinct again]
    rfl
  have obsolete : (merge ⟨isSource, again⟩ messages catalog.asRead).1.asRead.obsolete =
      if again then [] else catalog.asRead.obsolete := by
    rw [whole, Catalog.asRead_obsolete]
    cases again with
    | true => rfl
    | false =>
      exact (Catalog.asRead_obsolete catalog.asRead).symm.trans
        (asRead_isRead catalog).asRead_obsolete
  have both : ∀ read : Catalog, read = ⟨read.entries, read.obsolete⟩ := fun _ => rfl
  rw [both (merge _ _ _).1.asRead, entries, obsolete]
  cases again <;> rfl

end Again

end Phrasebook.Catalog

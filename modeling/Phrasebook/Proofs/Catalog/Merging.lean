import Mathlib.Data.List.Find
import Mathlib.Data.List.Nodup
import Phrasebook.Catalog.Merge
import Phrasebook.Proofs.Catalog.Loaded

set_option autoImplicit false

/-!
What one step of a merge does: a message takes its entry, its obsolete entry or none, and an entry
that is stated no longer moves to the obsolete ones.
-/
namespace Phrasebook.Catalog

open Extract (UniqueMessage)

/-- What messages are told apart by: the text, and a context that says something. -/
abbrev MessageKey := String × Option String

/-- An entry of a single text. -/
def Entry.isPlain (entry : Entry) : Bool := !entry.id.isForms

def Entry.messageKey (entry : Entry) : MessageKey := (entry.id.first, properContext entry.context)

theorem Entry.id_of_isPlain {entry : Entry} (plain : entry.isPlain = true) :
    entry.id = .single entry.id.first := by
  cases spelled : entry.id with
  | single text => rfl
  | forms texts => simp [Entry.isPlain, spelled, Wording.isForms] at plain

theorem isOf_iff {entry : Entry} (plain : entry.isPlain = true) {message : String}
    {context : Option String} :
    isOf message context entry = true ↔ entry.messageKey = (message, context) := by
  rw [isOf, Entry.id_of_isPlain plain]
  simp [Entry.messageKey, Wording.first, Wording.texts]

theorem properContext_cases (context : Option String) :
    properContext context = context ∨ context = some "" ∧ properContext context = none := by
  cases context with
  | none => exact .inl rfl
  | some text =>
    by_cases blank : text = ""
    · exact .inr (by simp [blank, properContext])
    · exact .inl (by simp [properContext, blank])

theorem properContext_eq_self {context : Option String} (proper : context ≠ some "") :
    properContext context = context :=
  (properContext_cases context).resolve_right fun blank => proper blank.1

theorem properContext_ne (context : Option String) : properContext context ≠ some "" := by
  rcases properContext_cases context with same | ⟨-, none⟩
  · rw [same]
    rintro rfl
    simp [properContext] at same
  · simp [none]

theorem Entry.obsoleteKey_of_isPlain {entry : Entry} (plain : entry.isPlain = true) :
    entry.obsoleteKey = keyOf entry.messageKey.1 entry.messageKey.2 := by
  rw [Entry.obsoleteKey, Entry.id_of_isPlain plain]
  rfl

theorem keyOf_of_known {entry : Entry} (plain : entry.isPlain = true) {key : EntryKey}
    (known : key = entry.key ∨ key = entry.obsoleteKey) :
    ∃ context, key = keyOf entry.messageKey.1 context ∧
      properContext context = entry.messageKey.2 := by
  rcases known with rfl | rfl
  · exact ⟨entry.context, rfl, rfl⟩
  · exact ⟨entry.messageKey.2, Entry.obsoleteKey_of_isPlain plain,
      properContext_eq_self (properContext_ne _)⟩

/-- Two obsolete entries under one key are of one message. -/
theorem messageKey_of_key {entry other : Entry} (plain : entry.isPlain = true)
    (otherPlain : other.isPlain = true) {key : EntryKey}
    (known : key = entry.key ∨ key = entry.obsoleteKey)
    (otherKnown : key = other.key ∨ key = other.obsoleteKey) :
    entry.messageKey = other.messageKey := by
  obtain ⟨context, spelled, proper⟩ := keyOf_of_known plain known
  obtain ⟨otherContext, otherSpelled, otherProper⟩ := keyOf_of_known otherPlain otherKnown
  obtain ⟨message, same⟩ := keyOf_inj.mp (spelled.symm.trans otherSpelled)
  exact Prod.ext message (by rw [← proper, ← otherProper, same])

/-- All entries are of single texts. -/
structure Plain (catalog : Catalog) : Prop where
  active : ∀ entry ∈ catalog.all, entry.isPlain = true
  obsolete : ∀ entry ∈ catalog.allObsolete, entry.isPlain = true

/-- The active entry of a message; the first one counts. -/
def activeOf (catalog : Catalog) (key : MessageKey) : Option Entry :=
  catalog.all.find? (·.messageKey = key)

/-- The obsolete entry of a message; the last one counts. -/
def obsoleteOf (catalog : Catalog) (key : MessageKey) : Option Entry :=
  catalog.allObsolete.reverse.find? (·.messageKey = key)

theorem find?_isOf {entries : List Entry} (plain : ∀ entry ∈ entries, entry.isPlain = true)
    (message : String) (context : Option String) :
    entries.find? (isOf message context) = entries.find? (·.messageKey = (message, context)) := by
  refine List.find?_congr fun entry member => ?_
  rw [Bool.eq_iff_iff, isOf_iff (plain entry member), decide_eq_true_iff]

theorem find?_messageKey {entries : List Entry} (once : (entries.map Entry.messageKey).Nodup)
    {key : MessageKey} {entry : Entry} :
    entries.find? (·.messageKey = key) = some entry ↔ entry ∈ entries ∧ entry.messageKey = key := by
  constructor
  · intro found
    exact ⟨List.mem_of_find?_eq_some found, by simpa using List.find?_some found⟩
  · rintro ⟨member, own⟩
    have present : (entries.find? (·.messageKey = key)).isSome := by
      rw [List.find?_isSome]
      exact ⟨entry, member, by simpa using own⟩
    obtain ⟨other, found⟩ := Option.isSome_iff_exists.mp present
    have otherOwn : other.messageKey = key := by simpa using List.find?_some found
    rw [found, List.inj_on_of_nodup_map once (List.mem_of_find?_eq_some found) member
      (otherOwn.trans own.symm)]

theorem mem_all {catalog : Catalog} {entry : Entry} :
    entry ∈ catalog.all ↔ ∃ key, (key, entry) ∈ catalog.entries := by
  simp [Catalog.all]

theorem mem_allObsolete {catalog : Catalog} {entry : Entry} :
    entry ∈ catalog.allObsolete ↔ ∃ key, (key, entry) ∈ catalog.obsolete := by
  simp [Catalog.allObsolete]

theorem mem_all_set {catalog : Catalog} {key : EntryKey} {entry other : Entry}
    {obsolete : Dictionary EntryKey Entry}
    (member : other ∈ Catalog.all ⟨Dictionary.set key entry catalog.entries, obsolete⟩) :
    other = entry ∨ other ∈ catalog.all := by
  obtain ⟨place, present⟩ := mem_all.mp member
  exact (Dictionary.mem_set present).imp (congrArg Prod.snd) fun old => mem_all.mpr ⟨_, old⟩

theorem mem_allObsolete_addObsolete {catalog : Catalog} {key : EntryKey} {entry other : Entry}
    (member : other ∈ (catalog.addObsolete key entry).allObsolete) :
    other = entry ∨ other ∈ catalog.allObsolete := by
  obtain ⟨place, present⟩ := mem_allObsolete.mp member
  exact (Dictionary.mem_set present).imp (congrArg Prod.snd) fun old =>
    mem_allObsolete.mpr ⟨_, old⟩

theorem all_set_plain {catalog : Catalog} (plain : ∀ entry ∈ catalog.all, entry.isPlain = true)
    {entry : Entry} (own : entry.isPlain = true) (key : EntryKey)
    (obsolete : Dictionary EntryKey Entry) :
    ∀ other ∈ Catalog.all ⟨Dictionary.set key entry catalog.entries, obsolete⟩,
      other.isPlain = true := by
  intro other member
  rcases mem_all_set member with rfl | old
  · exact own
  · exact plain other old

theorem Plain.get? {catalog : Catalog} (plain : catalog.Plain) {message : String}
    {context : Option String} {entry : Entry}
    (found : catalog.get? message context = some entry) : entry.isPlain = true :=
  plain.active entry (mem_all.mpr ⟨_, Dictionary.mem_of_get? found⟩)

theorem WellKeyed.mem_all_iff {catalog : Catalog} (keyed : catalog.WellKeyed) {entry : Entry} :
    entry ∈ catalog.all ↔ Dictionary.get? entry.key catalog.entries = some entry := by
  rw [mem_all]
  constructor
  · rintro ⟨key, member⟩
    have same : key = entry.key := keyed.keyed _ member
    exact Dictionary.get?_of_mem keyed.once (same ▸ member)
  · intro found
    exact ⟨_, Dictionary.mem_of_get? found⟩

/-- The empty text is that of the header. -/
theorem WellKeyed.first_ne {catalog : Catalog} (keyed : catalog.WellKeyed) {entry : Entry}
    (member : entry ∈ catalog.all) (plain : entry.isPlain = true) : entry.id.first ≠ "" := by
  intro empty
  obtain ⟨key, placed⟩ := mem_all.mp member
  have visible := keyed.shown _ placed
  have spelled := Entry.id_of_isPlain plain
  rw [empty] at spelled
  simp [Entry.isHeader, spelled] at visible

/-- No active entry has an empty context in place of none. -/
def ProperContexts (catalog : Catalog) : Prop := ∀ entry ∈ catalog.all, entry.context ≠ some ""

instance (catalog : Catalog) : Decidable catalog.ProperContexts :=
  inferInstanceAs (Decidable (∀ entry ∈ catalog.all, entry.context ≠ some ""))

theorem Entry.key_eq {entry : Entry} (proper : entry.context ≠ some "") :
    entry.key = keyOf entry.messageKey.1 entry.messageKey.2 := by
  rw [Entry.key, Entry.messageKey, properContext_eq_self proper]

/-- Where keys hold no redundant context, no message has two entries. -/
theorem nodup_of_keys {entries : Dictionary EntryKey Entry}
    (once : (Dictionary.keys entries).Nodup)
    (own : ∀ pair ∈ entries, pair.1 = keyOf pair.2.messageKey.1 pair.2.messageKey.2) :
    ((entries.map (·.2)).map Entry.messageKey).Nodup := by
  have keys : ((entries.map (·.2)).map Entry.messageKey).map (fun key => keyOf key.1 key.2) =
      Dictionary.keys entries := by
    rw [List.map_map, List.map_map]
    exact List.map_congr_left fun pair member => (own pair member).symm
  exact List.Nodup.of_map _ (keys ▸ once)

theorem nodup_messageKey {catalog : Catalog} (keyed : catalog.WellKeyed)
    (proper : catalog.ProperContexts) : (catalog.all.map Entry.messageKey).Nodup :=
  nodup_of_keys keyed.once fun pair member =>
    (keyed.keyed pair member).trans (Entry.key_eq (proper _ (List.mem_map_of_mem member)))

/-! ### Obsolete entries -/

theorem takeObsolete_entries (catalog : Catalog) (message : String) (context : Option String) :
    (takeObsolete catalog message context).2.entries = catalog.entries := by
  rw [takeObsolete]
  split <;> rfl

theorem takeObsolete_fst (catalog : Catalog) (message : String) (context : Option String) :
    (takeObsolete catalog message context).1 =
      catalog.allObsolete.find? (isOf message context) := by
  rw [takeObsolete, Catalog.allObsolete, List.find?_map]
  have same : (isOf message context ∘ fun pair : EntryKey × Entry => pair.2) =
      fun pair => isOf message context pair.2 := rfl
  rw [same]
  split <;> rename_i found <;> simp [found]

theorem takeObsolete_sublist (catalog : Catalog) (message : String) (context : Option String) :
    (takeObsolete catalog message context).2.obsolete.Sublist catalog.obsolete := by
  rw [takeObsolete]
  split
  · exact List.filter_sublist
  · exact List.Sublist.refl _

/-- No message has two obsolete entries. -/
def ObsoleteOnce (catalog : Catalog) : Prop := (catalog.allObsolete.map Entry.messageKey).Nodup

instance (catalog : Catalog) : Decidable catalog.ObsoleteOnce :=
  inferInstanceAs (Decidable (List.Nodup _))

/-- What messages state, with contexts that say something. -/
def properKey (message : UniqueMessage) : MessageKey :=
  (message.message, properContext message.context)

theorem obsoleteOf_eq_some {catalog : Catalog} (once : catalog.ObsoleteOnce) {key : MessageKey}
    {entry : Entry} :
    obsoleteOf catalog key = some entry ↔
      entry ∈ catalog.allObsolete ∧ entry.messageKey = key := by
  have reversed : (catalog.allObsolete.reverse.map Entry.messageKey).Nodup := by
    rw [List.map_reverse, List.nodup_reverse]
    exact once
  rw [obsoleteOf, find?_messageKey reversed, List.mem_reverse]

theorem ObsoleteOnce.eq {catalog : Catalog} (once : catalog.ObsoleteOnce)
    {pair other : EntryKey × Entry} (member : pair ∈ catalog.obsolete)
    (otherMember : other ∈ catalog.obsolete)
    (same : pair.2.messageKey = other.2.messageKey) : pair = other := by
  have pairs : (catalog.obsolete.map fun pair => pair.2.messageKey).Nodup := by
    simpa [ObsoleteOnce, Catalog.allObsolete, Function.comp_def] using once
  exact List.inj_on_of_nodup_map pairs member otherMember same

/-- Taking the obsolete entry of a message leaves those of the other messages. -/
theorem mem_takeObsolete {catalog : Catalog} (keyed : catalog.WellKeyed) (plain : catalog.Plain)
    (once : catalog.ObsoleteOnce) (message : String) (context : Option String)
    (pair : EntryKey × Entry) :
    pair ∈ (takeObsolete catalog message context).2.obsolete ↔
      pair ∈ catalog.obsolete ∧ pair.2.messageKey ≠ (message, context) := by
  have plainOf : ∀ pair ∈ catalog.obsolete, pair.2.isPlain = true := fun pair member =>
    plain.obsolete _ (List.mem_map_of_mem member)
  rw [takeObsolete]
  split
  · rename_i key entry found
    have member := List.mem_of_find?_eq_some found
    have isOwn : isOf message context entry = true := by simpa using List.find?_some found
    have own := (isOf_iff (plainOf _ member)).mp isOwn
    rw [Dictionary.mem_erase]
    refine and_congr_right fun present => not_congr ⟨fun same => ?_, fun same => ?_⟩
    · rw [← own]
      exact messageKey_of_key (plainOf _ present) (plainOf _ member)
        (keyed.obsoleteKeyed _ present) (same ▸ keyed.obsoleteKeyed _ member)
    · rw [once.eq present member (same.trans own.symm)]
  · rename_i absent
    refine ⟨fun present => ⟨present, fun same => ?_⟩, And.left⟩
    exact List.find?_eq_none.mp absent pair present ((isOf_iff (plainOf _ present)).mpr same)

/-! ### Messages -/

section Message

variable {mode : MergeMode} {catalog : Catalog} {counts : MergeCounts} {message : UniqueMessage}

theorem mergeMessage_of_some {entry : Entry}
    (found : catalog.get? message.message message.context = some entry) :
    mergeMessage mode (catalog, counts) message =
      ({ catalog with
          entries := Dictionary.set (keyOf message.message message.context)
            (refreshed mode message entry) catalog.entries },
        { counts with kept := counts.kept + 1 }) := by
  simp only [mergeMessage, found]

/-- The obsolete entry whose translation a new entry takes. -/
def formerOf (catalog : Catalog) (message : UniqueMessage) : Option Entry :=
  (takeObsolete catalog message.message (properContext message.context)).1

/-- The obsolete entry of a message is the one that its new entry is made from. -/
theorem formerOf_eq (plain : catalog.Plain) (once : catalog.ObsoleteOnce) :
    formerOf catalog message = obsoleteOf catalog (properKey message) := by
  rw [formerOf, takeObsolete_fst, find?_isOf plain.obsolete, ← properKey]
  ext entry
  rw [find?_messageKey once, obsoleteOf_eq_some once]

theorem add_of_none {entry : Entry} (absent : Dictionary.get? entry.key catalog.entries = none)
    (shown : entry.isHeader = false) :
    catalog.add entry =
      { catalog with entries := Dictionary.set entry.key entry catalog.entries } := by
  simp [Catalog.add, absent, shown]

theorem add_of_header {entry : Entry} (absent : Dictionary.get? entry.key catalog.entries = none)
    (header : entry.isHeader = true) : catalog.add entry = catalog := by
  simp [Catalog.add, absent, header]

theorem mergeMessage_of_none (absent : catalog.get? message.message message.context = none)
    (shown : message.message ≠ "") :
    mergeMessage mode (catalog, counts) message =
      (⟨Dictionary.set (keyOf message.message message.context)
          (newEntry mode message (formerOf catalog message)) catalog.entries,
        (takeObsolete catalog message.message (properContext message.context)).2.obsolete⟩,
        { counts with added := counts.added + 1 }) := by
  have left := takeObsolete_entries catalog message.message (properContext message.context)
  have free : Dictionary.get? (newEntry mode message (formerOf catalog message)).key
      (takeObsolete catalog message.message (properContext message.context)).2.entries = none := by
    rw [left]
    exact absent
  have named : (newEntry mode message (formerOf catalog message)).isHeader = false := by
    simp [Entry.isHeader, newEntry, shown]
  have added := add_of_none free named
  rw [left] at added
  simp only [mergeMessage, absent]
  exact congrArg (·, _) added

theorem mergeMessage_of_header (absent : catalog.get? message.message message.context = none)
    (header : message.message = "") :
    mergeMessage mode (catalog, counts) message =
      ((takeObsolete catalog message.message (properContext message.context)).2,
        { counts with added := counts.added + 1 }) := by
  have free : Dictionary.get? (newEntry mode message (formerOf catalog message)).key
      (takeObsolete catalog message.message (properContext message.context)).2.entries = none := by
    rw [takeObsolete_entries]
    exact absent
  have named : (newEntry mode message (formerOf catalog message)).isHeader = true := by
    simp [Entry.isHeader, newEntry, header]
  simp only [mergeMessage, absent]
  exact congrArg (·, _) (add_of_header free named)

theorem takeObsolete_wellKeyed (keyed : catalog.WellKeyed) (text : String)
    (context : Option String) : (takeObsolete catalog text context).2.WellKeyed := by
  rw [takeObsolete]
  split
  · rename_i key entry found
    exact ⟨keyed.keyed, keyed.shown, keyed.once,
      fun pair member => keyed.obsoleteKeyed pair (Dictionary.mem_erase.mp member).1,
      Dictionary.nodup_erase key keyed.obsoleteOnce⟩
  · exact keyed

theorem refreshed_key (entry : Entry) : (refreshed mode message entry).key = entry.key := rfl

theorem mergeMessage_wellKeyed (keyed : catalog.WellKeyed) (mode : MergeMode)
    (message : UniqueMessage) (counts : MergeCounts) :
    (mergeMessage mode (catalog, counts) message).1.WellKeyed := by
  cases found : catalog.get? message.message message.context with
  | some entry =>
    have member := Dictionary.mem_of_get? found
    have own : keyOf message.message message.context = entry.key := keyed.keyed _ member
    rw [mergeMessage_of_some found, own, ← refreshed_key entry]
    exact keyed.set (keyed.shown _ member)
  | none =>
    have taken := takeObsolete_wellKeyed keyed message.message (properContext message.context)
    by_cases header : message.message = ""
    · rw [mergeMessage_of_header found header]
      exact taken
    · rw [mergeMessage_of_none found header]
      rw [← takeObsolete_entries catalog message.message (properContext message.context)]
      have named : (newEntry mode message (formerOf catalog message)).isHeader = false := by
        simp [Entry.isHeader, newEntry, header]
      exact taken.set named

theorem foldl_mergeMessage_wellKeyed {messages : List UniqueMessage} (keyed : catalog.WellKeyed)
    (mode : MergeMode) (counts : MergeCounts) :
    (messages.foldl (mergeMessage mode) (catalog, counts)).1.WellKeyed := by
  induction messages generalizing catalog counts with
  | nil => exact keyed
  | cons message messages ih => exact ih (mergeMessage_wellKeyed keyed mode message counts) _

end Message

/-! ### Entries that are stated no longer -/

theorem retire_entries (mode : MergeMode) (catalog : Catalog) (entry : Entry) :
    (retire mode catalog entry).entries = Dictionary.erase entry.key catalog.entries := by
  rw [retire]
  split <;> rfl

theorem retire_obsolete {mode : MergeMode} (keeps : mode.isClean = false) (catalog : Catalog)
    (entry : Entry) :
    (retire mode catalog entry).obsolete =
      (catalog.addObsolete entry.obsoleteKey entry).obsolete := by
  simp [retire, keeps, Catalog.addObsolete]

theorem retire_obsolete_of_clean {mode : MergeMode} (clean : mode.isClean = true)
    (catalog : Catalog) (entry : Entry) :
    (retire mode catalog entry).obsolete = catalog.obsolete := by
  simp [retire, clean]

theorem WellKeyed.erase {catalog : Catalog} (keyed : catalog.WellKeyed) (key : EntryKey) :
    WellKeyed { catalog with entries := Dictionary.erase key catalog.entries } where
  keyed pair member := keyed.keyed pair (Dictionary.mem_erase.mp member).1
  shown pair member := keyed.shown pair (Dictionary.mem_erase.mp member).1
  once := Dictionary.nodup_erase _ keyed.once
  obsoleteKeyed := keyed.obsoleteKeyed
  obsoleteOnce := keyed.obsoleteOnce

theorem retire_wellKeyed {catalog : Catalog} (keyed : catalog.WellKeyed) (mode : MergeMode)
    (entry : Entry) : (retire mode catalog entry).WellKeyed := by
  rw [retire]
  split
  · exact keyed.erase entry.key
  · exact (keyed.erase entry.key).addObsolete (.inr rfl)

theorem foldl_retire_wellKeyed {entries : List Entry} {catalog : Catalog}
    (keyed : catalog.WellKeyed) (mode : MergeMode) :
    (entries.foldl (retire mode) catalog).WellKeyed := by
  induction entries generalizing catalog with
  | nil => exact keyed
  | cons entry entries ih => exact ih (retire_wellKeyed keyed mode entry)

/-- An entry whose key is taken among the obsolete ones takes the place of one of its message. -/
theorem set_obsoleteKey {catalog : Catalog} {entry : Entry} (plain : entry.isPlain = true)
    (obsoletePlain : ∀ other ∈ catalog.allObsolete, other.isPlain = true)
    (known : ∀ pair ∈ catalog.obsolete, pair.1 = pair.2.key ∨ pair.1 = pair.2.obsoleteKey)
    (present : entry.obsoleteKey ∈ Dictionary.keys catalog.obsolete) :
    ∃ front old back, catalog.obsolete = front ++ (entry.obsoleteKey, old) :: back ∧
      Dictionary.set entry.obsoleteKey entry catalog.obsolete =
        front ++ (entry.obsoleteKey, entry) :: back ∧
      old.messageKey = entry.messageKey := by
  obtain ⟨front, old, back, split, -, placed⟩ := Dictionary.set_of_mem entry present
  have member : (entry.obsoleteKey, old) ∈ catalog.obsolete := by simp [split]
  exact ⟨front, old, back, split, placed, messageKey_of_key
    (obsoletePlain _ (List.mem_map_of_mem member)) plain (known _ member) (.inr rfl)⟩

/-- An entry that becomes obsolete stands in place of the former one of its message. -/
theorem obsoleteOf_addObsolete {catalog : Catalog} {entry : Entry} (plain : entry.isPlain = true)
    (obsoletePlain : ∀ other ∈ catalog.allObsolete, other.isPlain = true)
    (known : ∀ pair ∈ catalog.obsolete, pair.1 = pair.2.key ∨ pair.1 = pair.2.obsoleteKey)
    (lone : (catalog.allObsolete.map Entry.messageKey).count entry.messageKey ≤ 1)
    (key : MessageKey) :
    obsoleteOf (catalog.addObsolete entry.obsoleteKey entry) key =
      if entry.messageKey = key then some entry else obsoleteOf catalog key := by
  simp only [obsoleteOf, Catalog.allObsolete, Catalog.addObsolete] at lone ⊢
  by_cases present : entry.obsoleteKey ∈ Dictionary.keys catalog.obsolete
  · obtain ⟨front, old, back, split, placed, same⟩ :=
      set_obsoleteKey plain obsoletePlain known present
    rw [split] at lone
    rw [placed, split]
    by_cases own : entry.messageKey = key
    · have alone : ∀ pair ∈ back, pair.2.messageKey ≠ key := by
        intro pair later equal
        have further : 0 < (back.map fun pair => pair.2.messageKey).count entry.messageKey :=
          List.count_pos_iff.mpr (own ▸ equal ▸ List.mem_map_of_mem later)
        simp only [List.map_append, List.map_cons, List.map_map, Function.comp_def,
          List.count_append, same, List.count_cons_self] at lone
        omega
      have skipped : (back.map fun pair => pair.2).reverse.find?
          (fun other => decide (other.messageKey = key)) = none := by
        rw [List.find?_eq_none]
        intro other member
        obtain ⟨pair, later, rfl⟩ := List.mem_map.mp (List.mem_reverse.mp member)
        simpa using alone pair later
      simp [skipped, own]
    · have oldApart : old.messageKey ≠ key := same ▸ own
      simp [own, oldApart]
  · rw [Dictionary.set_of_not_mem entry present]
    by_cases same : entry.messageKey = key <;> simp [same]

theorem count_addObsolete {catalog : Catalog} {entry : Entry} (plain : entry.isPlain = true)
    (obsoletePlain : ∀ other ∈ catalog.allObsolete, other.isPlain = true)
    (known : ∀ pair ∈ catalog.obsolete, pair.1 = pair.2.key ∨ pair.1 = pair.2.obsoleteKey)
    {key : MessageKey} (apart : entry.messageKey ≠ key) :
    ((catalog.addObsolete entry.obsoleteKey entry).allObsolete.map Entry.messageKey).count key =
      (catalog.allObsolete.map Entry.messageKey).count key := by
  simp only [Catalog.allObsolete, Catalog.addObsolete]
  by_cases present : entry.obsoleteKey ∈ Dictionary.keys catalog.obsolete
  · obtain ⟨front, old, back, split, placed, same⟩ :=
      set_obsoleteKey plain obsoletePlain known present
    rw [placed, split]
    simp [same]
  · rw [Dictionary.set_of_not_mem entry present]
    simp [List.count_append, apart]

theorem addObsolete_plain {catalog : Catalog} {entry : Entry} (plain : entry.isPlain = true)
    (obsoletePlain : ∀ other ∈ catalog.allObsolete, other.isPlain = true) (key : EntryKey) :
    ∀ other ∈ (catalog.addObsolete key entry).allObsolete, other.isPlain = true := by
  intro other member
  rcases mem_allObsolete_addObsolete member with rfl | old
  · exact plain
  · exact obsoletePlain other old

/-- Of each message among the retired entries that entry is the obsolete one afterwards. -/
theorem obsoleteOf_foldl_retire {mode : MergeMode} (keeps : mode.isClean = false)
    {entries : List Entry} (plain : ∀ entry ∈ entries, entry.isPlain = true)
    (once : (entries.map Entry.messageKey).Nodup) {catalog : Catalog} (keyed : catalog.WellKeyed)
    (obsoletePlain : ∀ other ∈ catalog.allObsolete, other.isPlain = true)
    (lone : ∀ entry ∈ entries,
      (catalog.allObsolete.map Entry.messageKey).count entry.messageKey ≤ 1)
    (key : MessageKey) :
    obsoleteOf (entries.foldl (retire mode) catalog) key =
      (entries.find? (·.messageKey = key)).or (obsoleteOf catalog key) := by
  induction entries generalizing catalog with
  | nil => rfl
  | cons entry entries ih =>
    have own : entry.isPlain = true := plain entry (by simp)
    rw [List.map_cons, List.nodup_cons] at once
    have moved : (retire mode catalog entry).allObsolete =
        (catalog.addObsolete entry.obsoleteKey entry).allObsolete := by
      rw [Catalog.allObsolete, retire_obsolete keeps]
      rfl
    have apart : ∀ other ∈ entries, entry.messageKey ≠ other.messageKey := fun other member same =>
      once.1 (same ▸ List.mem_map_of_mem member)
    have placed := obsoleteOf_addObsolete own obsoletePlain keyed.obsoleteKeyed
      (lone entry (by simp)) key
    rw [List.foldl_cons, ih (fun other member => plain other (by simp [member])) once.2
      (retire_wellKeyed keyed mode entry)]
    · rw [obsoleteOf, moved, ← obsoleteOf, placed, List.find?_cons]
      by_cases same : entry.messageKey = key
      · have none : entries.find? (·.messageKey = key) = none := by
          rw [List.find?_eq_none]
          intro other member
          simpa [← same] using Ne.symm (apart other member)
        simp [same, none]
      · simp [same]
    · rw [moved]
      exact addObsolete_plain own obsoletePlain _
    · intro other member
      rw [moved, count_addObsolete own obsoletePlain keyed.obsoleteKeyed (apart other member)]
      exact lone other (by simp [member])

/-! ### The parts of a merge -/

theorem isStated_iff (messages : List UniqueMessage) {entry : Entry}
    (plain : entry.isPlain = true) :
    isStated messages entry = true ↔ entry.messageKey ∈ messages.map properKey := by
  rw [isStated, List.any_eq_true, List.mem_map]
  refine exists_congr fun message => and_congr_right fun _ => ?_
  rw [← isOf, isOf_iff plain, ← properKey, eq_comm]

/-- The catalog before unstated entries leave it. -/
def stated (mode : MergeMode) (messages : List UniqueMessage) (catalog : Catalog) : Catalog :=
  (messages.foldl (mergeMessage mode) (catalog, ⟨0, 0, 0⟩)).1

/-- The entries that leave. -/
def unstated (mode : MergeMode) (messages : List UniqueMessage) (catalog : Catalog) : List Entry :=
  (stated mode messages catalog).all.filter fun entry => !isStated messages entry

/-- The catalog after unstated entries have left it. -/
def retired (mode : MergeMode) (messages : List UniqueMessage) (catalog : Catalog) : Catalog :=
  (unstated mode messages catalog).foldl (retire mode) (stated mode messages catalog)

section Whole

variable {mode : MergeMode} {messages : List UniqueMessage} {catalog : Catalog}

theorem merge_eq :
    merge mode messages catalog =
      (if mode.isClean then { retired mode messages catalog with obsolete := [] }
        else retired mode messages catalog,
        { (messages.foldl (mergeMessage mode) (catalog, ⟨0, 0, 0⟩)).2 with
          retired := (unstated mode messages catalog).length }) := rfl

theorem merge_of_keeps (keeps : mode.isClean = false) :
    (merge mode messages catalog).1 = retired mode messages catalog := by
  rw [merge_eq, keeps]
  rfl

theorem merge_wellKeyed (keyed : catalog.WellKeyed) :
    (merge mode messages catalog).1.WellKeyed := by
  have after : (retired mode messages catalog).WellKeyed :=
    foldl_retire_wellKeyed (foldl_mergeMessage_wellKeyed keyed mode _) mode
  rw [merge_eq]
  cases mode.isClean with
  | true => exact ⟨after.keyed, after.shown, after.once, by simp, by simp⟩
  | false => exact after

theorem foldl_retire_entries (entries : List Entry) (catalog : Catalog) :
    (entries.foldl (retire mode) catalog).entries =
      catalog.entries.filter fun pair => pair.1 ∉ entries.map Entry.key := by
  induction entries generalizing catalog with
  | nil => simp
  | cons entry entries ih =>
    rw [List.foldl_cons, ih, retire_entries, Dictionary.erase, List.filter_filter]
    refine List.filter_congr fun pair _ => ?_
    rw [Bool.eq_iff_iff]
    simp [and_comm]

/-- An entry stays just if some message states it. -/
theorem merge_all (keyed : catalog.WellKeyed) :
    (merge mode messages catalog).1.all =
      (stated mode messages catalog).all.filter (isStated messages) := by
  have before : (stated mode messages catalog).WellKeyed :=
    foldl_mergeMessage_wellKeyed keyed mode _
  have entries : (merge mode messages catalog).1.entries =
      (retired mode messages catalog).entries := by
    rw [merge_eq]
    cases mode.isClean <;> rfl
  rw [Catalog.all, entries, retired, foldl_retire_entries, Catalog.all, List.filter_map]
  congr 1
  refine List.filter_congr fun pair member => ?_
  have own : pair.1 = pair.2.key := before.keyed pair member
  rw [Bool.eq_iff_iff, decide_eq_true_iff]
  constructor
  · intro stays
    by_contra unsaid
    have left : pair.2 ∈ unstated mode messages catalog :=
      List.mem_filter.mpr ⟨List.mem_map_of_mem member, by simpa using unsaid⟩
    exact stays (own ▸ List.mem_map_of_mem left)
  · intro said gone
    obtain ⟨other, left, place⟩ := List.mem_map.mp gone
    obtain ⟨present, unsaid⟩ := List.mem_filter.mp left
    have found := before.mem_all_iff.mp present
    rw [place, Dictionary.get?_of_mem before.once member] at found
    rw [Function.comp_apply, Option.some.inj found] at said
    simp [said] at unsaid

end Whole

end Phrasebook.Catalog

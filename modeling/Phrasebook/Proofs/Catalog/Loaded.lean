import Phrasebook.Catalog.Read
import Phrasebook.Proofs.Dictionary
import Phrasebook.Proofs.Outcome

set_option autoImplicit false

/-!
What every catalog that is read from a file satisfies: entries stand under their keys, and no key
comes twice.
-/
namespace Phrasebook.Catalog

open Outcome (bind_eq_ok)

/-- Entries stand under their keys, each key once, and the header is not among them. -/
structure WellKeyed (catalog : Catalog) : Prop where
  keyed : ∀ pair ∈ catalog.entries, pair.1 = pair.2.key
  shown : ∀ pair ∈ catalog.entries, pair.2.isHeader = false
  once : (Dictionary.keys catalog.entries).Nodup
  obsoleteKeyed : ∀ pair ∈ catalog.obsolete, pair.1 = pair.2.key ∨ pair.1 = pair.2.obsoleteKey
  obsoleteOnce : (Dictionary.keys catalog.obsolete).Nodup

theorem empty_wellKeyed : empty.WellKeyed where
  keyed := by simp [empty]
  shown := by simp [empty]
  once := by simp [empty]
  obsoleteKeyed := by simp [empty]
  obsoleteOnce := by simp [empty]

theorem keyOf_inj {message other : String} {context another : Option String} :
    keyOf message context = keyOf other another ↔ message = other ∧ context = another := by
  cases context <;> cases another <;> simp [keyOf]

theorem WellKeyed.set {catalog : Catalog} (keyed : catalog.WellKeyed) {entry : Entry}
    (shown : entry.isHeader = false) :
    WellKeyed { catalog with entries := Dictionary.set entry.key entry catalog.entries } where
  keyed pair member := by
    rcases Dictionary.mem_set member with rfl | old
    · rfl
    · exact keyed.keyed pair old
  shown pair member := by
    rcases Dictionary.mem_set member with rfl | old
    · exact shown
    · exact keyed.shown pair old
  once := Dictionary.nodup_set _ _ keyed.once
  obsoleteKeyed := keyed.obsoleteKeyed
  obsoleteOnce := keyed.obsoleteOnce

theorem WellKeyed.addObsolete {catalog : Catalog} (keyed : catalog.WellKeyed) {key : EntryKey}
    {entry : Entry} (known : key = entry.key ∨ key = entry.obsoleteKey) :
    (catalog.addObsolete key entry).WellKeyed where
  keyed := keyed.keyed
  shown := keyed.shown
  once := keyed.once
  obsoleteKeyed pair member := by
    rcases Dictionary.mem_set member with rfl | old
    · exact known
    · exact keyed.obsoleteKeyed pair old
  obsoleteOnce := Dictionary.nodup_set _ _ keyed.obsoleteOnce

/-- The entry that a further one is added to has its key still. -/
theorem unite_key {entry further : Entry} (same : entry.key = further.key) :
    (entry.unite further).key = entry.key := by
  obtain ⟨message, context⟩ := keyOf_inj.mp same
  simp only [Entry.key, Entry.unite]
  split <;> simp_all

theorem unite_isHeader {entry further : Entry} (shown : entry.isHeader = false) :
    (entry.unite further).isHeader = false := by
  have named : entry.id ≠ .single "" := of_decide_eq_false shown
  refine decide_eq_false fun header => ?_
  simp only [Entry.unite] at header
  split at header
  · rename_i takes
    simp [header, Wording.isForms] at takes
  · exact named header

theorem WellKeyed.add {catalog : Catalog} (keyed : catalog.WellKeyed) (entry : Entry) :
    (catalog.add entry).WellKeyed := by
  simp only [Catalog.add]
  split
  · rename_i found present
    have member := Dictionary.mem_of_get? present
    have same : found.key = entry.key := (keyed.keyed _ member).symm
    rw [← same, ← unite_key same]
    exact keyed.set (unite_isHeader (keyed.shown _ member))
  · split
    · exact keyed
    · rename_i shown
      exact keyed.set (by simpa using shown)

/-! ### Reading -/

/-- Only the end of a draft changes the catalog. -/
theorem finish_wellKeyed [Codecs] {reader last : Reader} (keyed : reader.catalog.WellKeyed)
    (finished : reader.finish = .ok last) : last.catalog.WellKeyed := by
  simp only [Reader.finish] at finished
  split at finished
  · cases finished
    exact keyed
  · obtain ⟨entry, -, placed⟩ := bind_eq_ok.mp finished
    split at placed
    · cases placed
      exact keyed.addObsolete (.inl rfl)
    · split at placed
      · obtain ⟨header, -, done⟩ := bind_eq_ok.mp placed
        cases done
        exact keyed
      · cases placed
        exact keyed.add entry

theorem take_keeps {reader last : Reader} {isObsolete : Bool} {keyword : List Char}
    {text : String} (taken : reader.take isObsolete keyword text = .ok last) :
    last.catalog = reader.catalog ∧ last.header = reader.header := by
  simp only [Reader.take] at taken
  split at taken
  · cases taken
    exact ⟨rfl, rfl⟩
  · split at taken
    · cases taken
      exact ⟨rfl, rfl⟩
    · obtain ⟨number, -, placed⟩ := bind_eq_ok.mp taken
      split at placed <;> cases placed <;> exact ⟨rfl, rfl⟩

/-- What the end of each draft keeps. -/
def IsKept [Codecs] (kept : Catalog → Header → Prop) : Prop :=
  ∀ reader last : Reader, kept reader.catalog reader.header → reader.finish = .ok last →
    kept last.catalog last.header

section Kept

variable [Codecs] {kept : Catalog → Header → Prop} (ends : IsKept kept) {reader last : Reader}

include ends

theorem keywordLine_keeps {isObsolete : Bool} {line : List Char}
    (before : kept reader.catalog reader.header)
    (passed : reader.keywordLine isObsolete line = .ok last) : kept last.catalog last.header := by
  simp only [Reader.keywordLine] at passed
  split at passed
  · obtain ⟨begun, finished, taken⟩ := bind_eq_ok.mp passed
    rw [(take_keeps taken).1, (take_keeps taken).2]
    exact ends reader begun before finished
  · rw [(take_keeps passed).1, (take_keeps passed).2]
    exact before

theorem entryLine_keeps {isObsolete : Bool} {line : List Char}
    (before : kept reader.catalog reader.header)
    (passed : reader.entryLine isObsolete line = .ok last) : kept last.catalog last.header := by
  simp only [Reader.entryLine] at passed
  split at passed
  · cases passed
    exact before
  · cases passed
    exact before
  · exact keywordLine_keeps ends before passed

theorem commentLine_keeps {line : List Char} (before : kept reader.catalog reader.header)
    (passed : reader.commentLine line = .ok last) : kept last.catalog last.header := by
  simp only [Reader.commentLine] at passed
  obtain ⟨begun, finished, done⟩ := bind_eq_ok.mp passed
  cases done
  have after := ends reader begun before finished
  exact after

theorem byteLine_keeps {line : List UInt8} (before : kept reader.catalog reader.header)
    (passed : reader.byteLine line = .ok last) : kept last.catalog last.header := by
  simp only [Reader.byteLine] at passed
  split at passed
  · cases passed
    exact before
  · obtain ⟨text, -, passed⟩ := bind_eq_ok.mp passed
    simp only [Reader.line] at passed
    split at passed
    · exact entryLine_keeps ends before passed
    · exact commentLine_keeps ends before passed
    · exact entryLine_keeps ends before passed

theorem byteLines_keeps {lines : List (List UInt8)} (before : kept reader.catalog reader.header)
    (passed : lines.foldlM Reader.byteLine reader = .ok last) : kept last.catalog last.header := by
  induction lines generalizing reader with
  | nil =>
    cases passed
    exact before
  | cons line lines ih =>
    rw [List.foldlM_cons] at passed
    obtain ⟨next, first, later⟩ := bind_eq_ok.mp passed
    exact ih (byteLine_keeps ends before first) later

/-- What the end of each draft keeps is so of the whole file. -/
theorem read_keeps {locale : String} (start : kept .empty (.ofLocale locale)) {bytes : List UInt8}
    {header : Header} {catalog : Catalog} (loaded : read locale bytes = .ok (header, catalog)) :
    kept catalog header := by
  simp only [read] at loaded
  split at loaded
  · simp at loaded
  obtain ⟨reader, passed, loaded⟩ := bind_eq_ok.mp loaded
  obtain ⟨last, finished, done⟩ := bind_eq_ok.mp loaded
  cases done
  exact ends reader last (byteLines_keeps ends start passed) finished

end Kept

/-- Whatever the bytes of a file are, the catalog that is read from them is well keyed. -/
theorem read_wellKeyed [Codecs] {locale : String} {bytes : List UInt8} {header : Header}
    {catalog : Catalog} (loaded : read locale bytes = .ok (header, catalog)) :
    catalog.WellKeyed := by
  have ends : IsKept fun catalog _ => catalog.WellKeyed :=
    fun _ _ before finished => finish_wellKeyed before finished
  exact read_keeps ends empty_wellKeyed loaded

/-- A draft has forms, at least one, if it has more than one text for its id, and one text
otherwise. -/
theorem translation_of_ids {draft : Draft} {count : Nat} {wording : Wording}
    (made : draft.translation count = .ok wording) :
    if 2 ≤ draft.ids.length then wording.isForms = true ∧ wording.isEmpty = false
    else wording = .single ((draft.translations.head?.map (·.2)).getD "") := by
  unfold Draft.translation at made
  split at made
  · rename_i several
    obtain ⟨forms, -, done⟩ := bind_eq_ok.mp made
    rw [several, if_pos (by simp), ← Except.ok.inj done]
    refine ⟨rfl, ?_⟩
    rw [Wording.isEmpty]
    split <;> simp_all
  · rename_i few
    rw [if_neg]
    · exact (Except.ok.inj made).symm
    · intro long
      match shape : draft.ids, long with
      | first :: second :: rest, _ => exact few _ _ _ shape

/-- An entry has forms, at least one, if its id has, and one text otherwise. -/
def Entry.IsUniform (entry : Entry) : Prop :=
  entry.translation.isForms = entry.id.isForms ∧
    (entry.id.isForms = true → entry.translation.isEmpty = false)

theorem isUniform_of_draft {draft : Draft} {count : Nat} {entry : Entry}
    (made : draft.entry count = .ok entry) (some : draft.ids ≠ []) : entry.IsUniform := by
  obtain ⟨wording, translated, made⟩ := bind_eq_ok.mp made
  rw [← Except.ok.inj made]
  have shape := translation_of_ids translated
  have id : draft.id.isForms = decide (2 ≤ draft.ids.length) := by
    unfold Draft.id
    match spelled : draft.ids with
    | [] => exact absurd spelled some
    | [text] => rfl
    | first :: second :: rest => simp [Wording.isForms]
  rw [Entry.IsUniform, id]
  split at shape
  · rename_i several
    exact ⟨shape.1.trans (decide_eq_true several).symm, fun _ => shape.2⟩
  · rename_i few
    rw [shape, decide_eq_false few]
    exact ⟨rfl, nofun⟩

theorem unite_isUniform {entry further : Entry} (uniform : entry.IsUniform)
    (furtherUniform : further.IsUniform) : (entry.unite further).IsUniform := by
  unfold Entry.unite Entry.IsUniform
  dsimp only
  split
  · exact furtherUniform
  · exact uniform

/-- Whatever the bytes of a file are, the active entries that are read from them are uniform. -/
theorem read_uniform [Codecs] {locale : String} {bytes : List UInt8} {header : Header}
    {catalog : Catalog} (loaded : read locale bytes = .ok (header, catalog)) :
    ∀ entry ∈ catalog.all, entry.IsUniform := by
  have ends : IsKept fun catalog _ => ∀ entry ∈ catalog.all, entry.IsUniform := by
    intro reader last before finished
    rw [Reader.finish] at finished
    split at finished
    · cases finished
      exact before
    rename_i some
    obtain ⟨entry, made, placed⟩ := bind_eq_ok.mp finished
    have own := isUniform_of_draft made some
    split at placed
    · cases placed
      exact before
    split at placed
    · obtain ⟨header, -, done⟩ := bind_eq_ok.mp placed
      cases done
      exact before
    · cases placed
      intro other member
      obtain ⟨pair, listed, rfl⟩ := List.mem_map.mp member
      simp only [Catalog.add] at listed
      split at listed
      · rename_i found present
        rcases Dictionary.mem_set listed with rfl | old
        · exact unite_isUniform (before _ (List.mem_map_of_mem (Dictionary.mem_of_get? present))) own
        · exact before _ (List.mem_map_of_mem old)
      · split at listed
        · exact before _ (List.mem_map_of_mem listed)
        · rcases Dictionary.mem_set listed with rfl | old
          · exact own
          · exact before _ (List.mem_map_of_mem old)
  exact read_keeps ends (fun _ member => nomatch member) loaded

end Phrasebook.Catalog

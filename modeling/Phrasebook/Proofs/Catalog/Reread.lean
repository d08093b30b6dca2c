import Phrasebook.Proofs.Catalog.Update
import Phrasebook.Proofs.Catalog.Written

set_option autoImplicit false

/-!
What has been written and read once comes back the same when it is written and read once more.
-/
namespace Phrasebook.Catalog

open Extract (UniqueMessage)

/-! ### Locations -/

theorem comesBefore_iff {a b : Location} :
    comesBefore a b = true ↔ a.file < b.file ∨ a.file = b.file ∧ orderLine a ≤ orderLine b := by
  simp [comesBefore]

theorem comesBefore_trans (a b c : Location) (first : comesBefore a b = true)
    (second : comesBefore b c = true) : comesBefore a c = true := by
  rw [comesBefore_iff] at *
  rcases first with before | ⟨same, line⟩
  · rcases second with next | ⟨equal, -⟩
    · exact .inl (String.lt_trans before next)
    · exact .inl (equal ▸ before)
  · rcases second with next | ⟨equal, further⟩
    · exact .inl (same ▸ next)
    · exact .inr ⟨same.trans equal, by omega⟩

theorem comesBefore_total (a b : Location) : (comesBefore a b || comesBefore b a) = true := by
  rw [Bool.or_eq_true, comesBefore_iff, comesBefore_iff]
  by_cases same : a.file = b.file
  · by_cases line : orderLine a ≤ orderLine b
    · exact .inl (.inr ⟨same, line⟩)
    · exact .inr (.inr ⟨same.symm, by omega⟩)
  · rcases String.le_total a.file b.file with less | more
    · exact .inl (.inl (Std.lt_of_le_of_ne less same))
    · exact .inr (.inl (Std.lt_of_le_of_ne more (Ne.symm same)))

/-- The order tells apart the locations that records have. -/
theorem comesBefore_antisymm {a b : Location} {line other : Nat} (known : a.line = some ↑line)
    (otherKnown : b.line = some ↑other) (first : comesBefore a b = true)
    (second : comesBefore b a = true) : a = b := by
  have ordered : ∀ {location : Location} {n : Nat}, location.line = some ↑n →
      orderLine location = if n = 0 then (-1 : Int) else n := by
    intro location n stated
    simp only [orderLine, stated]
    by_cases zero : n = 0
    · rw [if_pos zero, if_pos (by omega)]
    · rw [if_neg zero, if_neg (by omega)]
  rw [comesBefore_iff, ordered known, ordered otherKnown] at first
  rw [comesBefore_iff, ordered known, ordered otherKnown] at second
  have file : a.file = b.file := by
    rcases first with before | ⟨same, -⟩
    · rcases second with after | ⟨same, -⟩
      · exact absurd (String.lt_trans before after) (String.lt_irrefl _)
      · exact same.symm
    · exact same
  have number : line = other := by
    rw [file] at first second
    have upper := (first.resolve_left (String.lt_irrefl _)).2
    have lower := (second.resolve_left (String.lt_irrefl _)).2
    by_cases none : line = 0
    · by_cases otherNone : other = 0
      · omega
      · rw [if_pos none, if_neg otherNone] at lower
        omega
    · by_cases otherNone : other = 0
      · rw [if_neg none, if_pos otherNone] at upper
        omega
      · rw [if_neg none, if_neg otherNone] at upper lower
        omega
  obtain ⟨aFile, aLine⟩ := a
  obtain ⟨bFile, bLine⟩ := b
  cases file
  cases known
  cases otherKnown
  rw [number]

/-- Locations with a line, as records have them. -/
def Numbered (locations : List Location) : Prop :=
  ∀ location ∈ locations, ∃ line : Nat, location.line = some ↑line

theorem mergeSort_distinct {locations : List Location} (numbered : Numbered locations) :
    (distinct locations).mergeSort comesBefore = distinct (locations.mergeSort comesBefore) := by
  have ordered := fun items : List Location =>
    List.pairwise_mergeSort comesBefore_trans comesBefore_total items
  have kept := (ordered locations).sublist (distinct_sublist (locations.mergeSort comesBefore))
  apply List.Perm.eq_of_pairwise _ (ordered (distinct locations)) kept
  · refine (List.mergeSort_perm _ _).trans ?_
    rw [List.perm_ext_iff_of_nodup (nodup_distinct _) (nodup_distinct _)]
    intro location
    rw [mem_distinct, mem_distinct, List.mem_mergeSort]
  · intro a b member otherMember before after
    rw [List.mem_mergeSort, mem_distinct] at member
    rw [mem_distinct, List.mem_mergeSort] at otherMember
    obtain ⟨line, known⟩ := numbered a member
    obtain ⟨other, otherKnown⟩ := numbered b otherMember
    exact comesBefore_antisymm known otherKnown before after

/-- It makes no difference whether duplicates are left out before the locations are written. -/
theorem locationTexts_distinct {locations : List Location} (numbered : Numbered locations) :
    locationTexts (distinct locations) = locationTexts locations := by
  rw [locationTexts, locationTexts, mergeSort_distinct numbered, distinct_map_distinct]

theorem relocated_congr {locations others : List Location}
    (same : locationTexts locations = locationTexts others) :
    relocated locations = relocated others := by
  rw [relocated, relocated, locationLines, locationLines, same]

/-! ### Comments -/

theorem refilled_line {comments : List String} {comment : String}
    (member : comment ∈ refilled comments) : commentTexts comment.toList = [comment.toList] := by
  obtain ⟨text, part, rfl⟩ := List.mem_map.mp (mem_distinct.mp member)
  rw [String.toList_ofList]
  exact (isCommentText_textsOf part).again

/-- Comments that have been read are lines, and are not filled into lines anew. -/
theorem refilled_refilled (comments : List String) :
    refilled (refilled comments) = refilled comments := by
  have texts : textsOf (refilled comments) = (refilled comments).map String.toList := by
    rw [textsOf, List.flatMap_congr fun comment member => refilled_line member]
    exact List.map_eq_flatMap.symm
  have back : ((refilled comments).map String.toList).map String.ofList = refilled comments := by
    have same : ∀ comment ∈ refilled comments, (String.ofList ∘ String.toList) comment = comment :=
      fun comment _ => String.ofList_toList
    rw [List.map_map, List.map_congr_left same, List.map_id']
  rw [refilled, texts, back]
  exact distinct_of_nodup (nodup_distinct _)

/-! ### Catalogs that have been read -/

theorem properContext_properContext (context : Option String) :
    properContext (properContext context) = properContext context :=
  properContext_eq_self (properContext_ne context)

/-- An obsolete entry that has been read is read as it is. -/
theorem asReadObsolete_again (entry : Entry) :
    entry.asReadObsolete.asReadObsolete = entry.asReadObsolete := by
  simp only [Entry.asReadObsolete, refilled_refilled, properContext_properContext]
  rfl

/-- What is so of every catalog that has been written and read. -/
structure IsRead (catalog : Catalog) : Prop where
  keyed : catalog.WellKeyed
  plain : catalog.Plain
  proper : catalog.ProperContexts
  obsolete : ∀ pair ∈ catalog.obsolete, pair.1 = pair.2.key ∧ pair.2.asReadObsolete = pair.2

theorem empty_isRead : IsRead empty where
  keyed := empty_wellKeyed
  plain := ⟨by simp [Catalog.all, empty], by simp [Catalog.allObsolete, empty]⟩
  proper := by simp [ProperContexts, Catalog.all, empty]
  obsolete := by simp [empty]

theorem IsRead.set {catalog : Catalog} (read : catalog.IsRead) {entry : Entry}
    (shown : entry.isHeader = false) (plain : entry.isPlain = true)
    (proper : entry.context ≠ some "") :
    IsRead { catalog with entries := Dictionary.set entry.key entry catalog.entries } where
  keyed := read.keyed.set shown
  plain := ⟨all_set_plain read.plain.active plain _ _, read.plain.obsolete⟩
  proper other member := by
    rcases mem_all_set member with rfl | old
    · exact proper
    · exact read.proper other old
  obsolete := read.obsolete

theorem IsRead.add {catalog : Catalog} (read : catalog.IsRead) (entry : Entry) :
    (catalog.add entry.asRead).IsRead := by
  have proper : entry.asRead.context ≠ some "" := properContext_ne _
  simp only [Catalog.add]
  split
  · rename_i found present
    have member := Dictionary.mem_of_get? present
    have active : found ∈ catalog.all := mem_all.mpr ⟨_, member⟩
    have same : found.key = entry.asRead.key := (read.keyed.keyed _ member).symm
    have plain : (found.unite entry.asRead).isPlain = true := read.plain.active found active
    rw [← same, ← unite_key same]
    exact read.set (unite_isHeader (read.keyed.shown _ member)) plain (read.proper found active)
  · split
    · exact read
    · rename_i shown
      exact read.set (by simpa using shown) rfl proper

theorem IsRead.addObsolete {catalog : Catalog} (read : catalog.IsRead) (entry : Entry) :
    (catalog.addObsolete entry.asReadObsolete.key entry.asReadObsolete).IsRead where
  keyed := read.keyed.addObsolete (.inl rfl)
  plain := ⟨read.plain.active, addObsolete_plain rfl read.plain.obsolete _⟩
  proper := read.proper
  obsolete pair member := by
    rcases Dictionary.mem_set member with rfl | old
    · exact ⟨rfl, asReadObsolete_again entry⟩
    · exact read.obsolete pair old

theorem asRead_isRead (catalog : Catalog) : catalog.asRead.IsRead := by
  have active : (catalog.all.foldl (fun catalog entry => catalog.add entry.asRead) empty).IsRead :=
    List.foldlRecOn catalog.all _ empty_isRead fun _ read entry _ => read.add entry
  exact List.foldlRecOn catalog.allObsolete _ active fun _ read entry _ => read.addObsolete entry

theorem IsRead.obsoleteProper {catalog : Catalog} (read : catalog.IsRead) {entry : Entry}
    (member : entry ∈ catalog.allObsolete) : entry.context ≠ some "" := by
  obtain ⟨key, present⟩ := mem_allObsolete.mp member
  have own : entry.asReadObsolete = entry := (read.obsolete _ present).2
  rw [← own]
  exact properContext_ne _

/-- A catalog that has been read has one obsolete entry for a message at most. -/
theorem IsRead.orderly {catalog : Catalog} (read : catalog.IsRead) : catalog.Orderly where
  keyed := read.keyed
  plain := read.plain
  once := by
    refine nodup_of_keys read.keyed.obsoleteOnce fun pair member => ?_
    rw [(read.obsolete pair member).1]
    exact Entry.key_eq (read.obsoleteProper (List.mem_map_of_mem member))

end Phrasebook.Catalog

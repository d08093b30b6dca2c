import Mathlib.Data.List.Induction
import Phrasebook.Dictionary

set_option autoImplicit false

/-!
Laws of dictionaries: what a key finds after another one has been set or erased, and that no key
comes twice.
-/
namespace Phrasebook.Dictionary

variable {κ ν : Type}

def keys (d : Dictionary κ ν) : List κ := d.map (·.1)

@[simp] theorem keys_nil : keys ([] : Dictionary κ ν) = [] := rfl

@[simp] theorem keys_cons (pair : κ × ν) (d : Dictionary κ ν) :
    keys (pair :: d) = pair.1 :: keys d := rfl

theorem mem_keys_of_mem {pair : κ × ν} {d : Dictionary κ ν} (member : pair ∈ d) :
    pair.1 ∈ keys d := List.mem_map.mpr ⟨pair, member, rfl⟩

variable [BEq κ]

@[simp] theorem get?_nil (key : κ) : get? key ([] : Dictionary κ ν) = none := rfl

theorem ofPairs_concat (pairs : List (κ × ν)) (pair : κ × ν) :
    ofPairs (pairs ++ [pair]) = set pair.1 pair.2 (ofPairs pairs) :=
  List.foldl_append

theorem nodup_erase (key : κ) {d : Dictionary κ ν} (once : (keys d).Nodup) :
    (keys (erase key d)).Nodup :=
  once.sublist (List.filter_sublist.map _)

variable [LawfulBEq κ]

theorem get?_cons_self (key : κ) (value : ν) (d : Dictionary κ ν) :
    get? key ((key, value) :: d) = some value := List.lookup_cons_self

theorem get?_cons_ne {key other : κ} (value : ν) (d : Dictionary κ ν) (different : other ≠ key) :
    get? key ((other, value) :: d) = get? key d := by
  have unequal : (key == other) = false := by simpa using Ne.symm different
  simp [get?, List.lookup_cons, unequal]

theorem get?_eq_none {key : κ} {d : Dictionary κ ν} : get? key d = none ↔ key ∉ keys d := by
  induction d with
  | nil => simp
  | cons pair d ih =>
    obtain ⟨k, v⟩ := pair
    by_cases same : k = key
    · simp [same, get?_cons_self]
    · rw [get?_cons_ne _ _ same, ih]
      simp [Ne.symm same]

theorem mem_of_get? {key : κ} {value : ν} {d : Dictionary κ ν} (found : get? key d = some value) :
    (key, value) ∈ d := by
  induction d with
  | nil => simp at found
  | cons pair d ih =>
    by_cases same : pair.1 = key
    · subst same
      rw [get?_cons_self] at found
      simp [← Option.some.inj found]
    · rw [get?_cons_ne _ _ same] at found
      exact List.mem_cons_of_mem _ (ih found)

theorem get?_of_mem {key : κ} {value : ν} {d : Dictionary κ ν} (once : (keys d).Nodup)
    (member : (key, value) ∈ d) : get? key d = some value := by
  induction d with
  | nil => simp at member
  | cons pair d ih =>
    rw [keys_cons, List.nodup_cons] at once
    rcases List.mem_cons.mp member with rfl | later
    · exact get?_cons_self ..
    · have different : pair.1 ≠ key := fun same => once.1 (same ▸ mem_keys_of_mem later)
      rw [get?_cons_ne _ _ different]
      exact ih once.2 later

/-- The keys in their order find the values in theirs. -/
theorem map_get? {d : Dictionary κ ν} (once : (keys d).Nodup) :
    (keys d).map (fun key => get? key d) = d.map fun pair => some pair.2 := by
  rw [keys, List.map_map]
  exact List.map_congr_left fun pair member => get?_of_mem once member

/-- Dictionaries with the same keys, of which each finds in the one what it finds in the other
changed, have the same values, changed. -/
theorem map_values_eq {μ : Type} {change : ν → μ} {d : Dictionary κ ν} {other : Dictionary κ μ}
    (once : (keys d).Nodup) (same : keys d = keys other)
    (each : ∀ key ∈ keys other, (get? key d).map change = get? key other) :
    d.map (fun pair => change pair.2) = other.map fun pair => pair.2 := by
  have lifted : (d.map fun pair => change pair.2).map some =
      (other.map fun pair => pair.2).map some := by
    rw [List.map_map, List.map_map]
    calc d.map (fun pair => some (change pair.2))
        = (d.map fun pair => some pair.2).map (Option.map change) := by
          rw [List.map_map]
          rfl
      _ = (keys other).map fun key => (get? key d).map change := by
          rw [← map_get? once, List.map_map, same]
          rfl
      _ = other.map fun pair => some pair.2 := by
          rw [List.map_congr_left each, map_get? (same ▸ once)]
  exact (List.map_inj_right fun _ _ => Option.some.inj).mp lifted

theorem set_of_not_mem {key : κ} (value : ν) {d : Dictionary κ ν} (absent : key ∉ keys d) :
    set key value d = d ++ [(key, value)] := by
  induction d with
  | nil => rfl
  | cons pair d ih =>
    simp only [keys_cons, List.mem_cons, not_or] at absent
    simp [set, Ne.symm absent.1, ih absent.2]

theorem set_of_mem {key : κ} (value : ν) {d : Dictionary κ ν} (present : key ∈ keys d) :
    ∃ front old back, d = front ++ (key, old) :: back ∧ key ∉ keys front ∧
      set key value d = front ++ (key, value) :: back := by
  induction d with
  | nil => simp at present
  | cons pair d ih =>
    obtain ⟨k, v⟩ := pair
    by_cases same : k = key
    · exact ⟨[], v, d, by simp [same], by simp, by simp [set, same]⟩
    · have later : key ∈ keys d := by simpa [Ne.symm same] using present
      obtain ⟨front, old, back, split, fresh, placed⟩ := ih later
      refine ⟨(k, v) :: front, old, back, by simp [split], ?_, by simp [set, same, placed]⟩
      simpa [Ne.symm same] using fresh

theorem keys_set_of_mem {key : κ} (value : ν) {d : Dictionary κ ν} (present : key ∈ keys d) :
    keys (set key value d) = keys d := by
  obtain ⟨front, old, back, split, -, placed⟩ := set_of_mem value present
  rw [placed, split]
  simp [keys]

theorem nodup_set (key : κ) (value : ν) {d : Dictionary κ ν} (once : (keys d).Nodup) :
    (keys (set key value d)).Nodup := by
  by_cases present : key ∈ keys d
  · rwa [keys_set_of_mem value present]
  · rw [set_of_not_mem value present, keys, List.map_append, List.nodup_append]
    refine ⟨once, by simp, ?_⟩
    rintro k member _ last rfl
    simp only [List.map_cons, List.map_nil, List.mem_singleton] at last
    exact present (last ▸ member)

theorem get?_set_self (key : κ) (value : ν) (d : Dictionary κ ν) :
    get? key (set key value d) = some value := by
  induction d with
  | nil => exact get?_cons_self ..
  | cons pair d ih =>
    by_cases same : pair.1 = key
    · simp [set, same, get?_cons_self]
    · simp only [set, beq_iff_eq, same, if_false]
      rw [get?_cons_ne _ _ same, ih]

theorem get?_set_ne {key other : κ} (value : ν) (d : Dictionary κ ν) (different : other ≠ key) :
    get? other (set key value d) = get? other d := by
  induction d with
  | nil => exact get?_cons_ne _ _ (Ne.symm different)
  | cons pair d ih =>
    obtain ⟨k, v⟩ := pair
    by_cases same : k = key
    · simp only [set, beq_iff_eq, same, if_true]
      rw [get?_cons_ne _ _ (Ne.symm different), get?_cons_ne _ _ (Ne.symm different)]
    · simp only [set, beq_iff_eq, same, if_false]
      by_cases this : k = other
      · simp [this, get?_cons_self]
      · rw [get?_cons_ne _ _ this, get?_cons_ne _ _ this, ih]

theorem get?_append_of_not_mem {key : κ} {front : Dictionary κ ν} (back : Dictionary κ ν)
    (absent : key ∉ keys front) : get? key (front ++ back) = get? key back := by
  induction front with
  | nil => rfl
  | cons pair front ih =>
    simp only [keys_cons, List.mem_cons, not_or] at absent
    rw [List.cons_append, get?_cons_ne _ _ (Ne.symm absent.1), ih absent.2]

/-- A key that is set again keeps its place. -/
theorem set_of_get? {key : κ} {old : ν} (value : ν) {d : Dictionary κ ν}
    (found : get? key d = some old) :
    ∃ front back, d = front ++ (key, old) :: back ∧
      set key value d = front ++ (key, value) :: back := by
  obtain ⟨front, former, back, split, fresh, placed⟩ :=
    set_of_mem value (mem_keys_of_mem (mem_of_get? found))
  rw [split, get?_append_of_not_mem _ fresh, get?_cons_self] at found
  exact ⟨front, back, Option.some.inj found ▸ split, placed⟩

theorem mem_set {key : κ} {value : ν} {pair : κ × ν} {d : Dictionary κ ν}
    (member : pair ∈ set key value d) : pair = (key, value) ∨ pair ∈ d := by
  induction d with
  | nil => exact .inl (by simpa [set] using member)
  | cons first d ih =>
    simp only [set] at member
    split at member
    · rename_i same
      rcases List.mem_cons.mp member with rfl | later
      · exact .inl (by simp [beq_iff_eq.mp same])
      · exact .inr (List.mem_cons_of_mem _ later)
    · rcases List.mem_cons.mp member with rfl | later
      · exact .inr (by simp)
      · exact (ih later).imp_right (List.mem_cons_of_mem _)

theorem mem_erase {key : κ} {pair : κ × ν} {d : Dictionary κ ν} :
    pair ∈ erase key d ↔ pair ∈ d ∧ pair.1 ≠ key := by
  simp [erase, List.mem_filter]

/-! ### Pairs set one after another -/

theorem nodup_ofPairs (pairs : List (κ × ν)) : (keys (ofPairs pairs)).Nodup := by
  induction pairs using List.reverseRecOn with
  | nil => exact List.nodup_nil
  | append_singleton pairs pair ih =>
    rw [ofPairs_concat]
    exact nodup_set pair.1 pair.2 ih

theorem mem_ofPairs {pair : κ × ν} {pairs : List (κ × ν)} (member : pair ∈ ofPairs pairs) :
    pair ∈ pairs := by
  induction pairs using List.reverseRecOn with
  | nil => simp [ofPairs] at member
  | append_singleton pairs last ih =>
    rw [ofPairs_concat] at member
    rw [List.mem_append, List.mem_singleton]
    exact (mem_set member).symm.imp_left ih

/-- Pairs of which no two have one key stay as they are. -/
theorem ofPairs_of_nodup {pairs : List (κ × ν)} (once : (keys pairs).Nodup) :
    ofPairs pairs = pairs := by
  induction pairs using List.reverseRecOn with
  | nil => rfl
  | append_singleton pairs pair ih =>
    rw [keys, List.map_append, List.nodup_append] at once
    obtain ⟨front, -, apart⟩ := once
    have absent : pair.1 ∉ keys pairs := by
      intro present
      exact apart pair.1 present pair.1 (List.mem_singleton_self _) rfl
    rw [ofPairs_concat, ih front, set_of_not_mem pair.2 absent]

/-- Of several pairs with one key the last one counts. -/
theorem get?_ofPairs (key : κ) (pairs : List (κ × ν)) :
    get? key (ofPairs pairs) =
      (pairs.filterMap fun pair => if pair.1 == key then some pair.2 else none).getLast? := by
  induction pairs using List.reverseRecOn with
  | nil => rfl
  | append_singleton pairs pair ih =>
    rw [ofPairs_concat, List.filterMap_append, List.getLast?_append]
    by_cases own : pair.1 = key
    · subst own
      rw [get?_set_self]
      simp
    · rw [get?_set_ne _ _ (Ne.symm own), ih]
      simp [own]

end Phrasebook.Dictionary

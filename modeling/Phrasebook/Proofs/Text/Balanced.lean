import Mathlib.Data.List.Count
import Mathlib.Data.List.Infix

set_option autoImplicit false

/-!
Where a part of a text ends: before the first mark, or at the bracket that closes more than has been
opened. In both ways the part can be told from what follows it.
-/
namespace Phrasebook.Text

variable {α : Type}

/-- A part without stops ends where what follows it begins with a stop, or with nothing. -/
theorem append_stop_injective {stops : α → Prop} {front other back rest : List α}
    (free : ∀ item ∈ front, ¬stops item) (freeOther : ∀ item ∈ other, ¬stops item)
    (begins : ∀ item ∈ back.head?, stops item) (beginsRest : ∀ item ∈ rest.head?, stops item)
    (same : front ++ back = other ++ rest) : front = other ∧ back = rest := by
  rcases List.append_eq_append_iff.mp same with ⟨tail, rfl, rfl⟩ | ⟨tail, rfl, rfl⟩
  · cases tail with
    | nil => exact ⟨(List.append_nil front).symm, rfl⟩
    | cons item tail => exact absurd (begins item rfl) (freeOther item (by simp))
  · cases tail with
    | nil => exact ⟨List.append_nil other, rfl⟩
    | cons item tail => exact absurd (beginsRest item rfl) (free item (by simp))

theorem append_mark_injective {mark : α} {front other back rest : List α} (absent : mark ∉ front)
    (absentOther : mark ∉ other) (begins : ∀ item ∈ back.head?, item = mark)
    (beginsRest : ∀ item ∈ rest.head?, item = mark) (same : front ++ back = other ++ rest) :
    front = other ∧ back = rest := by
  refine append_stop_injective ?_ ?_ begins beginsRest same
  · rintro item member rfl
    exact absent member
  · rintro item member rfl
    exact absentOther member

variable [BEq α] [LawfulBEq α] {opening closing : α}

/-- As many brackets close as open, and no beginning closes more than it opens. -/
structure IsBalanced (opening closing : α) (text : List α) : Prop where
  level : text.count closing = text.count opening
  within : ∀ front, front <+: text → front.count closing ≤ front.count opening

instance (opening closing : α) (text : List α) : Decidable (IsBalanced opening closing text) :=
  decidable_of_iff
    (text.count closing = text.count opening ∧
      ∀ front ∈ text.inits, front.count closing ≤ front.count opening) <| by
    constructor
    · rintro ⟨level, within⟩
      exact ⟨level, fun front start => within front ((List.mem_inits front text).mpr start)⟩
    · rintro ⟨level, within⟩
      exact ⟨level, fun front start => within front ((List.mem_inits front text).mp start)⟩

/-- A bracket that closes behind a balanced text closes more than is open. -/
theorem IsBalanced.not_closed {text : List α} (balanced : IsBalanced opening closing text)
    (apart : closing ≠ opening) (more : List α) :
    ¬IsBalanced opening closing (text ++ closing :: more) := by
  intro longer
  have start : text ++ [closing] <+: text ++ closing :: more := ⟨more, by simp⟩
  have most := longer.within _ start
  have level := balanced.level
  rw [List.count_append, List.count_append, List.count_singleton_self,
    List.count_singleton] at most
  simp only [beq_iff_eq, apart, if_false] at most
  omega

/-- A balanced text ends at the first bracket that closes more than it opens. -/
theorem IsBalanced.append_injective {text other more rest : List α}
    (balanced : IsBalanced opening closing text) (balancedOther : IsBalanced opening closing other)
    (apart : closing ≠ opening) (same : text ++ closing :: more = other ++ closing :: rest) :
    text = other ∧ more = rest := by
  rcases List.append_eq_append_iff.mp same with ⟨tail, rfl, after⟩ | ⟨tail, rfl, after⟩
  · cases tail with
    | nil => exact ⟨(List.append_nil text).symm, (List.cons.inj after).2⟩
    | cons item tail =>
      obtain rfl : closing = item := (List.cons.inj after).1
      exact absurd balancedOther (balanced.not_closed apart tail)
  · cases tail with
    | nil => exact ⟨List.append_nil other, (List.cons.inj after).2.symm⟩
    | cons item tail =>
      obtain rfl : closing = item := (List.cons.inj after).1
      exact absurd balanced (balancedOther.not_closed apart tail)

/-- Items that are changed one for one keep their balance. -/
theorem IsBalanced.map {β : Type} [BEq β] [LawfulBEq β] {change : α → β}
    (injective : Function.Injective change) {text : List α}
    (balanced : IsBalanced opening closing text) :
    IsBalanced (change opening) (change closing) (text.map change) where
  level := by
    rw [List.count_map_of_injective _ _ injective, List.count_map_of_injective _ _ injective,
      balanced.level]
  within front start := by
    obtain ⟨own, first, rfl⟩ := List.prefix_map_iff.mp start
    rw [List.count_map_of_injective _ _ injective, List.count_map_of_injective _ _ injective]
    exact balanced.within own first

end Phrasebook.Text

import Phrasebook.Text.Split

set_option autoImplicit false

/-!
Texts without blanks at their ends: what trimming leaves, and what trimming leaves alone. Texts with a
given beginning.
-/
namespace Phrasebook.Text

/-- Neither the first nor the last item is of a kind. An empty list has neither. -/
structure Trim {α : Type} (removed : α → Bool) (items : List α) : Prop where
  first : ∀ item, items.head? = some item → removed item = false
  last : ∀ item, items.getLast? = some item → removed item = false

instance {α : Type} (removed : α → Bool) (items : List α) : Decidable (Trim removed items) :=
  decidable_of_iff
    (items.head?.all (!removed ·) = true ∧ items.getLast?.all (!removed ·) = true) <| by
    constructor
    · rintro ⟨first, last⟩
      exact ⟨fun item found => by simpa [found] using first,
        fun item found => by simpa [found] using last⟩
    · rintro ⟨first, last⟩
      exact ⟨by simpa [Option.all_eq_true] using first, by simpa [Option.all_eq_true] using last⟩

section Items

variable {α : Type} {removed : α → Bool} {items : List α}

theorem Trim.of_all (all : ∀ item ∈ items, removed item = false) : Trim removed items where
  first item first := all item (List.mem_of_head? first)
  last item last := all item (List.mem_of_getLast? last)

theorem dropWhile_of_head (first : ∀ item, items.head? = some item → removed item = false) :
    items.dropWhile removed = items := by
  cases items with
  | nil => rfl
  | cons item rest => rw [List.dropWhile_cons_of_neg (by simp [first item rfl])]

theorem head_dropWhile (item : α) (first : (items.dropWhile removed).head? = some item) :
    removed item = false := by
  have none := List.head?_dropWhile_not removed items
  rw [first] at none
  exact none

theorem Trim.ends (trim : Trim removed items) :
    ((items.dropWhile removed).reverse.dropWhile removed).reverse = items := by
  have back : ∀ item, items.reverse.head? = some item → removed item = false := fun item first =>
    trim.last item (by rwa [List.head?_reverse] at first)
  rw [dropWhile_of_head trim.first, dropWhile_of_head back, List.reverse_reverse]

end Items

section Trimmed

variable {removed : Char → Bool} {text : List Char}

theorem Trim.trimmed_eq (trim : Trim removed text) : trimmed removed text = text := trim.ends

theorem stripped_of_shown (shown : ∀ c ∈ text, isBlank c = false) : stripped text = text :=
  Trim.trimmed_eq (.of_all shown)

/-- Trimming takes characters of the kind off both ends. -/
theorem exists_trimmed (removed : Char → Bool) (text : List Char) :
    ∃ front back, text = front ++ trimmed removed text ++ back ∧
      front.all removed = true ∧ back.all removed = true := by
  have whole := List.takeWhile_append_dropWhile (p := removed) (l := text)
  have rest := List.takeWhile_append_dropWhile (p := removed)
    (l := (text.dropWhile removed).reverse)
  refine ⟨text.takeWhile removed, ((text.dropWhile removed).reverse.takeWhile removed).reverse,
    ?_, List.all_takeWhile, ?_⟩
  · rw [trimmed, List.append_assoc, ← List.reverse_append, rest, List.reverse_reverse, whole]
  · rw [List.all_reverse]
    exact List.all_takeWhile

theorem trim_trimmed (removed : Char → Bool) (text : List Char) :
    Trim removed (trimmed removed text) where
  first c first := by
    -- what is left is a beginning of the text without its first characters
    obtain ⟨back, whole⟩ : trimmed removed text <+: text.dropWhile removed := by
      have suffix := List.dropWhile_suffix (l := (text.dropWhile removed).reverse) removed
      rwa [← List.reverse_prefix, List.reverse_reverse] at suffix
    have start : (text.dropWhile removed).head? = some c := by
      rw [← whole, List.head?_append, first]
      rfl
    exact head_dropWhile c start
  last c last := by
    rw [trimmed, List.getLast?_reverse] at last
    exact head_dropWhile c last

theorem mem_of_mem_trimmed {c : Char} (member : c ∈ trimmed removed text) : c ∈ text := by
  obtain ⟨front, back, whole, -, -⟩ := exists_trimmed removed text
  rw [whole]
  simp [member]

theorem length_trimmed_le : (trimmed removed text).length ≤ text.length := by
  obtain ⟨front, back, whole, -, -⟩ := exists_trimmed removed text
  have lengths := congrArg List.length whole
  simp only [List.length_append] at lengths
  omega

/-- A text that keeps a character keeps all that is not of the kind. -/
theorem trimmed_ne_nil {c : Char} (member : c ∈ text) (kept : removed c = false) :
    trimmed removed text ≠ [] := by
  obtain ⟨front, back, whole, before, after⟩ := exists_trimmed removed text
  intro empty
  rw [whole, empty, List.append_nil, List.mem_append] at member
  rcases member with early | late
  · simp [List.all_eq_true.mp before c early] at kept
  · simp [List.all_eq_true.mp after c late] at kept

end Trimmed

/-! ### Beginnings -/

theorem dropStart_eq_some {start text after : List Char} :
    dropStart start text = some after ↔ text = start ++ after := by
  fun_induction dropStart start text with
  | case1 text => simp
  | case2 => simp
  | case3 _ _ _ ih => simp [ih]
  | case4 _ _ _ _ different => simp [Ne.symm different]

theorem length_dropStart {start text after : List Char}
    (starts : dropStart start text = some after) : text.length = start.length + after.length := by
  rw [dropStart_eq_some.mp starts, List.length_append]

theorem startsWith_iff {start text : List Char} : startsWith start text = true ↔ start <+: text := by
  rw [startsWith, Option.isSome_iff_exists]
  constructor
  · rintro ⟨after, starts⟩
    exact ⟨after, (dropStart_eq_some.mp starts).symm⟩
  · rintro ⟨after, cut⟩
    exact ⟨after, dropStart_eq_some.mpr cut.symm⟩

end Phrasebook.Text

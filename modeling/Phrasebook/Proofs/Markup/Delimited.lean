import Phrasebook.Proofs.Markup.Blanking

set_option autoImplicit false

/-!
Blanking out the texts between two marks, the leftmost and shortest ones. Only they change, and no
such text is left: an opening mark that stays has no closing one behind it.
-/
namespace Phrasebook.Markup

/-! ### Texts between marks -/

/-- The texts from an opening to a closing. -/
def Delimited (opens closes : List Char → Prop) (found : List Char) : Prop :=
  ∃ opening inner closing, opens opening ∧ closes closing ∧ found = opening ++ (inner ++ closing)

theorem Delimited.begins {opens closes : List Char → Prop} {found : List Char}
    (between : Delimited opens closes found)
    (begins : ∀ opening, opens opening → ∃ rest, opening = '<' :: rest) :
    ∃ rest, found = '<' :: rest := by
  obtain ⟨opening, inner, closing, starts, -, rfl⟩ := between
  obtain ⟨rest, rfl⟩ := begins opening starts
  exact ⟨rest ++ (inner ++ closing), rfl⟩

/-- The shortest text of a kind that a text starts with. -/
structure IsShortest (kind : List Char → Prop) (found text : List Char) : Prop where
  holds : kind found
  starts : found <+: text
  shortest : ∀ other, kind other → other <+: text → found.length ≤ other.length

/-- From left to right, the shortest texts of a kind are blanked out. A character stays where none of
them starts. -/
inductive Blanked (kind : List Char → Prop) : List Char → List Char → Prop
  | nil : Blanked kind [] []
  | keep {c : Char} {text result : List Char} (none : ∀ found, kind found → ¬found <+: c :: text)
      (more : Blanked kind text result) : Blanked kind (c :: text) (c :: result)
  | blank {found rest result : List Char} (some : found ≠ [])
      (shortest : IsShortest kind found (found ++ rest)) (more : Blanked kind rest result) :
      Blanked kind (found ++ rest) (found.map blanked ++ result)

/-! ### The loop -/

/-- A length is that of the shortest text of a kind that a text starts with; zero if there is none. -/
def Measures (kind : List Char → Prop) (matchLength : List Char → Nat) : Prop :=
  ∀ text, (matchLength text = 0 ∧ ∀ found, kind found → ¬found <+: text) ∨
    ∃ found rest, text = found ++ rest ∧ found.length = matchLength text ∧ found ≠ [] ∧
      IsShortest kind found text

theorem blankMatches_pending (matchLength : List Char → Nat) (found rest : List Char) :
    blankMatches matchLength found.length (found ++ rest) =
      found.map blanked ++ blankMatches matchLength 0 rest := by
  induction found with
  | nil => rfl
  | cons c found ih => rw [List.length_cons, List.cons_append, blankMatches, ih]; rfl

theorem blankMatches_blanked {kind : List Char → Prop} {matchLength : List Char → Nat}
    (measures : Measures kind matchLength) (text : List Char) :
    Blanked kind text (blankMatches matchLength 0 text) := by
  induction length : text.length using Nat.strongRecOn generalizing text with
  | ind size ih =>
    cases text with
    | nil => exact .nil
    | cons c text =>
      rcases measures (c :: text) with ⟨zero, none⟩ | ⟨found, rest, cut, same, some, shortest⟩
      · rw [blankMatches, zero]
        exact .keep none (ih text.length (by rw [← length]; exact Nat.lt_succ_self _) text rfl)
      · have shorter : rest.length < size := by
          have positive := List.length_pos_iff.mpr some
          rw [← length, cut, List.length_append]
          omega
        have all : blankMatches matchLength 0 (c :: text) =
            found.map blanked ++ blankMatches matchLength 0 rest := by
          cases found with
          | nil => exact absurd rfl some
          | cons d found =>
            obtain ⟨rfl, tail⟩ := List.cons.inj cut
            have inner : text = found ++ rest := tail
            rw [blankMatches, ← same, List.length_cons, inner]
            dsimp only
            rw [blankMatches_pending]
            rfl
        rw [all, cut]
        rw [cut] at shortest
        exact .blank some shortest (ih rest.length shorter rest rfl)

/-! ### What changes -/

section Changes

variable {kind : List Char → Prop} {text result : List Char}

theorem map_blanked_fades (found : List Char) : Fades found (found.map blanked) := by
  induction found with
  | nil => exact .nil
  | cons c found ih => exact .cons (.inr rfl) ih

theorem Blanked.fades (gives : Blanked kind text result) : Fades text result := by
  induction gives with
  | nil => exact .nil
  | keep _ _ ih => exact .cons (.inl rfl) ih
  | blank _ _ _ ih => exact List.rel_append (map_blanked_fades _) ih

/-- Where no text of the kind is, nothing changes. -/
theorem Blanked.eq_of_none (gives : Blanked kind text result)
    (none : ∀ found, kind found → ¬found <:+: text) : result = text := by
  induction gives with
  | nil => rfl
  | keep _ _ ih =>
    rw [ih fun found holds inside => none found holds (List.infix_cons inside)]
  | blank _ shortest _ _ =>
    exact absurd shortest.starts.isInfix (none _ shortest.holds)

/-- A character that changes lies in a text of the kind. -/
theorem Blanked.inside (gives : Blanked kind text result) {index : Nat}
    (changed : result[index]? ≠ text[index]?) :
    ∃ front found rest, text = front ++ (found ++ rest) ∧ kind found ∧ front.length ≤ index ∧
      index < front.length + found.length := by
  induction gives generalizing index with
  | nil => exact absurd rfl changed
  | @keep c text result _ _ ih =>
    cases index with
    | zero => exact absurd rfl changed
    | succ index =>
      rw [List.getElem?_cons_succ, List.getElem?_cons_succ] at changed
      obtain ⟨front, found, rest, cut, holds, from_, upTo⟩ := ih changed
      refine ⟨c :: front, found, rest, by rw [cut, List.cons_append], holds, ?_, ?_⟩
      · exact Nat.succ_le_succ from_
      · rw [List.length_cons]
        omega
  | @blank found rest result _ shortest _ ih =>
    by_cases within : index < found.length
    · exact ⟨[], found, rest, rfl, shortest.holds, Nat.zero_le _, by simpa using within⟩
    · have far : found.length ≤ index := Nat.le_of_not_lt within
      rw [List.getElem?_append_right (by simpa using far), List.getElem?_append_right far,
        List.length_map] at changed
      obtain ⟨front, other, behind, cut, holds, from_, upTo⟩ := ih changed
      refine ⟨found ++ front, other, behind, by rw [cut, List.append_assoc], holds, ?_, ?_⟩
      · rw [List.length_append]
        omega
      · rw [List.length_append]
        omega

/-- Nothing in front of an angle bracket that opens is blanked out. -/
theorem Blanked.front (begins : ∀ found, kind found → ∃ rest, found = '<' :: rest)
    {front rest : List Char} (plain : '<' ∉ front) (gives : Blanked kind (front ++ rest) result) :
    ∃ after, result = front ++ after ∧ Blanked kind rest after := by
  induction front generalizing result with
  | nil => exact ⟨result, rfl, gives⟩
  | cons c front ih =>
    rw [List.mem_cons, not_or] at plain
    generalize cut : c :: front ++ rest = whole at gives
    cases gives with
    | nil => cases cut
    | keep _ more =>
      obtain ⟨rfl, rfl⟩ := List.cons.inj cut
      obtain ⟨after, rfl, behind⟩ := ih plain.2 more
      exact ⟨after, rfl, behind⟩
    | blank some shortest _ =>
      obtain ⟨inner, rfl⟩ := begins _ shortest.holds
      exact absurd (List.cons.inj cut).1.symm plain.1

end Changes

/-! ### What is left

An opening without a closing behind it stays alone. Therefore a text between marks that would be left
would have been found before.
-/

/-- Marks between which texts are blanked out. -/
structure Marks (opens closes : List Char → Prop) : Prop where
  begins : ∀ opening, opens opening → ∃ rest, opening = '<' :: rest
  /-- An opening that starts later ends no earlier. -/
  late : ∀ opening other front text, opens opening → opens other → front ≠ [] →
    opening <+: front ++ text → other <+: text → opening.length ≤ front.length + other.length
  /-- An opening that is left was one before, up to its end. -/
  reopens : ∀ opening c text result, opens opening → Blanked (Delimited opens closes) text result →
    opening <+: c :: result → ∃ before, opens before ∧ before <+: c :: text

section Left

variable {opens closes : List Char → Prop}

/-- Behind an opening without a closing nothing is between marks. -/
theorem Marks.alone (marks : Marks opens closes) {opening text : List Char} (starts : opens opening)
    (stands : opening <+: text) (none : ∀ found, Delimited opens closes found → ¬found <+: text)
    (found : List Char) (between : Delimited opens closes found) : ¬found <:+: text := by
  rintro ⟨front, rest, cut⟩
  by_cases first : front = []
  · rw [first, List.nil_append] at cut
    exact none found between ⟨rest, cut⟩
  obtain ⟨other, inner, closing, otherStarts, ends, rfl⟩ := between
  have parts : text = (front ++ other) ++ (inner ++ (closing ++ rest)) := by
    rw [← cut]
    simp only [List.append_assoc]
  have tail : text = front ++ (other ++ (inner ++ (closing ++ rest))) := by
    rw [parts, List.append_assoc]
  have shorter := marks.late opening other front _ starts otherStarts first (tail ▸ stands)
    (List.prefix_append _ _)
  -- the opening lies in front of the closing that the later text ends with
  have within : opening <+: front ++ other :=
    List.prefix_of_prefix_length_le stands ⟨_, parts.symm⟩ (by rwa [List.length_append])
  obtain ⟨gap, filled⟩ := within
  refine none (opening ++ ((gap ++ inner) ++ closing)) ⟨opening, gap ++ inner, closing, starts, ends, rfl⟩
    ⟨rest, ?_⟩
  rw [parts, ← filled]
  simp only [List.append_assoc]

theorem infix_of_not_mem {found front rest : List Char} {c : Char} (plain : c ∉ front)
    (inside : c :: found <:+: front ++ rest) : c :: found <:+: rest := by
  induction front with
  | nil => exact inside
  | cons d front ih =>
    rw [List.mem_cons, not_or] at plain
    rcases List.infix_cons_iff.mp inside with starts | later
    · exact absurd (List.cons_prefix_cons.mp starts).1 plain.1
    · exact ih plain.2 later

theorem opening_not_mem_blanked (found : List Char) : '<' ∉ found.map blanked := by
  intro member
  obtain ⟨c, -, same⟩ := List.mem_map.mp member
  rw [blanked] at same
  split at same <;> exact absurd same (by decide)

/-- No text between marks is left. -/
theorem Marks.none_left (marks : Marks opens closes) {text result : List Char}
    (gives : Blanked (Delimited opens closes) text result) (found : List Char)
    (between : Delimited opens closes found) : ¬found <:+: result := by
  obtain ⟨rest, shape⟩ := between.begins marks.begins
  induction gives with
  | nil =>
    intro inside
    rw [List.infix_nil.mp inside] at shape
    cases shape
  | @keep c text result none more ih =>
    intro inside
    rcases List.infix_cons_iff.mp inside with starts | later
    · obtain ⟨opening, inner, closing, opened, closed, parts⟩ := id between
      have stands : opening <+: c :: result := (parts ▸ List.prefix_append _ _).trans starts
      obtain ⟨before, openedBefore, standsBefore⟩ :=
        marks.reopens opening c text result opened more stands
      have alone := marks.alone openedBefore standsBefore none
      have same := more.eq_of_none fun other holds inner => alone other holds (List.infix_cons inner)
      rw [same] at starts
      exact none found between starts
    · exact ih later
  | blank _ _ _ ih =>
    intro inside
    rw [shape] at inside ih
    exact ih (infix_of_not_mem (opening_not_mem_blanked _) inside)

end Left

/-! ### The first closing mark -/

section Closing

variable {closes : List Char → Prop} {test : List Char → Bool} {text : List Char}

/-- Where no closing mark is found, none stands. -/
theorem not_closing_of_findFirst
    (tests : ∀ {text}, test text = true ↔ ∃ closing, closes closing ∧ closing <+: text)
    (absent : findFirst test text = none) {gap closing : List Char} (ends : closes closing) :
    ¬gap ++ closing <+: text := by
  rintro ⟨rest, cut⟩
  have fails := findFirst_eq_none absent gap (closing ++ rest) (by rw [← cut, List.append_assoc])
  rw [tests.mpr ⟨closing, ends, List.prefix_append _ _⟩] at fails
  cases fails

/-- The place that is found is that of a closing mark, and none stands before it. -/
theorem exists_closing_of_findFirst
    (tests : ∀ {text}, test text = true ↔ ∃ closing, closes closing ∧ closing <+: text)
    {count : Nat} {found : List Char} (place : findFirst test text = some (count, found)) :
    ∃ inner closing rest, text = inner ++ (closing ++ rest) ∧ inner.length = count ∧
      found = closing ++ rest ∧ closes closing ∧
      ∀ gap other, closes other → gap ++ other <+: text → inner.length ≤ gap.length := by
  obtain ⟨inner, cut, length, holds, earlier⟩ := findFirst_eq_some place
  obtain ⟨closing, ends, rest, rfl⟩ := tests.mp holds
  refine ⟨inner, closing, rest, cut, length, rfl, ends, ?_⟩
  rintro gap other otherEnds ⟨behind, begins⟩
  by_contra before
  have fails := earlier gap.length (by omega)
  rw [← begins, List.append_assoc, List.drop_left,
    tests.mpr ⟨other, otherEnds, List.prefix_append _ _⟩] at fails
  cases fails

end Closing

/-- The shortest text between marks goes from an opening to the first closing behind it. -/
theorem isShortest_delimited {opens closes : List Char → Prop} {opening inner closing rest : List Char}
    (starts : opens opening) (ends : closes closing)
    (single : ∀ other, opens other → other <+: opening ++ (inner ++ (closing ++ rest)) →
      other = opening)
    (first : ∀ gap other, closes other → gap ++ other <+: inner ++ (closing ++ rest) →
      inner.length + closing.length ≤ gap.length + other.length) :
    IsShortest (Delimited opens closes) (opening ++ (inner ++ closing))
      (opening ++ (inner ++ (closing ++ rest))) where
  holds := ⟨opening, inner, closing, starts, ends, rfl⟩
  starts := ⟨rest, by simp only [List.append_assoc]⟩
  shortest := by
    rintro other ⟨own, gap, last, ownStarts, lastEnds, rfl⟩ begins
    have same := single own ownStarts ((List.prefix_append _ _).trans begins)
    rw [same] at begins ⊢
    have least := first gap last lastEnds ((List.prefix_append_right_inj opening).mp begins)
    simp only [List.length_append]
    omega

end Phrasebook.Markup

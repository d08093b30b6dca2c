import Mathlib.Data.List.Induction
import Mathlib.Data.List.TakeWhile
import Phrasebook.Source.Position

set_option autoImplicit false

/-!
Positions by a cursor that goes over a text, character by character. Later positions are greater, and
the cursor of a fragment goes along with that of the file.
-/
namespace Phrasebook.Source

/-- The position after a character. -/
def Position.after (position : Position) (c : Char) : Position :=
  if c = '\n' then ⟨position.line + 1, 0⟩ else ⟨position.line, position.column + 1⟩

/-- The position after a text. -/
def Position.past (position : Position) (text : List Char) : Position :=
  text.foldl Position.after position

theorem Position.past_append (position : Position) (first rest : List Char) :
    position.past (first ++ rest) = (position.past first).past rest :=
  List.foldl_append

/-- How far the last line feed of a text is from its end. -/
def lastLineLength (text : List Char) : Nat := (text.reverse.takeWhile (· ≠ '\n')).length

theorem lastLineLength_concat (text : List Char) (c : Char) :
    lastLineLength (text ++ [c]) = if c = '\n' then 0 else lastLineLength text + 1 := by
  rw [lastLineLength, lastLineLength, List.reverse_append, List.reverse_singleton,
    List.singleton_append, List.takeWhile_cons]
  by_cases feed : c = '\n'
  · rw [if_pos feed, if_neg (by simp [feed]), List.length_nil]
  · rw [if_neg feed, if_pos (by simp [feed]), List.length_cons]

theorem past_start (text : List Char) :
    Position.past ⟨1, 0⟩ text = ⟨1 + text.count '\n', lastLineLength text⟩ := by
  induction text using List.reverseRecOn with
  | nil => rfl
  | append_singleton text c ih =>
    rw [Position.past_append, ih, Position.past, List.foldl_cons, List.foldl_nil, Position.after,
      lastLineLength_concat, List.count_append, List.count_singleton]
    by_cases feed : c = '\n'
    · simp only [feed, if_true, beq_self_eq_true]
      congr 1
    · simp only [feed, if_false, beq_iff_eq]
      congr 1

/-! ### The table of lines -/

theorem startsBehind_append (number : Nat) (front rest : List Char) :
    startsBehind number (front ++ rest) =
      startsBehind number front ++ startsBehind (number + front.length) rest := by
  induction front generalizing number with
  | nil => rfl
  | cons c front ih =>
    have behind : number + (front.length + 1) = number + 1 + front.length := by omega
    rw [List.cons_append, startsBehind, startsBehind, ih, List.length_cons, behind]
    split <;> rfl

theorem mem_startsBehind {number start : Nat} {text : List Char}
    (member : start ∈ startsBehind number text) : number < start ∧ start ≤ number + text.length := by
  induction text generalizing number with
  | nil => cases member
  | cons c text ih =>
    have later : start ∈ startsBehind (number + 1) text →
        number < start ∧ start ≤ number + (text.length + 1) := by
      intro inside
      have bounds := ih inside
      omega
    rw [startsBehind] at member
    rw [List.length_cons]
    split at member
    · rcases List.mem_cons.mp member with rfl | inside
      · omega
      · exact later inside
    · exact later member

theorem length_startsBehind (number : Nat) (text : List Char) :
    (startsBehind number text).length = text.count '\n' := by
  induction text generalizing number with
  | nil => rfl
  | cons c text ih =>
    rw [startsBehind, List.count_cons]
    by_cases feed : c = '\n'
    · rw [if_pos feed, List.length_cons, ih, if_pos (by simp [feed])]
    · rw [if_neg feed, ih, if_neg (by simp [feed]), Nat.add_zero]

/-- The last line of a text starts behind its last line feed. -/
theorem getLast_startsBehind (text : List Char) :
    (0 :: startsBehind 0 text).getLast (List.cons_ne_nil _ _) + lastLineLength text = text.length := by
  induction text using List.reverseRecOn with
  | nil => rfl
  | append_singleton text c ih =>
    simp only [startsBehind_append, lastLineLength_concat, List.length_append, List.length_singleton,
      Nat.zero_add, startsBehind]
    by_cases feed : c = '\n'
    · simp only [feed, if_true, Nat.add_zero, ← List.cons_append, List.getLast_concat]
    · simp only [feed, if_false, List.append_nil]
      omega

/-- The bounds close in on the border between the numbers that are not greater and those that are. -/
theorem bisectRight_eq {table : Array Nat} {number : Nat} {small large : List Nat}
    (parted : table.toList = small ++ large) (least : ∀ other ∈ small, other ≤ number)
    (most : ∀ other ∈ large, number < other) {steps low high : Nat} (enough : high ≤ low + steps)
    (above : low ≤ small.length) (below : small.length ≤ high) (within : high ≤ table.size) :
    bisectRight table number steps low high = small.length := by
  have size : table.size = small.length + large.length := by
    rw [← Array.length_toList, parted, List.length_append]
  fun_induction bisectRight table number steps low high with
  | case1 low high => omega
  | case2 low high steps between middle greater ih =>
    refine ih (by omega) above ?_ (by omega)
    by_contra inside
    have own : table.getD middle 0 ∈ small := by
      rw [Array.getD_eq_getD_getElem?, ← Array.getElem?_toList, parted,
        List.getElem?_append_left (by omega), List.getElem?_eq_getElem (by omega)]
      exact List.getElem_mem _
    exact absurd (least _ own) (Nat.not_le.mpr greater)
  | case3 low high steps between middle notGreater ih =>
    refine ih (by omega) ?_ below within
    by_contra outside
    have own : table.getD middle 0 ∈ large := by
      rw [Array.getD_eq_getD_getElem?, ← Array.getElem?_toList, parted,
        List.getElem?_append_right (by omega), List.getElem?_eq_getElem (by omega)]
      exact List.getElem_mem _
    exact notGreater (most _ own)
  | case4 low high steps closed => omega

/-- The line that is found has as many before it as there are line feeds before the character, and it
starts behind the last of them. -/
theorem positionAt_append (text rest : List Char) :
    positionAt (text ++ rest) text.length = Position.past ⟨1, 0⟩ text := by
  have starts : (lineStarts (text ++ rest)).toList =
      (0 :: startsBehind 0 text) ++ startsBehind text.length rest := by
    rw [lineStarts, startsBehind_append, Nat.zero_add, List.cons_append]
  have least : ∀ start ∈ 0 :: startsBehind 0 text, start ≤ text.length := by
    intro start member
    rcases List.mem_cons.mp member with rfl | inside
    · exact Nat.zero_le _
    · simpa using (mem_startsBehind inside).2
  have most : ∀ start ∈ startsBehind text.length rest, text.length < start :=
    fun start member => (mem_startsBehind member).1
  have size : (0 :: startsBehind 0 text).length ≤ (lineStarts (text ++ rest)).size := by
    rw [← Array.length_toList, starts, List.length_append]
    exact Nat.le_add_right _ _
  have line := bisectRight_eq starts least most (Nat.le_add_left _ _) (Nat.zero_le _) size
    (Nat.le_refl _)
  have last : (lineStarts (text ++ rest)).getD (0 :: startsBehind 0 text).length.pred 0 =
      (0 :: startsBehind 0 text).getLast (List.cons_ne_nil _ _) := by
    rw [Array.getD_eq_getD_getElem?, ← Array.getElem?_toList, starts,
      List.getElem?_append_left (by simp), List.getLast_eq_getElem,
      List.getElem?_eq_getElem (by simp)]
    rfl
  have ends := getLast_startsBehind text
  rw [past_start, positionAt, line, ← Nat.pred_eq_sub_one, last, List.length_cons,
    length_startsBehind]
  congr 1
  · exact Nat.add_comm _ _
  · omega

theorem positionAt_eq_past {text : List Char} {offset : Nat} (within : offset ≤ text.length) :
    positionAt text offset = Position.past ⟨1, 0⟩ (text.take offset) := by
  have cut := positionAt_append (text.take offset) (text.drop offset)
  rwa [List.take_append_drop, List.length_take_of_le within] at cut

/-! ### Order -/

/-- One position is not behind another: it stands on an earlier line, or on the same one and not
further to the right. -/
instance : LE Position :=
  ⟨fun first second => first.line < second.line ∨
    first.line = second.line ∧ first.column ≤ second.column⟩

theorem Position.le_def {first second : Position} :
    first ≤ second ↔ first.line < second.line ∨
      first.line = second.line ∧ first.column ≤ second.column := Iff.rfl

instance (first second : Position) : Decidable (first ≤ second) :=
  decidable_of_iff _ Position.le_def.symm

theorem Position.le_refl (position : Position) : position ≤ position := .inr ⟨rfl, Int.le_refl _⟩

theorem Position.le_trans {first second third : Position} (before : first ≤ second)
    (later : second ≤ third) : first ≤ third := by
  rw [Position.le_def] at before later ⊢
  omega

theorem Position.le_after (position : Position) (c : Char) : position ≤ position.after c := by
  rw [Position.after]
  split
  · exact .inl (Nat.lt_succ_self _)
  · exact .inr ⟨rfl, by dsimp only; omega⟩

theorem Position.le_past (position : Position) (text : List Char) : position ≤ position.past text := by
  induction text generalizing position with
  | nil => exact position.le_refl
  | cons c text ih => exact Position.le_trans (position.le_after c) (ih (position.after c))

/-- A later character does not stand before an earlier one. -/
theorem positionAt_mono {text : List Char} {first second : Nat} (ordered : first ≤ second)
    (within : second ≤ text.length) : positionAt text first ≤ positionAt text second := by
  have cut : text.take second = text.take first ++ (text.drop first).take (second - first) := by
    rw [← List.take_add, Nat.add_sub_cancel' ordered]
  rw [positionAt_eq_past (Nat.le_trans ordered within), positionAt_eq_past within, cut, Position.past_append]
  exact Position.le_past _ _

/-! ### Fragments -/

/-- The cursor of a fragment and that of the file make the same steps. -/
theorem shifted_after (start : Position) (added : Nat) {position : Position}
    (counted : 1 ≤ position.line) (c : Char) :
    shifted start added (position.after c) = (shifted start added position).after c := by
  rw [Position.after, Position.after]
  by_cases feed : c = '\n'
  · rw [if_pos feed, if_pos feed, shifted, if_neg (by dsimp only; omega), shifted]
    split
    · rename_i first
      rw [first, ← Nat.add_assoc, Nat.add_sub_cancel]
    · dsimp only
      congr 1
      omega
  · rw [if_neg feed, if_neg feed, shifted, shifted]
    dsimp only
    split
    · dsimp only
      congr 1
      omega
    · rfl

theorem line_after_le (position : Position) (c : Char) : position.line ≤ (position.after c).line := by
  rw [Position.after]
  split
  · exact Nat.le_succ _
  · exact Nat.le_refl _

theorem shifted_past (start : Position) (added : Nat) {position : Position}
    (counted : 1 ≤ position.line) (text : List Char) :
    shifted start added (position.past text) = (shifted start added position).past text := by
  induction text generalizing position with
  | nil => rfl
  | cons c text ih =>
    have later : 1 ≤ (position.after c).line := Nat.le_trans counted (line_after_le position c)
    rw [Position.past, List.foldl_cons, ← Position.past, ih later, shifted_after start added counted]
    rfl

/-- What is put before a fragment, on one line, moves the cursor to where the fragment starts. -/
theorem shifted_added (start : Position) {added : List Char} (oneLine : '\n' ∉ added) :
    shifted start added.length (Position.past ⟨1, 0⟩ added) = start := by
  have line : added.count '\n' = 0 := List.count_eq_zero.mpr oneLine
  have column : lastLineLength added = added.length := by
    have whole : added.reverse.takeWhile (· ≠ '\n') = added.reverse := by
      rw [List.takeWhile_eq_self_iff]
      intro c member
      have inside := List.mem_reverse.mp member
      exact decide_eq_true fun same => oneLine (same ▸ inside)
    rw [lastLineLength, whole, List.length_reverse]
  rw [past_start, line, column, shifted, if_pos rfl, Int.add_sub_cancel]

end Phrasebook.Source

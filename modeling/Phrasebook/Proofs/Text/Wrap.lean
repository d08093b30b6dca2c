import Phrasebook.Proofs.Text.Chunks

set_option autoImplicit false

/-!
Filling lines with text a second time: a line that a text was filled into is a line again.
-/
namespace Phrasebook.Text

/-! ### Spaces -/

/-- The only blank of the ASCII range is the space. -/
def Spaced (text : List Char) : Prop := ∀ c ∈ text, isAsciiBlank c = true → c = ' '

theorem spaced_spaced (text : List Char) : Spaced (spaced text) := by
  intro c member blank
  obtain ⟨other, -, same⟩ := List.mem_map.mp member
  by_cases blankOther : isAsciiBlank other = true
  · rw [if_pos blankOther] at same
    exact same.symm
  · rw [if_neg blankOther] at same
    exact absurd (same ▸ blank) blankOther

theorem expandTabs_of_spaced {text : List Char} (column : Nat) (fair : Spaced text) :
    expandTabs column text = text := by
  induction text generalizing column with
  | nil => rfl
  | cons c rest ih =>
    have first := fair c List.mem_cons_self
    have tab : c ≠ '\t' := by
      rintro rfl
      exact absurd (first rfl) (by decide)
    have lineEnd : ¬(c = '\n' ∨ c = '\r') := by
      rintro (rfl | rfl)
      · exact absurd (first rfl) (by decide)
      · exact absurd (first rfl) (by decide)
    rw [expandTabs, if_neg tab, if_neg lineEnd,
      ih _ fun other member => fair other (List.mem_cons_of_mem _ member)]

theorem spaced_of_spaced {text : List Char} (fair : Spaced text) : spaced text = text := by
  have kept : ∀ c ∈ text, (if isAsciiBlank c then ' ' else c) = c := by
    intro c member
    by_cases blank : isAsciiBlank c = true
    · rw [if_pos blank, fair c member blank]
    · rw [if_neg blank]
  rw [spaced, expandTabs_of_spaced 0 fair, List.map_congr_left kept, List.map_id']

/-! ### Lines -/

theorem fitting_append (width : Nat) (chunks : List (List Char)) :
    (fitting width chunks).1 ++ (fitting width chunks).2 = chunks := by
  induction chunks generalizing width with
  | nil => rfl
  | cons chunk rest ih =>
    rw [fitting]
    split
    · exact congrArg (chunk :: ·) (ih _)
    · rfl

theorem length_fitting_le (width : Nat) (chunks : List (List Char)) :
    (fitting width chunks).1.flatten.length ≤ width := by
  induction chunks generalizing width with
  | nil => exact Nat.zero_le _
  | cons chunk rest ih =>
    rw [fitting]
    split
    · rename_i fits
      have := ih (width - chunk.length)
      rw [List.flatten_cons, List.length_append]
      omega
    · exact Nat.zero_le _

theorem fitting_all {width : Nat} {chunks : List (List Char)}
    (fits : chunks.flatten.length ≤ width) : fitting width chunks = (chunks, []) := by
  induction chunks generalizing width with
  | nil => rfl
  | cons chunk rest ih =>
    rw [List.flatten_cons, List.length_append] at fits
    rw [fitting, if_pos (by omega), ih (by omega)]

/-- The chunks of the next line, and the others. -/
def nextLine (width : Nat) (chunks : List (List Char)) : List (List Char) × List (List Char) :=
  match fitting width chunks with
  | ([], wide :: left) => ([wide], left)
  | fit => fit

theorem filled_cons (width fuel : Nat) (isFirst : Bool) (chunk : List Char)
    (rest : List (List Char)) :
    filled width (fuel + 1) isFirst (chunk :: rest) =
      (let fit := nextLine width
        (if !isFirst && isBlankChunk chunk then rest else chunk :: rest)
      if dropLastBlank fit.1 = [] then filled width fuel isFirst fit.2
      else (dropLastBlank fit.1).flatten :: filled width fuel false fit.2) := rfl

theorem filled_nil (width fuel : Nat) (isFirst : Bool) : filled width fuel isFirst [] = [] := by
  cases fuel <;> rfl

/-- A line takes chunks that fit, or a single one that does not. -/
theorem nextLine_spec (width : Nat) (chunks : List (List Char)) :
    (nextLine width chunks).1 ++ (nextLine width chunks).2 = chunks ∧
      ((nextLine width chunks).1.flatten.length ≤ width ∨
        ∃ chunk, (nextLine width chunks).1 = [chunk]) := by
  have whole := fitting_append width chunks
  have fits := length_fitting_le width chunks
  rw [nextLine]
  split
  · rename_i wide left fit
    rw [fit] at whole
    exact ⟨whole, .inr ⟨wide, rfl⟩⟩
  · exact ⟨whole, .inl fits⟩

theorem nextLine_all {width : Nat} {chunks : List (List Char)} (some : chunks ≠ [])
    (fits : chunks.flatten.length ≤ width) : nextLine width chunks = (chunks, []) := by
  rw [nextLine, fitting_all fits]
  split
  · rename_i same
    exact absurd (congrArg Prod.fst same) some
  · rfl

theorem nextLine_single (width : Nat) (chunk : List Char) :
    nextLine width [chunk] = ([chunk], []) := by
  rw [nextLine, fitting]
  by_cases fits : chunk.length ≤ width
  · rw [if_pos fits]
    rfl
  · rw [if_neg fits]

theorem dropLastBlank_of_shown {init : List (List Char)} {chunk : List Char}
    (shown : isBlankChunk chunk = false) : dropLastBlank (init ++ [chunk]) = init ++ [chunk] := by
  simp [dropLastBlank, shown]

/-- Where no two blank chunks follow each other, a line ends with a chunk that is not blank. -/
theorem dropLastBlank_cases {taken : List (List Char)} (apart : taken.IsChain Apart) :
    dropLastBlank taken = [] ∨ ∃ init chunk, dropLastBlank taken = init ++ [chunk] ∧
      isBlankChunk chunk = false ∧ init ++ [chunk] <+: taken := by
  rcases List.eq_nil_or_concat taken with rfl | ⟨init, last, rfl⟩
  · exact .inl rfl
  · rw [List.concat_eq_append] at apart ⊢
    by_cases blank : isBlankChunk last = true
    · have dropped : dropLastBlank (init ++ [last]) = init := by simp [dropLastBlank, blank]
      rw [dropped]
      rcases List.eq_nil_or_concat init with rfl | ⟨front, former, rfl⟩
      · exact .inl rfl
      · rw [List.concat_eq_append] at apart ⊢
        refine .inr ⟨front, former, rfl, ?_, List.prefix_append _ _⟩
        have joined := (List.isChain_append.mp apart).2.2 former (by simp) last rfl
        exact joined.resolve_right (by simp [blank])
    · rw [Bool.not_eq_true] at blank
      exact .inr ⟨init, last, dropLastBlank_of_shown blank, blank, List.prefix_refl _⟩

/-- A line of chunks, the last of them not blank, that fits unless it is one chunk alone. -/
def IsFilled (width : Nat) (chunks : List (List Char)) (line : List Char) : Prop :=
  ∃ init chunk, line = (init ++ [chunk]).flatten ∧ isBlankChunk chunk = false ∧
    (∀ piece ∈ init ++ [chunk], piece ∈ chunks) ∧ (line.length ≤ width ∨ init = [])

theorem IsFilled.subset {width : Nat} {chunks more : List (List Char)} {line : List Char}
    (holds : IsFilled width chunks line) (within : chunks ⊆ more) : IsFilled width more line := by
  obtain ⟨init, chunk, made, shown, pieces, fits⟩ := holds
  exact ⟨init, chunk, made, shown, fun piece known => within (pieces piece known), fits⟩

/-- What the next line takes, without a blank chunk at its end. -/
theorem isFilled_nextLine {width : Nat} {left : List (List Char)} (apart : left.IsChain Apart)
    (some : dropLastBlank (nextLine width left).1 ≠ []) :
    IsFilled width left (dropLastBlank (nextLine width left).1).flatten := by
  obtain ⟨whole, size⟩ := nextLine_spec width left
  rw [← whole] at apart
  rcases dropLastBlank_cases apart.left_of_append with none | ⟨init, chunk, made, shown, front⟩
  · exact absurd none some
  · refine ⟨init, chunk, by rw [made], shown, fun piece known => ?_, ?_⟩
    · rw [← whole]
      exact List.mem_append_left _ (front.subset known)
    · obtain ⟨more, taken⟩ := front
      rcases size with fits | ⟨only, same⟩
      · left
        rw [← taken, List.flatten_append, List.length_append] at fits
        rw [made]
        omega
      · right
        have length := congrArg List.length (taken.trans same)
        simp only [List.length_append, List.length_cons, List.length_nil] at length
        exact List.length_eq_zero_iff.mp (by omega)

/-- What each line is made of. -/
theorem isFilled_of_mem {width fuel : Nat} {isFirst : Bool} {chunks : List (List Char)}
    (apart : chunks.IsChain Apart) {line : List Char}
    (member : line ∈ filled width fuel isFirst chunks) : IsFilled width chunks line := by
  induction fuel generalizing isFirst chunks with
  | zero => simp [filled] at member
  | succ fuel ih =>
    cases chunks with
    | nil => simp [filled] at member
    | cons first rest =>
      rw [filled_cons] at member
      have within : (if !isFirst && isBlankChunk first then rest else first :: rest) <:+
          first :: rest := by
        split
        · exact List.suffix_cons _ _
        · exact List.suffix_refl _
      generalize (if !isFirst && isBlankChunk first then rest else first :: rest) = left at *
      have chain := apart.suffix within
      have after : (nextLine width left).2 <:+ left := ⟨_, (nextLine_spec width left).1⟩
      have later : ∀ isFirst, line ∈ filled width fuel isFirst (nextLine width left).2 →
          IsFilled width (first :: rest) line := fun isFirst further =>
        (ih (chain.suffix after) further).subset (after.trans within).subset
      by_cases empty : dropLastBlank (nextLine width left).1 = []
      · rw [if_pos empty] at member
        exact later _ member
      · rw [if_neg empty] at member
        rcases List.mem_cons.mp member with rfl | further
        · exact (isFilled_nextLine chain empty).subset within.subset
        · exact later _ further

/-- A text that one line holds is a line of its own. -/
theorem wrap_of_fits {width : Nat} {text : List Char} (nonempty : text ≠ []) (fair : Spaced text)
    (trim : Trim isBlank text) (fits : text.length ≤ width ∨ chunks text = [text]) :
    wrap width text = [text] := by
  have cut := chunks_cut text
  have lines : nextLine width (chunks text) = (chunks text, []) := by
    rcases fits with short | alone
    · refine nextLine_all ?_ (by rwa [cut.flatten])
      intro none
      rw [← cut.flatten, none] at nonempty
      exact nonempty rfl
    · rw [alone, nextLine_single]
  -- the last character of the text is in the last chunk
  have kept : dropLastBlank (chunks text) = chunks text := by
    rcases List.eq_nil_or_concat (chunks text) with none | ⟨init, last, split⟩
    · rw [none]
      rfl
    · rw [List.concat_eq_append] at split
      rw [split]
      apply dropLastBlank_of_shown
      have made : last ≠ [] := cut.nonempty last (by simp [split])
      have final : text.getLast? = some (last.getLast made) := by
        rw [← cut.flatten, split, List.flatten_append, List.flatten_singleton,
          List.getLast?_append, List.getLast?_eq_some_getLast made]
        rfl
      exact not_blankChunk_of_mem (List.getLast_mem made) (trim.last _ final)
  cases pieces : chunks text with
  | nil =>
    rw [← cut.flatten, pieces] at nonempty
    exact absurd rfl nonempty
  | cons chunk rest =>
    rw [pieces] at lines kept
    rw [wrap, spaced_of_spaced fair, pieces, filled_cons]
    simp only [Bool.not_true, Bool.false_and, Bool.false_eq_true, if_false, lines, kept,
      reduceCtorEq]
    rw [← pieces, cut.flatten, filled_nil]

/-- Each line that a text is filled into, without the blanks around it, is a line again. -/
theorem wrap_line {width : Nat} {text line : List Char} (member : line ∈ wrap width text) :
    stripped line ≠ [] ∧ Spaced (stripped line) ∧ wrap width (stripped line) = [stripped line] := by
  have cut := chunks_cut (spaced text)
  obtain ⟨init, chunk, made, shown, pieces, fits⟩ := isFilled_of_mem cut.apart member
  obtain ⟨c, known, visible⟩ := exists_shown shown
  have inside : c ∈ line := by
    rw [made]
    simp [known]
  have some : stripped line ≠ [] := trimmed_ne_nil inside visible
  have fair : Spaced (stripped line) := by
    intro d present
    apply spaced_spaced text
    have within : d ∈ line := mem_of_mem_trimmed present
    rw [made] at within
    obtain ⟨piece, part, own⟩ := List.mem_flatten.mp within
    rw [← cut.flatten]
    exact List.mem_flatten.mpr ⟨piece, pieces piece part, own⟩
  refine ⟨some, fair, wrap_of_fits some fair (trim_trimmed isBlank line) ?_⟩
  rcases fits with short | rfl
  · exact .inl (Nat.le_trans length_trimmed_le short)
  · right
    rw [made, List.nil_append, List.flatten_singleton]
    exact cut.whole chunk (pieces chunk (by simp)) shown

end Phrasebook.Text

import Phrasebook.Text.Split

set_option autoImplicit false

/-!
Cutting a text at marks undoes putting pieces without marks together.
-/
namespace Phrasebook.Text

/-- No mark is left in a piece. -/
theorem pieces_noMark (mark : Char) (text : List Char) :
    ∀ piece ∈ pieces mark text, mark ∉ piece := by
  induction text with
  | nil => simp [pieces]
  | cons c text ih =>
    rw [pieces]
    split
    · intro piece member
      rcases List.mem_cons.mp member with rfl | later
      · simp
      · exact ih piece later
    · rename_i other
      cases shape : pieces mark text with
      | nil =>
        intro piece member
        rw [List.mem_singleton.mp member]
        simpa using Ne.symm other
      | cons first more =>
        rw [shape] at ih
        intro piece member
        rcases List.mem_cons.mp member with rfl | later
        · have apart := ih first List.mem_cons_self
          simp [Ne.symm other, apart]
        · exact ih piece (List.mem_cons_of_mem _ later)

theorem pieces_append {mark : Char} {piece : List Char} (whole : mark ∉ piece) (rest : List Char) :
    pieces mark (piece ++ mark :: rest) = piece :: pieces mark rest := by
  induction piece with
  | nil => rw [List.nil_append, pieces, if_pos rfl]
  | cons c piece ih =>
    simp only [List.mem_cons, not_or] at whole
    rw [List.cons_append, pieces, if_neg (Ne.symm whole.1), ih whole.2]

theorem pieces_single {mark : Char} {piece : List Char} (whole : mark ∉ piece) :
    pieces mark piece = [piece] := by
  induction piece with
  | nil => rfl
  | cons c piece ih =>
    simp only [List.mem_cons, not_or] at whole
    rw [pieces, if_neg (Ne.symm whole.1), ih whole.2]

/-- Parts that are put together with marks come apart at them. -/
theorem pieces_intercalate {mark : Char} {parts : List (List Char)} (some : parts ≠ [])
    (whole : ∀ part ∈ parts, mark ∉ part) :
    pieces mark ([mark].intercalate parts) = parts := by
  induction parts with
  | nil => exact absurd rfl some
  | cons part parts ih =>
    have first := whole part List.mem_cons_self
    cases parts with
    | nil =>
      rw [List.intercalate_singleton, pieces_single first]
    | cons next parts =>
      have rest := ih (List.cons_ne_nil _ _) fun other later => whole other
        (List.mem_cons_of_mem _ later)
      rw [List.intercalate_cons_cons, List.append_assoc, List.singleton_append,
        pieces_append first, rest]

theorem cutFirst_append {mark : Char} {before : List Char} (absent : mark ∉ before)
    (rest : List Char) : cutFirst mark (before ++ mark :: rest) = (before, some rest) := by
  induction before with
  | nil => rw [List.nil_append, cutFirst, if_pos rfl]
  | cons c before ih =>
    rw [List.mem_cons, not_or] at absent
    rw [List.cons_append, cutFirst, if_neg (Ne.symm absent.1), ih absent.2]

theorem pieces_ne_nil (mark : Char) (text : List Char) : pieces mark text ≠ [] := by
  cases text with
  | nil => exact List.cons_ne_nil _ _
  | cons c text =>
    rw [pieces]
    split
    · exact List.cons_ne_nil _ _
    · split <;> exact List.cons_ne_nil _ _

/-- Where two texts meet, the last piece of the one goes on with the first piece of the other. -/
theorem pieces_join (mark : Char) (text rest : List Char) :
    pieces mark (text ++ rest) = (pieces mark text).dropLast ++
      ((pieces mark text).getLastD [] ++ (pieces mark rest).headD []) ::
        (pieces mark rest).tail := by
  induction text with
  | nil =>
    obtain ⟨first, more, shape⟩ := List.exists_cons_of_ne_nil (pieces_ne_nil mark rest)
    rw [List.nil_append, shape]
    rfl
  | cons c text ih =>
    obtain ⟨first, more, shape⟩ := List.exists_cons_of_ne_nil (pieces_ne_nil mark text)
    rw [List.cons_append, pieces, pieces]
    split
    · rw [ih, shape]
      rfl
    · rw [ih, shape]
      cases more <;> rfl

/-- What is put behind a text, and holds no mark, goes on with its last piece. -/
theorem pieces_behind {mark : Char} {rest : List Char} (whole : mark ∉ rest) (text : List Char) :
    pieces mark (text ++ rest) =
      (pieces mark text).dropLast ++ [(pieces mark text).getLastD [] ++ rest] := by
  rw [pieces_join, pieces_single whole]
  rfl

/-! ### What occurs in a text -/

theorem occurs_iff {piece text : List Char} : occurs piece text = true ↔ piece <:+: text := by
  induction text with
  | nil => simp [occurs]
  | cons c text ih =>
    rw [occurs, Bool.or_eq_true, List.isPrefixOf_iff_prefix, ih, List.infix_cons_iff]

/-- What a text starts with, and holds no mark, its first piece starts with. -/
theorem prefix_first_piece {mark : Char} {word : List Char} (whole : mark ∉ word)
    {text : List Char} (start : word <+: text) :
    ∃ first more, pieces mark text = first :: more ∧ word <+: first := by
  obtain ⟨rest, rfl⟩ := start
  induction word with
  | nil =>
    obtain ⟨first, more, shape⟩ := List.exists_cons_of_ne_nil (pieces_ne_nil mark rest)
    exact ⟨first, more, shape, List.nil_prefix⟩
  | cons c word ih =>
    rw [List.mem_cons, not_or] at whole
    obtain ⟨first, more, shape, inside⟩ := ih whole.2
    refine ⟨c :: first, more, ?_, List.cons_prefix_cons.mpr ⟨rfl, inside⟩⟩
    rw [List.cons_append, pieces, if_neg (Ne.symm whole.1), shape]

/-- What occurs in a text, and holds no mark, occurs in one of its pieces. -/
theorem exists_piece_infix {mark : Char} {word : List Char} (whole : mark ∉ word)
    {text : List Char} (inside : word <:+: text) : ∃ piece ∈ pieces mark text, word <:+: piece := by
  induction text with
  | nil => exact ⟨[], List.mem_singleton_self _, inside⟩
  | cons c text ih =>
    rcases List.infix_cons_iff.mp inside with start | later
    · obtain ⟨first, more, shape, start⟩ := prefix_first_piece whole start
      exact ⟨first, shape ▸ List.mem_cons_self, start.isInfix⟩
    · obtain ⟨piece, member, within⟩ := ih later
      rw [pieces]
      split
      · exact ⟨piece, List.mem_cons_of_mem _ member, within⟩
      · cases shape : pieces mark text with
        | nil => exact absurd (shape ▸ member) List.not_mem_nil
        | cons first more =>
          rcases List.mem_cons.mp (shape ▸ member) with rfl | further
          · exact ⟨c :: piece, List.mem_cons_self, within.trans (List.suffix_cons c piece).isInfix⟩
          · exact ⟨piece, List.mem_cons_of_mem _ further, within⟩

/-- A text starts with its first piece, and the others occur in it. -/
theorem infix_of_mem_pieces {mark : Char} {text piece : List Char}
    (member : piece ∈ pieces mark text) : piece <:+: text := by
  have each : ∃ first more, pieces mark text = first :: more ∧ first <+: text ∧
      ∀ piece ∈ more, piece <:+: text := by
    clear member
    induction text with
    | nil => exact ⟨[], [], rfl, List.nil_prefix, nofun⟩
    | cons c text ih =>
      obtain ⟨first, more, shape, start, inside⟩ := ih
      rw [pieces]
      split
      · refine ⟨[], pieces mark text, rfl, List.nil_prefix, ?_⟩
        rw [shape]
        exact List.forall_mem_cons.mpr ⟨List.infix_cons start.isInfix,
          fun piece member => List.infix_cons (inside piece member)⟩
      · rw [shape]
        exact ⟨c :: first, more, rfl, List.cons_prefix_cons.mpr ⟨rfl, start⟩,
          fun piece member => List.infix_cons (inside piece member)⟩
  obtain ⟨first, more, shape, start, inside⟩ := each
  rcases List.mem_cons.mp (shape ▸ member) with rfl | later
  · exact start.isInfix
  · exact inside piece later

theorem part_infix_intercalate {mark part : List Char} {parts : List (List Char)}
    (member : part ∈ parts) : part <:+: mark.intercalate parts := by
  induction parts with
  | nil => cases member
  | cons first parts ih =>
    cases parts with
    | nil =>
      refine ⟨[], [], ?_⟩
      rw [List.mem_singleton.mp member, List.intercalate_singleton, List.nil_append, List.append_nil]
    | cons second parts =>
      rw [List.intercalate_cons_cons]
      rcases List.mem_cons.mp member with rfl | later
      · exact ⟨[], mark ++ mark.intercalate (second :: parts), by simp⟩
      · exact (ih later).trans (List.suffix_append _ _).isInfix

/-! ### The first place of a piece

A piece of which the first character comes only once does not overlap with itself. -/

section

variable {c : Char} {piece : List Char}

/-- A piece that starts before another place of it ends before it. -/
theorem prefix_of_prefix_append (alone : c ∉ piece) {text rest : List Char} (given : text ≠ [])
    (start : c :: piece <+: text ++ (c :: piece ++ rest)) : c :: piece <+: text := by
  obtain ⟨more, same⟩ := start
  rcases List.append_eq_append_iff.mp same with ⟨tail, rfl, -⟩ | ⟨tail, whole, others⟩
  · exact List.prefix_append _ _
  · cases tail with
    | nil => exact ⟨[], by rw [List.append_nil, whole, List.append_nil]⟩
    | cons d tail =>
      obtain ⟨first, text, rfl⟩ := List.exists_cons_of_ne_nil given
      rw [List.cons_append, List.cons_append, List.cons.injEq] at others
      rw [List.cons_append, List.cons.injEq, ← others.1] at whole
      exact absurd (whole.2 ▸ List.mem_append_right _ List.mem_cons_self) alone

theorem cutPiece?_append (alone : c ∉ piece) {text : List Char} (absent : ¬c :: piece <:+: text)
    (rest : List Char) :
    cutPiece? (c :: piece) (text ++ (c :: piece ++ rest)) = some (text, rest) := by
  induction text with
  | nil =>
    rw [List.nil_append, List.cons_append, cutPiece?, if_pos]
    · rw [← List.cons_append, List.drop_left]
    · exact List.isPrefixOf_iff_prefix.mpr (List.prefix_append (c :: piece) rest)
  | cons d text ih =>
    rw [List.infix_cons_iff, not_or] at absent
    rw [List.cons_append, cutPiece?, if_neg, ih absent.2]
    · rfl
    · intro start
      exact absent.1 (prefix_of_prefix_append alone (List.cons_ne_nil d text)
        (List.isPrefixOf_iff_prefix.mp start))

theorem cutPiece?_eq_none {text : List Char} (absent : ¬c :: piece <:+: text) :
    cutPiece? (c :: piece) text = none := by
  induction text with
  | nil => rfl
  | cons d text ih =>
    rw [List.infix_cons_iff, not_or] at absent
    rw [cutPiece?, if_neg, ih absent.2]
    · rfl
    · exact fun start => absent.1 (List.isPrefixOf_iff_prefix.mp start)

/-- What occurs in a text has a first place there. -/
theorem exists_first_place {text : List Char} (inside : c :: piece <:+: text) :
    ∃ before after, text = before ++ (c :: piece ++ after) ∧ ¬c :: piece <:+: before := by
  induction text with
  | nil => simp at inside
  | cons d text ih =>
    by_cases start : c :: piece <+: d :: text
    · obtain ⟨after, same⟩ := start
      exact ⟨[], after, same.symm, by simp⟩
    · obtain ⟨before, after, rfl, absent⟩ := ih ((List.infix_cons_iff.mp inside).resolve_left start)
      refine ⟨d :: before, after, rfl, fun within => ?_⟩
      rcases List.infix_cons_iff.mp within with here | later
      · exact start (here.trans ⟨_, rfl⟩)
      · exact absent later

theorem replaceFrom_append (new text rest : List Char) :
    replaceFrom piece new text.length (text ++ rest) = replaceFrom piece new 0 rest := by
  induction text with
  | nil => rfl
  | cons d text ih => exact ih

theorem replaceAll_of_absent {new text : List Char} (absent : ¬c :: piece <:+: text) :
    replaceAll (c :: piece) new text = text := by
  induction text with
  | nil => rfl
  | cons d text ih =>
    rw [List.infix_cons_iff, not_or] at absent
    rw [replaceAll] at ih ⊢
    rw [replaceFrom, if_neg, ih absent.2]
    exact fun start => absent.1 (List.isPrefixOf_iff_prefix.mp start.2)

theorem replaceAll_append (alone : c ∉ piece) {text : List Char} (absent : ¬c :: piece <:+: text)
    (new rest : List Char) : replaceAll (c :: piece) new (text ++ (c :: piece ++ rest)) =
      text ++ (new ++ replaceAll (c :: piece) new rest) := by
  induction text with
  | nil =>
    rw [List.nil_append, List.cons_append, replaceAll, replaceFrom, if_pos, List.length_cons,
      Nat.add_sub_cancel, replaceFrom_append]
    · rfl
    · exact ⟨List.cons_ne_nil _ _,
        List.isPrefixOf_iff_prefix.mpr (List.prefix_append (c :: piece) rest)⟩
  | cons d text ih =>
    rw [List.infix_cons_iff, not_or] at absent
    rw [replaceAll] at ih ⊢
    rw [List.cons_append, replaceFrom, if_neg, ih absent.2]
    · rfl
    · rintro ⟨-, start⟩
      exact absent.1 (prefix_of_prefix_append alone (List.cons_ne_nil d text)
        (List.isPrefixOf_iff_prefix.mp start))

end

/-! ### Line ends -/

theorem replaceAll_single (mark : Char) (new : Char) (text : List Char) :
    replaceAll [mark] [new] text = text.map fun c => if c = mark then new else c := by
  induction text with
  | nil => rfl
  | cons c text ih =>
    rw [replaceAll] at ih ⊢
    rw [replaceFrom, List.map_cons]
    by_cases same : c = mark
    · rw [if_pos (by simp [same]), if_pos same, List.length_singleton, Nat.sub_self, ih]
      rfl
    · rw [if_neg (by simp [Ne.symm same]), if_neg same, ih]

/-- Line ends of two characters become line feeds first, and then the carriage returns that are left. -/
theorem unifiedLines_eq (text : List Char) :
    unifiedLines text = replaceAll ['\r'] ['\n'] (replaceAll ['\r', '\n'] ['\n'] text) := by
  rw [replaceAll_single]
  induction text using unifiedLines.induct with
  | case1 => rfl
  | case2 rest ih =>
    rw [unifiedLines, ih, replaceAll, replaceAll, replaceFrom, if_pos (by simp)]
    rfl
  | case3 c rest single ih =>
    have other : ¬(['\r', '\n'] ≠ [] ∧ ['\r', '\n'].isPrefixOf (c :: rest) = true) := by
      rintro ⟨-, starts⟩
      obtain ⟨after, same⟩ := List.isPrefixOf_iff_prefix.mp starts
      obtain ⟨rfl, rfl⟩ := List.cons.inj same
      exact single after rfl rfl
    rw [unifiedLines, ih, replaceAll, replaceAll, replaceFrom, if_neg other, List.map_cons]
    exact fun after first => single after first

end Phrasebook.Text

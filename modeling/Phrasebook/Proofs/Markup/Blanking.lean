import Mathlib.Data.List.Forall2
import Mathlib.Data.List.TakeWhile
import Phrasebook.Markup.Blanking
import Phrasebook.Proofs.Text.Trim

set_option autoImplicit false

/-!
Blanking out comments and styles, piece by piece. A text that is followed by a tag is blanked out as
it is alone, and what is blanked out holds no word that was not there before.
-/
namespace Phrasebook.Markup

open Text (dropStart startsWith endsWord isBlank)

/-! ### What a text starts with, if more follows -/

/-- Where a word does not go on with the character after a text, it starts the text itself. -/
theorem dropStart_append {word : List Char} {next : Char} (apart : next ∉ word)
    (text back : List Char) :
    dropStart word (text ++ next :: back) = (dropStart word text).map (· ++ next :: back) := by
  induction word generalizing text with
  | nil => rfl
  | cons w word ih =>
    simp only [List.mem_cons, not_or] at apart
    cases text with
    | nil =>
      have differs : w ≠ next := Ne.symm apart.1
      simp [dropStart, differs]
    | cons c text =>
      rw [List.cons_append, dropStart, dropStart]
      split
      · exact ih apart.2 text
      · rfl

theorem dropFolded_append {word : List Char} {next : Char} (apart : Text.foldLetter next ∉ word)
    (text back : List Char) :
    dropFolded word (text ++ next :: back) = (dropFolded word text).map (· ++ next :: back) := by
  induction word generalizing text with
  | nil => rfl
  | cons w word ih =>
    simp only [List.mem_cons, not_or] at apart
    cases text with
    | nil =>
      have differs : w ≠ Text.foldLetter next := Ne.symm apart.1
      simp [dropFolded, differs]
    | cons c text =>
      rw [List.cons_append, dropFolded, dropFolded]
      split
      · exact ih apart.2 text
      · rfl

/-- A word of which only the first character could follow a text starts the text itself, unless that
is empty. -/
theorem dropFolded_cons_append {w : Char} {word : List Char} {next : Char}
    (apart : Text.foldLetter next ∉ word) (c : Char) (text back : List Char) :
    dropFolded (w :: word) (c :: text ++ next :: back) =
      (dropFolded (w :: word) (c :: text)).map (· ++ next :: back) := by
  rw [List.cons_append, dropFolded, dropFolded]
  split
  · exact dropFolded_append apart text back
  · rfl

theorem dropFolded_eq_some {word text after : List Char} :
    dropFolded word text = some after ↔
      ∃ front, text = front ++ after ∧ front.map Text.foldLetter = word := by
  fun_induction dropFolded word text with
  | case1 text =>
    constructor
    · rintro ⟨⟩
      exact ⟨[], rfl, rfl⟩
    · rintro ⟨front, rfl, none⟩
      rw [List.map_eq_nil_iff.mp none, List.nil_append]
  | case2 w word =>
    simp only [reduceCtorEq, false_iff]
    rintro ⟨front, none, same⟩
    rw [(List.append_eq_nil_iff.mp none.symm).1] at same
    cases same
  | case3 word c cs ih =>
    rw [ih]
    constructor
    · rintro ⟨front, rfl, same⟩
      exact ⟨c :: front, rfl, by rw [List.map_cons, same]⟩
    · rintro ⟨front, cut, same⟩
      cases front with
      | nil => cases same
      | cons d front =>
        obtain ⟨rfl, rfl⟩ := List.cons.inj cut
        exact ⟨front, rfl, (List.cons.inj same).2⟩
  | case4 w word c cs different =>
    simp only [reduceCtorEq, false_iff]
    rintro ⟨front, cut, same⟩
    cases front with
    | nil => cases same
    | cons d front =>
      obtain ⟨rfl, -⟩ := List.cons.inj cut
      exact different (List.cons.inj same).1.symm

/-! ### The first place of a kind -/

theorem findFirst_append {test : List Char → Bool} {back : List Char}
    (same : ∀ c text, test (c :: text ++ back) = test (c :: text)) (empty : test [] = false)
    (absent : findFirst test back = none) (text : List Char) :
    findFirst test (text ++ back) =
      (findFirst test text).map fun found => (found.1, found.2 ++ back) := by
  induction text with
  | nil =>
    rw [List.nil_append, absent, findFirst, if_neg (by simp [empty])]
    rfl
  | cons c text ih =>
    rw [List.cons_append, findFirst, ← List.cons_append, same, findFirst]
    split
    · rfl
    · rw [ih]
      cases findFirst test text <;> rfl

/-- A first place: the test holds there, and at no place before. -/
theorem findFirst_eq_some {test : List Char → Bool} {text after : List Char} {count : Nat}
    (found : findFirst test text = some (count, after)) :
    ∃ front, text = front ++ after ∧ front.length = count ∧ test after = true ∧
      ∀ less < count, test (text.drop less) = false := by
  fun_induction findFirst test text generalizing count with
  | case1 holds =>
    cases found
    exact ⟨[], rfl, rfl, holds, fun less before => absurd before (Nat.not_lt_zero _)⟩
  | case2 => cases found
  | case3 c rest holds =>
    cases found
    exact ⟨[], rfl, rfl, holds, fun less before => absurd before (Nat.not_lt_zero _)⟩
  | case4 c rest fails ih =>
    obtain ⟨⟨inner, other⟩, deeper, same⟩ := Option.map_eq_some_iff.mp found
    cases same
    obtain ⟨front, rfl, length, holds, earlier⟩ := ih deeper
    refine ⟨c :: front, rfl, by rw [List.length_cons, length], holds, ?_⟩
    intro less before
    cases less with
    | zero => exact Bool.eq_false_iff.mpr fails
    | succ less => exact earlier less (Nat.lt_of_succ_lt_succ before)

theorem findFirst_eq_none {test : List Char → Bool} {text : List Char}
    (absent : findFirst test text = none) (front rest : List Char) (cut : text = front ++ rest) :
    test rest = false := by
  induction text generalizing front with
  | nil =>
    rw [(List.append_eq_nil_iff.mp cut.symm).2]
    rw [findFirst] at absent
    split at absent
    · cases absent
    · exact Bool.eq_false_iff.mpr ‹_›
  | cons c text ih =>
    rw [findFirst] at absent
    split at absent
    · cases absent
    · rename_i fails
      cases front with
      | nil =>
        have whole : c :: text = rest := cut
        exact whole ▸ Bool.eq_false_iff.mpr fails
      | cons d front =>
        exact ih (Option.map_eq_none_iff.mp absent) front (List.cons.inj cut).2

/-! ### Tags that close -/

/-- A character after a text that is neither blank nor the end of a tag. -/
structure Parts (next : Char) : Prop where
  notBlank : isBlank next = false
  notClosing : next ≠ '>'

theorem afterClosingTag?_append {name : List Char} {next : Char} (parts : Parts next)
    (apart : Text.foldLetter next ∉ '/' :: name) (c : Char) (text back : List Char) :
    afterClosingTag? name (c :: text ++ next :: back) =
      (afterClosingTag? name (c :: text)).map (· ++ next :: back) := by
  rw [afterClosingTag?, afterClosingTag?, dropFolded_cons_append apart]
  cases dropFolded ('<' :: '/' :: name) (c :: text) with
  | none => rfl
  | some rest =>
    rw [Option.map_some]
    dsimp only
    rw [List.dropWhile_append]
    cases left : rest.dropWhile isBlank with
    | nil =>
      rw [List.isEmpty_nil, if_pos rfl, List.dropWhile_cons_of_neg (by simp [parts.notBlank])]
      split
      · rename_i same
        exact absurd (List.cons.inj same).1 parts.notClosing
      · rfl
    | cons d after =>
      rw [List.isEmpty_cons, if_neg Bool.false_ne_true, List.cons_append]
      by_cases closing : d = '>'
      · subst closing
        rfl
      · split
        · rename_i same
          exact absurd (List.cons.inj same).1 closing
        · split
          · rename_i same
            exact absurd (List.cons.inj same).1 closing
          · rfl

/-! ### Matches -/

/-- Matches of a kind lie within a text, and it makes no difference for them whether the given text
follows, which has none itself. -/
structure IsLocal (matchLength : List Char → Nat) (back : List Char) : Prop where
  within : ∀ text, matchLength text ≤ text.length
  same : ∀ c text, matchLength (c :: text ++ back) = matchLength (c :: text)
  absent : blankMatches matchLength 0 back = back

theorem blankMatches_append {matchLength : List Char → Nat} {back : List Char}
    (isLocal : IsLocal matchLength back) {pending : Nat} {text : List Char}
    (inside : pending ≤ text.length) :
    blankMatches matchLength pending (text ++ back) =
      blankMatches matchLength pending text ++ back := by
  induction text generalizing pending with
  | nil =>
    have none : pending = 0 := Nat.le_zero.mp inside
    rw [none, List.nil_append, isLocal.absent, blankMatches, List.nil_append]
  | cons c text ih =>
    cases pending with
    | succ pending =>
      rw [List.length_cons] at inside
      rw [List.cons_append, blankMatches, blankMatches, ih (by omega), List.cons_append]
    | zero =>
      have same := isLocal.same c text
      have within := isLocal.within (c :: text)
      rw [List.cons_append] at same
      rw [List.length_cons] at within
      rw [List.cons_append, blankMatches, blankMatches, same]
      cases length : matchLength (c :: text) with
      | zero =>
        dsimp only
        rw [ih (Nat.zero_le _), List.cons_append]
      | succ more =>
        dsimp only
        rw [ih (by omega), List.cons_append]

theorem commentLength_le (text : List Char) : commentLength text ≤ text.length := by
  rw [commentLength]
  split
  · rename_i starts
    rw [startsWith, Option.isSome_iff_exists] at starts
    obtain ⟨rest, starts⟩ := starts
    have opening := Text.length_dropStart starts
    split
    · rename_i inner after found
      obtain ⟨front, cut, length, ends, -⟩ := findFirst_eq_some found
      rw [startsWith, Option.isSome_iff_exists] at ends
      obtain ⟨last, ends⟩ := ends
      have closing := Text.length_dropStart ends
      have whole := congrArg List.length cut
      rw [List.length_drop, List.length_append] at whole
      have four : "<!--".toList.length = 4 := rfl
      have three : "-->".toList.length = 3 := rfl
      omega
    · exact Nat.zero_le _
  · exact Nat.zero_le _

theorem styleLength_le (text : List Char) : styleLength text ≤ text.length := by
  rw [styleLength]
  split
  · exact Nat.zero_le _
  · split
    · split
      · split
        · exact Nat.sub_le _ _
        · exact Nat.zero_le _
      · exact Nat.zero_le _
    · exact Nat.zero_le _

/-- A comment in a text ends there, if what follows neither goes on with its start nor with its end. -/
theorem commentLength_append {next : Char} (apart : next ∉ "!-->".toList) {back : List Char}
    (absent : findFirst (startsWith "-->".toList) (next :: back) = none) (c : Char)
    (text : List Char) :
    commentLength (c :: text ++ next :: back) = commentLength (c :: text) := by
  have opening : next ∉ ['!', '-', '-'] := by
    intro member
    simp only [List.mem_cons, List.not_mem_nil, or_false, or_self] at member
    apply apart
    rcases member with rfl | rfl <;> decide
  have closing : next ∉ "-->".toList := fun member => apart (List.mem_cons_of_mem _ member)
  have starts : startsWith "<!--".toList (c :: text ++ next :: back) =
      startsWith "<!--".toList (c :: text) := by
    change (dropStart ('<' :: ['!', '-', '-']) _).isSome = (dropStart ('<' :: ['!', '-', '-']) _).isSome
    rw [List.cons_append, dropStart, dropStart]
    split
    · rw [dropStart_append opening, Option.isSome_map]
    · rfl
  rw [commentLength, commentLength, starts]
  split
  · rename_i begins
    rw [startsWith, Option.isSome_iff_exists] at begins
    obtain ⟨rest, begins⟩ := begins
    have length := Text.length_dropStart begins
    have four : "<!--".toList.length = 4 := rfl
    rw [List.drop_append_of_le_length (by omega), findFirst_append ?_ rfl absent]
    · cases findFirst (startsWith "-->".toList) ((c :: text).drop 4) <;> rfl
    · intro d rest
      rw [startsWith, startsWith, dropStart_append closing, Option.isSome_map]
  · rfl

theorem endsWord_append {next : Char} (ends : Text.isWord next = false) (text back : List Char) :
    endsWord (text ++ next :: back) = endsWord text := by
  cases text with
  | nil => simp [endsWord, ends]
  | cons c text => rfl

/-- A style whose opening tag is whole ends with the first closing tag. -/
theorem styleLength_of_opening {text rest inner : List Char}
    (begins : dropFolded "<style".toList text = some rest) (ends : endsWord rest = true)
    (left : rest.dropWhile (· ≠ '>') = '>' :: inner) :
    styleLength text =
      match findFirst (fun t => (afterClosingTag? "style".toList t).isSome) inner with
      | some (_, close) =>
        match afterClosingTag? "style".toList close with
        | some after => text.length - after.length
        | none => 0
      | none => 0 := by
  rw [styleLength, begins]
  dsimp only
  rw [ends, left]
  rfl

/-- Nothing is a style whose opening tag does not end its word or goes on to the end of the text. -/
theorem styleLength_of_open {text rest : List Char}
    (begins : dropFolded "<style".toList text = some rest)
    (stays : endsWord rest = false ∨ (rest.dropWhile (· ≠ '>')).tail = []) :
    styleLength text = 0 := by
  rw [styleLength, begins]
  dsimp only
  split
  · rename_i inner ends left
    rcases stays with apart | last
    · rw [apart] at ends
      cases ends
    · rw [left, List.tail_cons] at last
      rw [last]
      rfl
  · rfl

/-- A style whose opening tag is whole ends in its text, if no closing tag follows the text. -/
theorem styleLength_opening_append {next : Char} (parts : Parts next)
    (ends : Text.isWord next = false) (apart : Text.foldLetter next ∉ '/' :: "style".toList)
    {back : List Char}
    (absent : findFirst (fun t => (afterClosingTag? "style".toList t).isSome) (next :: back) = none)
    {text rest inner : List Char} (begins : dropFolded "<style".toList text = some rest)
    (starts : dropFolded "<style".toList (text ++ next :: back) = some (rest ++ next :: back))
    (word : endsWord rest = true) (left : rest.dropWhile (· ≠ '>') = '>' :: inner) :
    styleLength (text ++ next :: back) = styleLength text := by
  have tag : (rest ++ next :: back).dropWhile (· ≠ '>') = '>' :: (inner ++ next :: back) := by
    rw [List.dropWhile_append, left]
    rfl
  rw [styleLength_of_opening starts ((endsWord_append ends rest back).trans word) tag,
    styleLength_of_opening begins word left, findFirst_append ?_ rfl absent]
  · cases found : findFirst (fun t => (afterClosingTag? "style".toList t).isSome) inner with
    | none => rfl
    | some place =>
      obtain ⟨count, close⟩ := place
      obtain ⟨-, -, -, closes, -⟩ := findFirst_eq_some found
      rw [Option.map_some]
      dsimp only
      cases close with
      | nil => cases closes
      | cons e close =>
        rw [afterClosingTag?_append parts apart]
        cases afterClosingTag? "style".toList (e :: close) with
        | none => rfl
        | some after =>
          rw [Option.map_some]
          dsimp only
          rw [List.length_append, List.length_append, Nat.add_sub_add_right]
  · intro e text
    rw [afterClosingTag?_append parts apart, Option.isSome_map]

/-- A style in a text ends there, if a tag follows whose end is the end of all. -/
theorem styleLength_append {next : Char} (parts : Parts next) (ends : Text.isWord next = false)
    (apart : Text.foldLetter next ∉ '/' :: "style".toList) {back : List Char}
    (last : (next :: back).dropWhile (· ≠ '>') = ['>'])
    (absent : findFirst (fun t => (afterClosingTag? "style".toList t).isSome) (next :: back) = none)
    (c : Char) (text : List Char) :
    styleLength (c :: text ++ next :: back) = styleLength (c :: text) := by
  have opening : Text.foldLetter next ∉ "style".toList := fun member =>
    apart (List.mem_cons_of_mem _ member)
  have starts := dropFolded_cons_append (w := '<') opening c text back
  change dropFolded "<style".toList _ = (dropFolded "<style".toList _).map _ at starts
  cases begins : dropFolded "<style".toList (c :: text) with
  | none => rw [styleLength, styleLength, starts, begins, Option.map_none]
  | some rest =>
    rw [begins, Option.map_some] at starts
    have word := endsWord_append ends rest back
    cases whole : endsWord rest with
    | false =>
      rw [styleLength_of_open starts (.inl (word.trans whole)),
        styleLength_of_open begins (.inl whole)]
    | true =>
      cases left : rest.dropWhile (· ≠ '>') with
      | nil =>
        have tag : (rest ++ next :: back).dropWhile (· ≠ '>') = ['>'] := by
          rw [List.dropWhile_append, left, List.isEmpty_nil, if_pos rfl, last]
        rw [styleLength_of_open starts (.inr (by rw [tag]; rfl)),
          styleLength_of_open begins (.inr (by rw [left]; rfl))]
      | cons d inner =>
        have closing : d = '>' := by
          have stops := List.head?_dropWhile_not (fun c => decide (c ≠ '>')) rest
          rw [left] at stops
          simpa using stops
        rw [closing] at left
        exact styleLength_opening_append parts ends apart absent begins starts whole left

/-! ### What is left of the words of a text -/

/-- A text in which some characters are blanked out. -/
def Fades (before after : List Char) : Prop :=
  List.Forall₂ (fun c d => d = c ∨ d = blanked c) before after

/-- A sign that is left was there before. -/
theorem eq_of_blanked {c d : Char} (same : d = c ∨ d = blanked c) (shown : d ≠ ' ' ∧ d ≠ '\n') :
    d = c := by
  refine same.resolve_right fun gone => ?_
  rw [blanked] at gone
  split at gone
  · exact shown.2 gone
  · exact shown.1 gone

theorem blankMatches_fades (matchLength : List Char → Nat) (pending : Nat) (text : List Char) :
    Fades text (blankMatches matchLength pending text) := by
  induction text generalizing pending with
  | nil =>
    rw [blankMatches]
    exact .nil
  | cons c text ih =>
    cases pending with
    | succ pending =>
      rw [blankMatches]
      exact .cons (.inr rfl) (ih pending)
    | zero =>
      rw [blankMatches]
      cases matchLength (c :: text) with
      | zero => exact .cons (.inl rfl) (ih 0)
      | succ more => exact .cons (.inr rfl) (ih more)

/-- A word without blanks that starts a faded text has not faded. -/
theorem dropFolded_of_fades {word before after : List Char} (fades : Fades before after)
    (whole : ∀ c ∈ word, c ≠ ' ' ∧ c ≠ '\n') (starts : (dropFolded word after).isSome) :
    (dropFolded word before).isSome := by
  induction word generalizing before after with
  | nil => rfl
  | cons w word ih =>
    cases fades with
    | nil => cases starts
    | cons same fades =>
      rename_i c d before after
      rw [dropFolded] at starts ⊢
      split at starts
      · rename_i folded
        obtain ⟨notSpace, notFeed⟩ := whole w List.mem_cons_self
        have kept : d = c := by
          refine eq_of_blanked same ⟨?_, ?_⟩
          · rintro rfl
            exact notSpace folded
          · rintro rfl
            exact notFeed folded
        rw [← kept, if_pos folded]
        exact ih fades (fun c member => whole c (List.mem_cons_of_mem _ member)) starts
      · cases starts

/-- A word occurs in a text, letters compared without regard to case. -/
def occursFolded (word : List Char) : List Char → Bool
  | [] => (dropFolded word []).isSome
  | c :: rest => (dropFolded word (c :: rest)).isSome || occursFolded word rest

theorem occursFolded_of_fades {word before after : List Char} (fades : Fades before after)
    (whole : ∀ c ∈ word, c ≠ ' ' ∧ c ≠ '\n') (occurs : occursFolded word after = true) :
    occursFolded word before = true := by
  induction fades with
  | nil => exact occurs
  | cons same fades ih =>
    rw [occursFolded, Bool.or_eq_true] at occurs ⊢
    rcases occurs with here | later
    · exact .inl (dropFolded_of_fades (.cons same fades) whole here)
    · exact .inr (ih later)

/-- What is absent from a text is absent from what preprocessing leaves of it. -/
theorem occursFolded_preprocess {word : List Char} (whole : ∀ c ∈ word, c ≠ ' ' ∧ c ≠ '\n')
    {source : List Char} (absent : occursFolded word source = false) :
    occursFolded word (preprocess source) = false := by
  rw [Bool.eq_false_iff] at absent ⊢
  intro occurs
  have inner := occursFolded_of_fades (blankMatches_fades styleLength 0 _) whole occurs
  exact absent (occursFolded_of_fades (blankMatches_fades commentLength 0 source) whole inner)

/-- A text in which nothing starts that would be blanked out stays as it is. -/
theorem blankMatches_of_absent {matchLength : List Char → Nat} {text : List Char}
    (absent : ∀ rest, rest <:+ text → matchLength rest = 0) :
    blankMatches matchLength 0 text = text := by
  induction text with
  | nil => rfl
  | cons c text ih =>
    rw [blankMatches, absent _ (List.suffix_refl _)]
    dsimp only
    rw [ih fun rest later => absent rest (later.trans (List.suffix_cons c text))]

theorem preprocess_of_absent {source : List Char}
    (comments : ∀ rest, rest <:+ source → commentLength rest = 0)
    (styles : ∀ rest, rest <:+ source → styleLength rest = 0) : preprocess source = source := by
  rw [preprocess, blankMatches_of_absent comments, blankMatches_of_absent styles]

end Phrasebook.Markup

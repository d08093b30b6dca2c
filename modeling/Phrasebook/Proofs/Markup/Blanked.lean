import Phrasebook.Proofs.Markup.Delimited
import Phrasebook.Proofs.Markup.Embedded
import Phrasebook.Proofs.Text.Class

set_option autoImplicit false

/-!
What is blanked out: the leftmost and shortest comments, and in what is left the leftmost and shortest
styles. Nothing else changes, and neither a comment nor a style is left.
-/
namespace Phrasebook.Markup

open Text (foldLetter isBlank endsWord startsWith startsWith_iff)

/-! ### The marks of comments and styles -/

def IsCommentStart (text : List Char) : Prop := text = "<!--".toList

def IsCommentEnd (text : List Char) : Prop := text = "-->".toList

def IsMarkupComment (text : List Char) : Prop := Delimited IsCommentStart IsCommentEnd text

/-- The opening tag of a style, up to the first angle bracket that closes. -/
def IsStyleTag (text : List Char) : Prop :=
  ∃ name attributes, text = name ++ (attributes ++ ['>']) ∧ name.map foldLetter = "<style".toList ∧
    endsWord attributes = true ∧ '>' ∉ attributes

def IsStyleEnd (text : List Char) : Prop :=
  ∃ name blanks, text = name ++ (blanks ++ ['>']) ∧ name.map foldLetter = "</style".toList ∧
    ∀ c ∈ blanks, isBlank c = true

def IsStyle (text : List Char) : Prop := Delimited IsStyleTag IsStyleEnd text

/-! ### Comments -/

theorem startsWith_commentEnd {text : List Char} :
    startsWith "-->".toList text = true ↔ ∃ closing, IsCommentEnd closing ∧ closing <+: text := by
  rw [startsWith_iff]
  constructor
  · exact fun stands => ⟨_, rfl, stands⟩
  · rintro ⟨closing, rfl, stands⟩
    exact stands

theorem commentLength_measures : Measures IsMarkupComment commentLength := by
  intro text
  rw [commentLength]
  by_cases starts : startsWith "<!--".toList text = true
  · rw [if_pos starts]
    obtain ⟨body, rfl⟩ := startsWith_iff.mp starts
    have inner : ("<!--".toList ++ body).drop 4 = body := rfl
    rw [inner]
    cases place : findFirst (startsWith "-->".toList) body with
    | none =>
      refine .inl ⟨rfl, ?_⟩
      rintro found ⟨opening, inside, closing, rfl, ends, rfl⟩ within
      exact not_closing_of_findFirst startsWith_commentEnd place ends
        ((List.prefix_append_right_inj _).mp within)
    | some pair =>
      obtain ⟨inside, closing, rest, rfl, length, -, rfl, first⟩ :=
        exists_closing_of_findFirst startsWith_commentEnd place
      refine .inr ⟨"<!--".toList ++ (inside ++ "-->".toList), rest, by simp, ?_, by simp, ?_⟩
      · simp only [List.length_append, String.reduceToList, List.length_cons, List.length_nil]
        omega
      · refine isShortest_delimited rfl rfl (fun other same _ => same) ?_
        rintro gap other rfl begins
        exact Nat.add_le_add_right (first gap _ rfl begins) _
  · rw [if_neg starts]
    refine .inl ⟨rfl, ?_⟩
    rintro found ⟨opening, inside, closing, rfl, -, rfl⟩ within
    exact starts (startsWith_iff.mpr ((List.prefix_append _ _).trans within))

/-- What is left of a text starts with a word without blanks only if the text does. -/
theorem prefix_of_fades {word before after : List Char} (fades : Fades before after)
    (whole : ∀ c ∈ word, c ≠ ' ' ∧ c ≠ '\n') (starts : word <+: after) : word <+: before := by
  induction word generalizing before after with
  | nil => exact List.nil_prefix
  | cons w word ih =>
    obtain ⟨rest, rfl⟩ := starts
    cases fades with
    | cons same fades =>
      rw [← eq_of_blanked same (whole w List.mem_cons_self)]
      exact List.cons_prefix_cons.mpr ⟨rfl, ih fades
        (fun c member => whole c (List.mem_cons_of_mem _ member)) (List.prefix_append _ _)⟩

theorem comment_marks : Marks IsCommentStart IsCommentEnd where
  begins := by
    rintro opening rfl
    exact ⟨_, rfl⟩
  late := by
    rintro opening other front text rfl rfl - - -
    exact Nat.le_add_left _ _
  reopens := by
    rintro opening c text result rfl gives starts
    exact ⟨_, rfl, prefix_of_fades (.cons (.inl rfl) gives.fades) (by simp) starts⟩

/-! ### Styles -/

theorem afterClosingTag?_eq_some {text after : List Char} :
    afterClosingTag? "style".toList text = some after ↔
      ∃ closing, IsStyleEnd closing ∧ text = closing ++ after := by
  have word : '<' :: '/' :: "style".toList = "</style".toList := rfl
  rw [afterClosingTag?, word]
  constructor
  · intro closes
    split at closes
    · rename_i rest begins
      obtain ⟨name, rfl, folds⟩ := dropFolded_eq_some.mp begins
      split at closes
      · rename_i left behind
        cases closes
        refine ⟨name ++ (rest.takeWhile isBlank ++ ['>']), ⟨name, _, rfl, folds, ?_⟩, ?_⟩
        · exact fun c member => List.mem_takeWhile_imp member
        · have whole := List.takeWhile_append_dropWhile (p := isBlank) (l := rest)
          rw [behind] at whole
          simp only [List.append_assoc, List.singleton_append, whole]
      · cases closes
    · cases closes
  · rintro ⟨closing, ⟨name, blanks, rfl, folds, blank⟩, rfl⟩
    have begins : dropFolded "</style".toList ((name ++ (blanks ++ ['>'])) ++ after) =
        some (blanks ++ '>' :: after) :=
      dropFolded_eq_some.mpr ⟨name, by simp only [List.append_assoc, List.singleton_append], folds⟩
    have left : (blanks ++ '>' :: after).dropWhile isBlank = '>' :: after :=
      Text.dropWhile_run blank (by rintro c ⟨⟩; decide)
    rw [begins]
    dsimp only
    rw [left]
    rfl

theorem isSome_afterClosingTag? {text : List Char} :
    (afterClosingTag? "style".toList text).isSome = true ↔ ∃ closing, IsStyleEnd closing ∧
      closing <+: text := by
  rw [Option.isSome_iff_exists]
  constructor
  · rintro ⟨after, closes⟩
    obtain ⟨closing, ends, rfl⟩ := afterClosingTag?_eq_some.mp closes
    exact ⟨closing, ends, List.prefix_append _ _⟩
  · rintro ⟨closing, ends, after, rfl⟩
    exact ⟨after, afterClosingTag?_eq_some.mpr ⟨closing, ends, rfl⟩⟩

/-- A word that holds no sign of markup has no such sign in any spelling. -/
theorem not_mem_of_folds {name word : List Char} {c : Char} (folds : name.map foldLetter = word)
    (absent : foldLetter c ∉ word) : c ∉ name := by
  intro member
  exact absent (folds ▸ List.mem_map_of_mem member)

/-- A tag of a style is read from its name up to the first angle bracket that closes. -/
theorem styleTag_reads {tag : List Char} (isTag : IsStyleTag tag) (inner : List Char) :
    ∃ rest, dropFolded "<style".toList (tag ++ inner) = some rest ∧ endsWord rest = true ∧
      rest.dropWhile (· ≠ '>') = '>' :: inner := by
  obtain ⟨name, attributes, rfl, folds, ends, whole⟩ := isTag
  refine ⟨attributes ++ '>' :: inner, ?_, ?_, ?_⟩
  · exact dropFolded_eq_some.mpr
      ⟨name, by simp only [List.append_assoc, List.singleton_append], folds⟩
  · rw [endsWord_append (by decide), ends]
  · exact Text.dropWhile_run (fun c member => decide_eq_true fun same => whole (same ▸ member))
      (by rintro c ⟨⟩; decide)

theorem exists_styleTag {text rest inner : List Char}
    (begins : dropFolded "<style".toList text = some rest) (ends : endsWord rest = true)
    (left : rest.dropWhile (· ≠ '>') = '>' :: inner) :
    ∃ tag, IsStyleTag tag ∧ text = tag ++ inner := by
  obtain ⟨name, rfl, folds⟩ := dropFolded_eq_some.mp begins
  have whole := List.takeWhile_append_dropWhile (p := (· ≠ '>')) (l := rest)
  rw [left] at whole
  refine ⟨name ++ (rest.takeWhile (· ≠ '>') ++ ['>']), ⟨name, _, rfl, folds, ?_, ?_⟩, ?_⟩
  · rw [← whole, endsWord_append (by decide)] at ends
    exact ends
  · intro member
    have other : '>' ≠ '>' := by simpa using List.mem_takeWhile_imp member
    exact other rfl
  · simp only [List.append_assoc, List.singleton_append, whole]

theorem styleTag_unique {tag other text : List Char} (isTag : IsStyleTag tag)
    (isOther : IsStyleTag other) (starts : tag <+: text) (otherStarts : other <+: text) :
    other = tag := by
  obtain ⟨inner, rfl⟩ := starts
  obtain ⟨otherInner, same⟩ := otherStarts
  obtain ⟨rest, begins, -, left⟩ := styleTag_reads isTag inner
  obtain ⟨otherRest, otherBegins, -, otherLeft⟩ := styleTag_reads isOther otherInner
  rw [same, begins, Option.some.injEq] at otherBegins
  rw [← otherBegins, left] at otherLeft
  obtain ⟨-, behind⟩ := List.cons.inj otherLeft
  rw [behind] at same
  exact List.append_cancel_right same

theorem styleEnd_begins {closing : List Char} (ends : IsStyleEnd closing) :
    ∃ rest, closing = '<' :: rest ∧ '<' ∉ rest := by
  obtain ⟨name, blanks, rfl, folds, blank⟩ := ends
  cases name with
  | nil => cases folds
  | cons c name =>
    obtain ⟨first, others⟩ := List.cons.inj folds
    rw [foldLetter_eq_opening first]
    refine ⟨name ++ (blanks ++ ['>']), rfl, ?_⟩
    rw [List.mem_append, List.mem_append, List.mem_singleton]
    rintro (inName | inBlanks | angle)
    · exact not_mem_of_folds others (by decide) inName
    · exact absurd (blank _ inBlanks) (by decide)
    · exact absurd angle (by decide)

/-- The first closing tag of a style ends before the next one. -/
theorem styleEnd_first {inside closing after gap other : List Char} (closes : IsStyleEnd closing)
    (otherCloses : IsStyleEnd other) (begins : gap ++ other <+: inside ++ (closing ++ after))
    (late : inside.length ≤ gap.length) :
    inside.length + closing.length ≤ gap.length + other.length := by
  obtain ⟨behind, cut⟩ := begins
  rw [List.append_assoc] at cut
  have within : inside <+: gap :=
    List.prefix_of_prefix_length_le (List.prefix_append inside (closing ++ after)) ⟨_, cut⟩ late
  obtain ⟨between, rfl⟩ := within
  rw [List.append_assoc] at cut
  have same : between ++ (other ++ behind) = closing ++ after := List.append_cancel_left cut
  rw [List.length_append]
  cases between with
  | nil =>
    rw [List.nil_append] at same
    have reads : afterClosingTag? "style".toList (other ++ behind) = some after :=
      afterClosingTag?_eq_some.mpr ⟨closing, closes, same⟩
    have otherReads : afterClosingTag? "style".toList (other ++ behind) = some behind :=
      afterClosingTag?_eq_some.mpr ⟨other, otherCloses, rfl⟩
    rw [otherReads, Option.some.injEq] at reads
    rw [reads] at same
    rw [List.append_cancel_right same, List.length_nil, Nat.add_zero]
  | cons c between =>
    -- in a closing tag no other one starts
    obtain ⟨rest, rfl, single⟩ := styleEnd_begins closes
    obtain ⟨inner, rfl, -⟩ := styleEnd_begins otherCloses
    have tail : between ++ ('<' :: inner ++ behind) = rest ++ after := (List.cons.inj same).2
    have apart : rest.length ≤ between.length := by
      by_contra shorter
      have front : between ++ ['<'] <+: rest :=
        List.prefix_of_prefix_length_le ⟨inner ++ behind, by rw [← tail]; simp⟩
          (List.prefix_append rest after) (by rw [List.length_append, List.length_singleton]; omega)
      exact single (front.subset (List.mem_append_right _ (List.mem_singleton_self _)))
    simp only [List.length_cons]
    omega

/-- Where no tag of a style stands, there is none. -/
theorem styleLength_eq_zero {text : List Char}
    (untagged : ∀ tag inner, IsStyleTag tag → text ≠ tag ++ inner) : styleLength text = 0 := by
  rw [styleLength]
  split
  · rfl
  · rename_i rest begins
    split
    · rename_i inner ends left
      obtain ⟨tag, isTag, cut⟩ := exists_styleTag begins ends left
      exact absurd cut (untagged tag inner isTag)
    · rfl

/-- Behind the tag of a style without a closing one no style ends. -/
theorem not_style_of_findFirst {tag body : List Char} (isTag : IsStyleTag tag)
    (place : findFirst (fun t => (afterClosingTag? "style".toList t).isSome) body = none)
    {found : List Char} (isStyle : IsStyle found) : ¬found <+: tag ++ body := by
  obtain ⟨other, inside, closing, isOther, closes, rfl⟩ := isStyle
  intro within
  have same := styleTag_unique isTag isOther (List.prefix_append _ _)
    ((List.prefix_append _ _).trans within)
  rw [same] at within
  exact not_closing_of_findFirst isSome_afterClosingTag? place closes
    ((List.prefix_append_right_inj _).mp within)

/-- Behind the tag of a style the first closing one ends it. -/
theorem isShortest_style {tag inside closing after : List Char} (isTag : IsStyleTag tag)
    (closes : IsStyleEnd closing)
    (first : ∀ gap other, IsStyleEnd other → gap ++ other <+: inside ++ (closing ++ after) →
      inside.length ≤ gap.length) :
    IsShortest IsStyle (tag ++ (inside ++ closing)) (tag ++ (inside ++ (closing ++ after))) :=
  isShortest_delimited isTag closes
    (fun _ isOther starts => styleTag_unique isTag isOther (List.prefix_append _ _) starts)
    fun gap other otherCloses begins =>
      styleEnd_first closes otherCloses begins (first gap other otherCloses begins)

theorem styleLength_measures : Measures IsStyle styleLength := by
  intro text
  by_cases tagged : ∃ tag inner, IsStyleTag tag ∧ text = tag ++ inner
  · obtain ⟨tag, body, isTag, rfl⟩ := tagged
    obtain ⟨rest, begins, ends, left⟩ := styleTag_reads isTag body
    rw [styleLength_of_opening begins ends left]
    cases place : findFirst (fun t => (afterClosingTag? "style".toList t).isSome) body with
    | none => exact .inl ⟨rfl, fun found => not_style_of_findFirst isTag place⟩
    | some pair =>
      obtain ⟨count, close⟩ := pair
      obtain ⟨inside, closing, after, rfl, -, rfl, closes, first⟩ :=
        exists_closing_of_findFirst isSome_afterClosingTag? place
      have passed : afterClosingTag? "style".toList (closing ++ after) = some after :=
        afterClosingTag?_eq_some.mpr ⟨closing, closes, rfl⟩
      dsimp only
      rw [passed]
      dsimp only
      have some : tag ≠ [] := by
        obtain ⟨name, attributes, rfl, -⟩ := isTag
        simp
      have whole : (tag ++ (inside ++ (closing ++ after))).length =
          (tag ++ (inside ++ closing)).length + after.length := by
        simp only [List.length_append]
        omega
      refine .inr ⟨tag ++ (inside ++ closing), after, by simp only [List.append_assoc], ?_,
        by simp [some], isShortest_style isTag closes first⟩
      rw [whole, Nat.add_sub_cancel]
  · refine .inl ⟨styleLength_eq_zero fun tag inner isTag cut => tagged ⟨tag, inner, isTag, cut⟩, ?_⟩
    rintro found ⟨tag, inside, closing, isTag, -, rfl⟩ ⟨behind, cut⟩
    exact tagged ⟨tag, inside ++ closing ++ behind, isTag, by rw [← cut]; simp⟩

/-- A sign of markup that is left was there before. -/
theorem mem_of_fades {before after : List Char} (fades : Fades before after) {c : Char}
    (shown : c ≠ ' ' ∧ c ≠ '\n') (member : c ∈ after) : c ∈ before := by
  induction fades with
  | nil => exact member
  | cons same _ ih =>
    rcases List.mem_cons.mp member with rfl | later
    · rw [eq_of_blanked same shown]
      exact List.mem_cons_self
    · exact List.mem_cons_of_mem _ (ih later)

theorem styleTag_begins {tag : List Char} (isTag : IsStyleTag tag) : ∃ rest, tag = '<' :: rest := by
  obtain ⟨name, attributes, rfl, folds, -⟩ := isTag
  cases name with
  | nil => cases folds
  | cons c name =>
    rw [foldLetter_eq_opening (List.cons.inj folds).1]
    exact ⟨_, rfl⟩

/-- A style that starts later has its tag closed no earlier. -/
theorem styleTag_late {tag other front text : List Char} (isTag : IsStyleTag tag)
    (isOther : IsStyleTag other) (starts : tag <+: front ++ text) (otherStarts : other <+: text) :
    tag.length ≤ front.length + other.length := by
  obtain ⟨name, attributes, rfl, folds, -, whole⟩ := isTag
  obtain ⟨otherName, otherAttributes, rfl, -⟩ := isOther
  by_contra longer
  simp only [List.length_append, List.length_singleton] at longer
  have inTag : front ++ (otherName ++ (otherAttributes ++ ['>'])) <+: name ++ attributes := by
    refine List.prefix_of_prefix_length_le ((List.prefix_append_right_inj front).mpr otherStarts)
      (List.IsPrefix.trans ⟨['>'], by rw [List.append_assoc]⟩ starts) ?_
    simp only [List.length_append, List.length_singleton]
    omega
  have angle : '>' ∈ name ++ attributes := inTag.subset (by simp)
  rcases List.mem_append.mp angle with inName | inAttributes
  · exact not_mem_of_folds folds (by decide) inName
  · exact whole inAttributes

/-- A word ended before where it ends in what is left: at most the start of a style was blanked out
there. -/
theorem endsWord_reopens {attributes own inner after : List Char} (ends : endsWord attributes = true)
    (gives : Blanked IsStyle (own ++ '>' :: inner) after) (left : attributes ++ ['>'] <+: after) :
    endsWord own = true := by
  cases own with
  | nil => rfl
  | cons c own =>
    generalize same : c :: own ++ '>' :: inner = text at gives
    cases gives with
    | nil => cases same
    | keep _ _ =>
      obtain ⟨rfl, -⟩ := List.cons.inj same
      cases attributes with
      | nil =>
        rw [← (List.cons_prefix_cons.mp left).1]
        rfl
      | cons d attributes =>
        rw [← (List.cons_prefix_cons.mp left).1]
        exact ends
    | blank _ shortest _ =>
      obtain ⟨more, rfl⟩ := shortest.holds.begins fun _ => styleTag_begins
      rw [(List.cons.inj same).1]
      rfl

/-- The tag of a style that is left was one before. -/
theorem styleTag_reopens {tag text result : List Char} {c : Char} (isTag : IsStyleTag tag)
    (gives : Blanked IsStyle text result) (stands : tag <+: c :: result) :
    ∃ before, IsStyleTag before ∧ before <+: c :: text := by
  obtain ⟨name, attributes, rfl, folds, ends, -⟩ := isTag
  cases name with
  | nil => cases folds
  | cons d name =>
    obtain ⟨rfl, behind⟩ := List.cons_prefix_cons.mp stands
    obtain ⟨first, others⟩ := List.cons.inj folds
    have shown : ∀ c ∈ name, c ≠ ' ' ∧ c ≠ '\n' := by
      intro c member
      constructor
      · rintro rfl
        exact not_mem_of_folds others (by decide) member
      · rintro rfl
        exact not_mem_of_folds others (by decide) member
    obtain ⟨rest, rfl⟩ : name <+: text :=
      prefix_of_fades gives.fades shown ((List.prefix_append _ _).trans behind)
    obtain ⟨after, rfl, later⟩ :=
      gives.front (fun _ isStyle => isStyle.begins fun _ => styleTag_begins)
        (not_mem_of_folds others (by decide))
    have left : attributes ++ ['>'] <+: after := (List.prefix_append_right_inj name).mp behind
    have angle : '>' ∈ rest := mem_of_fades later.fades (by decide) (left.subset (by simp))
    obtain ⟨own, inner, rfl, absent⟩ := List.eq_append_cons_of_mem angle
    exact ⟨d :: name ++ (own ++ ['>']), ⟨d :: name, own, rfl, folds,
      endsWord_reopens ends later left, absent⟩, inner, by simp⟩

theorem style_marks : Marks IsStyleTag IsStyleEnd where
  begins _ := styleTag_begins
  late _ _ _ _ isTag isOther _ := styleTag_late isTag isOther
  reopens _ _ _ _ := styleTag_reopens

/-! ### Comments and styles -/

theorem comments_blanked (source : List Char) :
    Blanked IsMarkupComment source (blankMatches commentLength 0 source) :=
  blankMatches_blanked commentLength_measures source

theorem styles_blanked (source : List Char) :
    Blanked IsStyle (blankMatches commentLength 0 source) (preprocess source) :=
  blankMatches_blanked styleLength_measures _

theorem fades_cut {before front rest : List Char} (fades : Fades before (front ++ rest)) :
    ∃ own behind, before = own ++ behind ∧ Fades own front ∧ Fades behind rest := by
  induction front generalizing before with
  | nil => exact ⟨[], before, rfl, .nil, fades⟩
  | cons c front ih =>
    cases fades with
    | cons same fades =>
      obtain ⟨own, behind, rfl, first, later⟩ := ih fades
      exact ⟨_ :: own, behind, rfl, .cons same first, later⟩

theorem eq_of_fades {word own : List Char} (fades : Fades own word)
    (whole : ∀ c ∈ word, c ≠ ' ' ∧ c ≠ '\n') : own = word := by
  have starts : word <+: own := prefix_of_fades fades whole (List.prefix_refl word)
  exact (starts.eq_of_length fades.length_eq.symm).symm

/-- Blanking out makes no comments. -/
theorem isComment_of_fades {before after found : List Char} (fades : Fades before after)
    (isComment : IsMarkupComment found) (left : found <:+: after) :
    ∃ own, IsMarkupComment own ∧ own <:+: before := by
  obtain ⟨opening, inner, closing, rfl, rfl, rfl⟩ := isComment
  obtain ⟨front, rest, rfl⟩ := left
  obtain ⟨ownText, behind, rfl, fades, -⟩ := fades_cut fades
  obtain ⟨ownFront, ownFound, rfl, -, fades⟩ := fades_cut fades
  obtain ⟨ownOpening, ownInside, rfl, opens, fades⟩ := fades_cut fades
  obtain ⟨ownInner, ownClosing, rfl, -, closes⟩ := fades_cut fades
  exact ⟨ownOpening ++ (ownInner ++ ownClosing), ⟨ownOpening, ownInner, ownClosing,
    eq_of_fades opens (by simp), eq_of_fades closes (by simp), rfl⟩, ownFront, behind, rfl⟩

theorem getElem?_of_fades {before after : List Char} (fades : Fades before after) {index : Nat}
    {c : Char} (stands : before[index]? = some c) :
    ∃ d, after[index]? = some d ∧ (d = c ∨ c ≠ '\n' ∧ d = ' ') := by
  induction fades generalizing index with
  | nil => cases stands
  | @cons b d _ _ same _ ih =>
    cases index with
    | zero =>
      have first : b = c := Option.some.inj stands
      refine ⟨d, rfl, ?_⟩
      rw [first, blanked] at same
      split at same
      · rename_i feed
        exact .inl (same.elim id fun stays => stays.trans feed.symm)
      · rename_i other
        exact same.imp_right fun gone => ⟨other, gone⟩
    | succ index => exact ih stands

/-- Preprocessing keeps every position. The leftmost and shortest comments are blanked out, and then
the leftmost and shortest styles of what is left; a character that changes lies in one of them, is
no line feed and becomes a space. Neither a comment nor a style is left, so that preprocessing once
more changes nothing. -/
theorem preprocess_blanked (source : List Char) :
    ∃ uncommented, Blanked IsMarkupComment source uncommented ∧
      Blanked IsStyle uncommented (preprocess source) ∧
      (preprocess source).length = source.length ∧
      (∀ (index : Nat) (c : Char), source[index]? = some c → ∃ d, (preprocess source)[index]? = some d ∧
        (d = c ∨ c ≠ '\n' ∧ d = ' ')) ∧
      (∀ index : Nat, (preprocess source)[index]? ≠ source[index]? →
        ∃ front found rest, front.length ≤ index ∧ index < front.length + found.length ∧
          (source = front ++ (found ++ rest) ∧ IsMarkupComment found ∨
            uncommented = front ++ (found ++ rest) ∧ IsStyle found)) ∧
      (∀ found, found <:+: preprocess source → ¬IsMarkupComment found ∧ ¬IsStyle found) ∧
      preprocess (preprocess source) = preprocess source := by
  have comments := comments_blanked source
  have styles := styles_blanked source
  have noComment (found : List Char) (isComment : IsMarkupComment found) :
      ¬found <:+: preprocess source := by
    intro left
    obtain ⟨own, isOwn, inside⟩ := isComment_of_fades styles.fades isComment left
    exact comment_marks.none_left comments own isOwn inside
  have noStyle := style_marks.none_left styles
  have again : preprocess (preprocess source) = preprocess source := by
    have whole := (comments_blanked (preprocess source)).eq_of_none noComment
    have twice := styles_blanked (preprocess source)
    rw [whole] at twice
    exact twice.eq_of_none noStyle
  refine ⟨_, comments, styles, ?_, ?_, ?_, fun found inside => ⟨fun isComment =>
    noComment found isComment inside, fun isStyle => noStyle found isStyle inside⟩, again⟩
  · rw [← styles.fades.length_eq, ← comments.fades.length_eq]
  · intro index c stands
    obtain ⟨d, found, same⟩ := getElem?_of_fades comments.fades stands
    obtain ⟨e, left, still⟩ := getElem?_of_fades styles.fades found
    refine ⟨e, left, ?_⟩
    rcases same with rfl | ⟨shown, rfl⟩
    · exact still
    · exact .inr ⟨shown, still.elim id fun gone => gone.2⟩
  · intro index changed
    by_cases first : (blankMatches commentLength 0 source)[index]? = source[index]?
    · rw [← first] at changed
      obtain ⟨front, found, rest, cut, isStyle, from_, upTo⟩ := styles.inside changed
      exact ⟨front, found, rest, from_, upTo, .inr ⟨cut, isStyle⟩⟩
    · obtain ⟨front, found, rest, cut, isComment, from_, upTo⟩ := comments.inside first
      exact ⟨front, found, rest, from_, upTo, .inl ⟨cut, isComment⟩⟩

end Phrasebook.Markup

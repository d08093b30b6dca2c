import Phrasebook.Markup.Parse
import Phrasebook.Proofs.Markup.Blanking
import Phrasebook.Proofs.Markup.Steps
import Phrasebook.Proofs.Source.Position

set_option autoImplicit false

/-!
A component that is one script. Its tree holds the tree that the script has by itself, after
comments and styles are blanked out in it, with the first line moved past the opening tag.
-/
namespace Phrasebook.Markup

open Outcome
open Source (Placement)

/-- A component of one script. -/
def embedded (script : List Char) : List Char :=
  "<script>".toList ++ (script ++ "</script>".toList)

theorem embedded_eq (script : List Char) :
    embedded script = "<script>".toList ++ (script ++ "</script>".toList) := rfl

/-- A text in which no tag of a script opens or closes. -/
structure NoScriptTag (text : List Char) : Prop where
  noOpening : occursFolded "<script".toList text = false
  noClosing : occursFolded "</script".toList text = false

instance (text : List Char) : Decidable (NoScriptTag text) :=
  decidable_of_iff (occursFolded "<script".toList text = false ∧
      occursFolded "</script".toList text = false)
    ⟨fun both => ⟨both.1, both.2⟩, fun lacks => ⟨lacks.noOpening, lacks.noClosing⟩⟩

theorem NoScriptTag.preprocess {text : List Char} (lacks : NoScriptTag text) :
    NoScriptTag (preprocess text) :=
  ⟨occursFolded_preprocess (by simp) lacks.noOpening,
    occursFolded_preprocess (by simp) lacks.noClosing⟩

/-! ### Preprocessing -/

theorem commentLength_isLocal : IsLocal commentLength "</script>".toList where
  within := commentLength_le
  same c text := commentLength_append (by decide : '<' ∉ "!-->".toList) (by decide) c text
  absent := by decide

theorem styleLength_isLocal : IsLocal styleLength "</script>".toList where
  within := styleLength_le
  same c text := styleLength_append (⟨by decide, by decide⟩ : Parts '<') (by decide) (by decide)
    (by decide) (by decide) c text
  absent := by decide

/-- Nothing that begins in a tag of a script without attributes is blanked out. -/
theorem blankMatches_opening {matchLength : List Char → Nat}
    (opening : ∀ rest, matchLength ("<script>".toList ++ rest) = 0)
    (none : ∀ c, c ≠ '<' → ∀ rest, matchLength (c :: rest) = 0) (rest : List Char) :
    blankMatches matchLength 0 ("<script>".toList ++ rest) =
      "<script>".toList ++ blankMatches matchLength 0 rest := by
  have here := opening rest
  simp only [String.reduceToList, List.cons_append, List.nil_append] at here ⊢
  simp only [blankMatches, here, none _ (by decide : 's' ≠ '<'), none _ (by decide : 'c' ≠ '<'),
    none _ (by decide : 'r' ≠ '<'), none _ (by decide : 'i' ≠ '<'),
    none _ (by decide : 'p' ≠ '<'), none _ (by decide : 't' ≠ '<'),
    none _ (by decide : '>' ≠ '<')]

theorem commentLength_of_ne {c : Char} (other : c ≠ '<') (rest : List Char) :
    commentLength (c :: rest) = 0 := by
  have apart : '<' ≠ c := Ne.symm other
  simp [commentLength, Text.startsWith, Text.dropStart, apart]

theorem foldLetter_eq_opening {c : Char} (folds : Text.foldLetter c = '<') : c = '<' := by
  rw [Text.foldLetter] at folds
  split at folds
  · cases folds
  · split at folds
    · cases folds
    · split at folds
      · cases folds
      · delta Char.toLower at folds
        split at folds
        · rename_i capital
          -- a small letter has a higher number than any sign of markup
          have code := congrArg (fun c => c.val.toNat) folds
          have low := UInt32.le_iff_toNat_le.mp capital.1
          have high := UInt32.le_iff_toNat_le.mp capital.2
          rw [UInt32.toNat_add] at code
          have letters : ('A'.val.toNat = 65 ∧ 'Z'.val.toNat = 90) ∧
              ('a'.val - 'A'.val).toNat = 32 ∧ '<'.val.toNat = 60 := by decide
          omega
        · exact folds

theorem styleLength_of_ne {c : Char} (other : c ≠ '<') (rest : List Char) :
    styleLength (c :: rest) = 0 := by
  have apart : '<' ≠ Text.foldLetter c := fun folds => other (foldLetter_eq_opening folds.symm)
  simp [styleLength, dropFolded, apart]

theorem commentLength_opening (rest : List Char) :
    commentLength ("<script>".toList ++ rest) = 0 := by
  simp [commentLength, Text.startsWith, Text.dropStart]

theorem styleLength_opening (rest : List Char) : styleLength ("<script>".toList ++ rest) = 0 := by
  have folds : Text.foldLetter 's' = 's' ∧ Text.foldLetter 'c' = 'c' := by decide
  simp [styleLength, dropFolded, folds]

theorem preprocess_embedded (script : List Char) :
    preprocess (embedded script) = embedded (preprocess script) := by
  have comments : blankMatches commentLength 0 (embedded script) =
      embedded (blankMatches commentLength 0 script) := by
    rw [embedded_eq, blankMatches_opening commentLength_opening fun _ => commentLength_of_ne,
      blankMatches_append commentLength_isLocal (Nat.zero_le _), embedded_eq]
  have styles (text : List Char) : blankMatches styleLength 0 (embedded text) =
      embedded (blankMatches styleLength 0 text) := by
    rw [embedded_eq, blankMatches_opening styleLength_opening fun _ => styleLength_of_ne,
      blankMatches_append styleLength_isLocal (Nat.zero_le _), embedded_eq]
  rw [preprocess, comments, styles, preprocess]

/-! ### The dialect -/

theorem occursFolded_append (w : Char) {word : List Char} {next : Char}
    (apart : Text.foldLetter next ∉ word) (back : List Char) {text : List Char}
    (later : occursFolded (w :: word) (next :: back) = false)
    (absent : occursFolded (w :: word) text = false) :
    occursFolded (w :: word) (text ++ next :: back) = false := by
  induction text with
  | nil => exact later
  | cons c text ih =>
    rw [occursFolded, Bool.or_eq_false_iff] at absent
    have starts := dropFolded_cons_append (w := w) apart c text back
    rw [List.cons_append] at starts ⊢
    rw [occursFolded, starts, Option.isSome_map, absent.1, ih absent.2, Bool.or_self]

theorem hasTypedScript_of_absent {text : List Char}
    (absent : occursFolded "<script".toList text = false) : hasTypedScript text = false := by
  induction text with
  | nil => rfl
  | cons c text ih =>
    rw [occursFolded, Bool.or_eq_false_iff, Option.isSome_eq_false_iff, Option.isNone_iff_eq_none]
      at absent
    rw [hasTypedScript, absent.1, ih absent.2, Bool.or_self]

theorem hasTypedScript_embedded (script : List Char) :
    hasTypedScript (embedded script) = hasTypedScript (script ++ "</script>".toList) := by
  have folds : Text.foldLetter '<' = '<' ∧ Text.foldLetter 's' = 's' ∧ Text.foldLetter 'c' = 'c' ∧
      Text.foldLetter 'r' = 'r' ∧ Text.foldLetter 'i' = 'i' ∧ Text.foldLetter 'p' = 'p' ∧
      Text.foldLetter 't' = 't' ∧ Text.foldLetter '>' = '>' := by decide
  rw [embedded_eq]
  simp [hasTypedScript, dropFolded, tagSetsTyped, folds]

theorem dialect_embedded {script : List Char} (lacks : NoScriptTag script) :
    dialect (embedded script) = .javascript := by
  have later : occursFolded "<script".toList (script ++ "</script>".toList) = false :=
    occursFolded_append '<' (by decide : Text.foldLetter '<' ∉ "script".toList)
      "/script>".toList (by decide) lacks.noOpening
  rw [dialect, hasTypedScript_embedded, hasTypedScript_of_absent later, if_neg Bool.false_ne_true]

/-! ### The tree -/

theorem embedded_chars (script : List Char) :
    embedded script = '<' :: 's' :: 'c' :: 'r' :: 'i' :: 'p' :: 't' :: '>' ::
      (script ++ "</script>".toList) := by
  rw [embedded_eq]
  simp

theorem findFirst_of_back {test : List Char → Bool} {text back : List Char}
    (absent : ∀ c rest, c :: rest <:+ text → test (c :: rest ++ back) = false)
    (found : findFirst test back = some (0, back)) :
    findFirst test (text ++ back) = some (text.length, back) := by
  induction text with
  | nil => exact found
  | cons c text ih =>
    have here := absent c text (List.suffix_refl _)
    have later := ih fun d rest within => absent d rest (within.trans (List.suffix_cons c text))
    rw [List.cons_append] at here ⊢
    rw [findFirst, if_neg (by rw [here]; exact Bool.false_ne_true), later]
    rfl

theorem occursFolded_suffix {word text rest : List Char} (within : rest <:+ text)
    (absent : occursFolded word text = false) : occursFolded word rest = false := by
  induction text with
  | nil => rw [List.suffix_nil.mp within, absent]
  | cons c text ih =>
    rcases List.suffix_cons_iff.mp within with rfl | deeper
    · exact absent
    · rw [occursFolded, Bool.or_eq_false_iff] at absent
      exact ih deeper absent.2

/-- The content of a script without tags goes on to the closing tag that follows it. -/
theorem findFirst_closing {script : List Char} (lacks : NoScriptTag script) :
    findFirst (fun t => (afterClosingTag? "script".toList t).isSome) (script ++ "</script>".toList) =
      some (script.length, "</script>".toList) := by
  apply findFirst_of_back
  · intro c rest within
    have absent := occursFolded_suffix within lacks.noClosing
    rw [occursFolded, Bool.or_eq_false_iff, Option.isSome_eq_false_iff, Option.isNone_iff_eq_none]
      at absent
    have same := afterClosingTag?_append (⟨by decide, by decide⟩ : Parts '<')
      (by decide : Text.foldLetter '<' ∉ '/' :: "script".toList) c rest "/script>".toList
    have alone : afterClosingTag? "script".toList (c :: rest) = none := by
      have tag : '<' :: '/' :: "script".toList = "</script".toList := by decide
      rw [afterClosingTag?, tag, absent.1]
    rw [alone] at same
    change (afterClosingTag? "script".toList (c :: rest ++ "</script>".toList)).isSome = false
    rw [show "</script>".toList = '<' :: "/script>".toList from by decide, same]
    rfl
  · decide

/-- What is written in front of a script in a component. -/
def afterTag : Placement := Source.shifted ⟨1, 8⟩ 0

/-- A component whose text is one script. -/
def scriptComponent (script : List Char) : Component := ⟨embedded script, .javascript⟩

theorem position_opening (script : List Char) :
    (scriptComponent script).position (embedded script) = ⟨1, 0⟩ := by
  rw [Component.position, Component.offset]
  change Source.positionAt (embedded script) ((embedded script).length - (embedded script).length) = _
  rw [Nat.sub_self]
  exact Source.positionAt_append [] (embedded script)

theorem position_script (script : List Char) :
    (scriptComponent script).position (script ++ "</script>".toList) = ⟨1, 8⟩ := by
  have number : (scriptComponent script).offset (script ++ "</script>".toList) = 8 := by
    change (embedded script).length - (script ++ "</script>".toList).length = 8
    rw [embedded_chars]
    simp only [List.length_cons]
    omega
  rw [Component.position, number]
  exact Source.positionAt_append "<script>".toList (script ++ "</script>".toList)

theorem scriptContent_embedded {script : List Char} (lacks : NoScriptTag script) :
    (scriptComponent script).scriptContent ⟨1, 0⟩ [] (script ++ "</script>".toList) =
      match Script.parse? .javascript afterTag script with
      | some tree => .ok (.script ⟨1, 0⟩ [] (some tree), [])
      | none => .error ⟨.grammar, none⟩ := by
  have text : Component.before (script ++ "</script>".toList) "</script>".toList = script := by
    rw [Component.before, List.length_append, Nat.add_sub_cancel, List.take_left]
  have last : afterClosingTag? "script".toList "</script>".toList = some [] := by decide
  rw [Component.scriptContent, findFirst_closing lacks]
  dsimp only
  rw [Component.script, position_script, text, last]
  change (match Script.parse? .javascript afterTag script with
    | some tree => Except.ok tree
    | none => Except.error _) >>= _ = _
  cases Script.parse? .javascript afterTag script <;> rfl

theorem openTag_embedded {script : List Char} (lacks : NoScriptTag script) :
    (scriptComponent script).openTag ⟨[], []⟩ (embedded script) "script".toList
        ('>' :: (script ++ "</script>".toList)) =
      match Script.parse? .javascript afterTag script with
      | some tree => .ok (⟨[], [.script ⟨1, 0⟩ [] (some tree)]⟩, [])
      | none => .error ⟨.grammar, none⟩ := by
  have isScript : isScript (String.ofList "script".toList) = true := by decide
  rw [Component.openTag, Component.attributes_open _ _ (List.dropWhile_cons_of_neg (by decide)),
    ok_bind]
  dsimp only
  rw [ if_pos isScript, if_neg Bool.false_ne_true,
    position_opening, scriptContent_embedded lacks]
  cases Script.parse? .javascript afterTag script <;> rfl

theorem tagName?_embedded (script : List Char) :
    tagName? ('s' :: 'c' :: 'r' :: 'i' :: 'p' :: 't' :: '>' :: script) =
      some ("script".toList, '>' :: script) := by
  have parts : isTagNamePart 'c' ∧ isTagNamePart 'r' ∧ isTagNamePart 'i' ∧ isTagNamePart 'p' ∧
      isTagNamePart 't' ∧ isTagNamePart '>' = false ∧ Text.isAsciiLetter 's' := by decide
  simp [tagName?, parts]

/-- A component of one script has the tree of the script. -/
theorem parse_embedded {script : List Char} (lacks : NoScriptTag script) :
    parse (embedded script) =
      match Script.parse? .javascript afterTag script with
      | some tree => .ok (.fragment ⟨1, 0⟩ [.script ⟨1, 0⟩ [] (some tree)])
      | none => .error ⟨.grammar, none⟩ := by
  have opened := (scriptComponent script).content_openTag (embedded script).length ⟨[], []⟩
    (tagName?_embedded (script ++ "</script>".toList))
  rw [← embedded_chars, openTag_embedded lacks] at opened
  rw [parse, dialect_embedded lacks, Component.tree]
  change ((scriptComponent script).content ((embedded script).length + 1) ⟨[], []⟩
      (embedded script) >>= _) = _
  rw [opened]
  cases Script.parse? .javascript afterTag script with
  | none => rfl
  | some tree =>
    rw [ok_bind, Component.content_nil]
    rfl

end Phrasebook.Markup

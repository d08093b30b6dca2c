import Phrasebook.Catalog.Locales
import Phrasebook.Proofs.Catalog.Beside
import Phrasebook.Proofs.Project.Found

set_option autoImplicit false

/-!
The locales that a template has catalogs for. They are read off the names in one directory, which
undoes the filling of the template where it has one place for the locale and its own characters stand
for nothing else.
-/
namespace Phrasebook

/-! ### Patterns that stand for themselves -/

namespace Files

/-- What a character stands for that opens no brackets. -/
def stepOf (c : Char) : PatternStep :=
  if c = '*' then .many else if c = '?' then .any else .literal c

theorem patternSteps_of_plain {fuel : Nat} {text : List Char} (enough : text.length < fuel)
    (plain : '[' ∉ text) : patternSteps fuel text = text.map stepOf := by
  induction text generalizing fuel with
  | nil =>
    obtain ⟨fuel, rfl⟩ := Nat.exists_eq_add_of_lt enough
    rfl
  | cons c text ih =>
    rw [List.mem_cons, not_or] at plain
    rw [List.length_cons] at enough
    obtain ⟨fuel, rfl⟩ : ∃ less, fuel = less + 1 := ⟨fuel - 1, by omega⟩
    rw [patternSteps, ih (by omega) plain.2, List.map_cons, stepOf, if_neg (Ne.symm plain.1)]
    split
    · rfl
    · split <;> rfl

/-- A star passes any characters. -/
theorem fitsSteps_many {steps : List PatternStep} {text : List Char} (skipped : List Char)
    (fit : fitsSteps steps text = true) :
    fitsSteps (.many :: steps) (skipped ++ text) = true := by
  have later : ∀ skipped, fitsSteps steps (skipped ++ text) = true ∨
      fitsSteps.fitsLater steps (skipped ++ text) = true := by
    intro skipped
    induction skipped with
    | nil => exact .inl fit
    | cons c skipped ih =>
      refine .inr ?_
      rw [List.cons_append, fitsSteps.fitsLater, Bool.or_eq_true]
      exact ih
  rw [fitsSteps, Bool.or_eq_true]
  exact later skipped

/-- Characters fit what they stand for. -/
theorem fitsSteps_self {steps : List PatternStep} {text : List Char} (self : List Char)
    (fit : fitsSteps steps text = true) :
    fitsSteps (self.map stepOf ++ steps) (self ++ text) = true := by
  induction self with
  | nil => exact fit
  | cons c self ih =>
    rw [List.map_cons, List.cons_append, stepOf]
    split
    · exact fitsSteps_many [c] ih
    · split
      · rw [List.cons_append, fitsSteps, ih]
        · rfl
        · intro same
          cases same
      · rw [List.cons_append, fitsSteps, ih]
        · simp [fits]
        · intro same
          cases same

theorem fitsPattern_self {text : List Char} (plain : '[' ∉ text) :
    fitsPattern text text = true := by
  have empty : fitsSteps [] [] = true := by rw [fitsSteps]; rfl
  have fit := fitsSteps_self text empty
  rw [List.append_nil, List.append_nil] at fit
  rw [fitsPattern, patternSteps_of_plain (Nat.lt_succ_self _) plain, fit]

/-- A star between two texts passes what stands between them. -/
theorem fitsPattern_around {before after : List Char} (plain : '[' ∉ before) (plainAfter : '[' ∉ after)
    (middle : List Char) :
    fitsPattern (before ++ '*' :: after) (before ++ middle ++ after) = true := by
  have empty : fitsSteps [] [] = true := by rw [fitsSteps]; rfl
  have fit := fitsSteps_self after empty
  rw [List.append_nil, List.append_nil] at fit
  have steps : patternSteps ((before ++ '*' :: after).length + 1) (before ++ '*' :: after) =
      before.map stepOf ++ .many :: after.map stepOf := by
    rw [patternSteps_of_plain (Nat.lt_succ_self _) (by simp [plain, plainAfter]), List.map_append]
    rfl
  rw [fitsPattern, steps, List.append_assoc]
  exact fitsSteps_self before (fitsSteps_many middle fit)

end Files

/-! ### A template around its first place -/

namespace Catalog.Template

open Text (pieces)

/-- What stands before the first place for the locale, and behind it. -/
def around (template : Template) : List Char × List Char :=
  (Text.cutPiece? localePlaceholder.toList template.text.toList).getD ([], [])

/-- The directory with the names of which the locale is a part. -/
def base (template : Template) : Path :=
  ⟨.ofSlashes (template.around.1.takeWhile (· = '/')).length,
    ((pieces '/' template.around.1).dropLast.map String.ofList).filter fun part =>
      part ≠ "" && part ≠ "."⟩

/-- The name of a locale's file, or of the directory with it, up to the locale. -/
def before (template : Template) : List Char := (pieces '/' template.around.1).getLastD []

/-- The parts behind the first place, of which the first one ends the name. -/
def behind (template : Template) : List (List Char) :=
  pieces '/' (template.around.2 ++ catalogEnding.toList)

def after (template : Template) : List Char := template.behind.headD []

/-- The parts below the name. -/
def below (template : Template) : List String :=
  (template.behind.tail.map String.ofList).filter fun part => part ≠ "" && part ≠ "."

/-- The name that a locale has in the directory. -/
def nameOf (template : Template) (locale : String) : String :=
  String.ofList (template.before ++ locale.toList ++ template.after)

/-- There is a second place for the locale. -/
def IsRepeated (template : Template) : Prop := localePlaceholder.toList <:+: template.around.2

instance (template : Template) : Decidable template.IsRepeated :=
  inferInstanceAs (Decidable (_ <:+: _))

/-- No bracket opens in the template from the first name with a place on. -/
structure IsLiteral (template : Template) : Prop where
  before : '[' ∉ template.before
  after : '[' ∉ template.after
  below : ∀ part ∈ template.below, '[' ∉ part.toList

theorem placeholder_alone : ∃ rest, localePlaceholder.toList = '{' :: rest ∧ '{' ∉ rest :=
  ⟨"locale\x7d".toList, by decide, by decide⟩

/-- A template is cut at its first place. -/
theorem text_eq (template : Template) :
    template.text.toList =
        template.around.1 ++ (localePlaceholder.toList ++ template.around.2) ∧
      ¬localePlaceholder.toList <:+: template.around.1 := by
  obtain ⟨rest, spelled, alone⟩ := placeholder_alone
  have placed := Text.occurs_iff.mp template.hasPlaceholder
  rw [spelled] at placed
  obtain ⟨front, back, cut, absent⟩ := Text.exists_first_place placed
  have around : template.around = (front, back) := by
    rw [Template.around, spelled, cut, Text.cutPiece?_append alone absent]
    rfl
  rw [around, spelled]
  exact ⟨cut, absent⟩

/-- What is filled in once. -/
theorem filled_eq (template : Template) (once : ¬template.IsRepeated) (locale : String) :
    template.filled locale =
      template.around.1 ++ (locale.toList ++ template.around.2) := by
  obtain ⟨rest, spelled, alone⟩ := placeholder_alone
  obtain ⟨cut, absent⟩ := template.text_eq
  rw [IsRepeated, spelled] at once
  rw [spelled] at cut absent
  rw [filled, spelled, cut, Text.replaceAll_append alone absent, Text.replaceAll_of_absent once]

/-- The path around what is put in the first place. -/
theorem ofText_around (template : Template) {middle : List Char} (given : middle ≠ [])
    (whole : '/' ∉ middle)
    (named : String.ofList (template.before ++ middle ++ template.after) ≠ ".") :
    Path.ofText (String.ofList (template.around.1 ++ (middle ++ template.around.2)) ++
        catalogEnding) =
      ⟨template.base.anchor, template.base.parts ++
        String.ofList (template.before ++ middle ++ template.after) :: template.below⟩ := by
  have notEmpty : String.ofList (template.before ++ middle ++ template.after) ≠ "" := by
    simp [given]
  have slashes : (template.around.1 ++ (middle ++ (template.around.2 ++
      catalogEnding.toList))).takeWhile (· = '/') = template.around.1.takeWhile (· = '/') := by
    apply Text.takeWhile_append_of_stops
    intro c first
    rw [List.head?_append_of_ne_nil _ given] at first
    exact decide_eq_false fun slash => whole (slash ▸ List.mem_of_mem_head? first)
  have cut : pieces '/' (template.around.1 ++
      (middle ++ (template.around.2 ++ catalogEnding.toList))) =
        (pieces '/' template.around.1).dropLast ++
          (template.before ++ middle ++ template.after) :: template.behind.tail := by
    rw [Text.pieces_join, Text.pieces_join '/' middle, Text.pieces_single whole, List.append_assoc]
    rfl
  rw [Path.ofText, String.toList_append, String.toList_ofList, List.append_assoc, List.append_assoc,
    slashes, cut, List.map_append, List.filter_append, List.map_cons,
    List.filter_cons_of_pos (by
      rw [Bool.and_eq_true, decide_eq_true_iff, decide_eq_true_iff]
      exact ⟨notEmpty, named⟩)]
  rfl

theorem catalogPath_eq (template : Template) (once : ¬template.IsRepeated) {locale : String}
    (given : locale ≠ "") (whole : '/' ∉ locale.toList) (named : template.nameOf locale ≠ ".") :
    template.catalogPath locale = ⟨template.base.anchor,
      template.base.parts ++ template.nameOf locale :: template.below⟩ := by
  have some : locale.toList ≠ [] := fun empty => given (String.toList_inj.mp empty)
  have filled : template.catalogPath locale =
      .ofText (String.ofList (template.filled locale) ++ catalogEnding) := rfl
  rw [filled, template.filled_eq once, template.ofText_around some whole named, nameOf]

/-! ### Cutting a template -/

/-- A piece that does not end as an ending does is none in it. -/
theorem infix_ending_iff {text : List Char} :
    localePlaceholder.toList <:+: text ++ catalogEnding.toList ↔
      localePlaceholder.toList <:+: text := by
  refine ⟨?_, fun inside => inside.trans (List.prefix_append _ _).isInfix⟩
  rintro ⟨front, back, same⟩
  have spelled : localePlaceholder.toList = "\x7blocale".toList ++ ['}'] := by decide
  rcases List.append_eq_append_iff.mp same with ⟨tail, rfl, -⟩ | ⟨tail, whole, ending⟩
  · exact ⟨front, tail, rfl⟩
  · rcases List.eq_nil_or_concat tail with rfl | ⟨tail, c, rfl⟩
    · exact ⟨front, [], by simpa using whole⟩
    · rw [spelled, ← List.append_assoc, List.concat_eq_append, ← List.append_assoc] at whole
      have last : '}' = c := List.singleton_inj.mp (List.append_inj' whole rfl).2
      have member : '}' ∈ catalogEnding.toList := by
        rw [ending, last]
        simp
      exact absurd member (by decide)

theorem ne_of_placed {piece : List Char} (within : localePlaceholder.toList <:+: piece) :
    String.ofList piece ≠ "" ∧ String.ofList piece ≠ "." := by
  have long : 8 ≤ piece.length := within.length_le
  constructor
  · intro same
    have length := congrArg (fun text => text.toList.length) same
    simp at length
    simp [length] at long
  · intro same
    have length := congrArg (fun text => text.toList.length) same
    simp at length
    omega

theorem hasLocalePlaceholder_ofList {piece : List Char} :
    hasLocalePlaceholder (String.ofList piece) = true ↔ localePlaceholder.toList <:+: piece := by
  rw [hasLocalePlaceholder, Text.occurs_iff, String.toList_ofList]

theorem behind_eq (template : Template) :
    template.behind = template.after :: template.behind.tail := by
  obtain ⟨first, more, shape⟩ := List.exists_cons_of_ne_nil
    (Text.pieces_ne_nil '/' (template.around.2 ++ catalogEnding.toList))
  rw [after, behind, shape]
  rfl

/-- There is a second place exactly if one of the parts behind the first one has it. -/
theorem isRepeated_iff (template : Template) :
    template.IsRepeated ↔ (hasLocalePlaceholder (String.ofList template.after) ||
      template.below.any hasLocalePlaceholder) = true := by
  have slash : '/' ∉ localePlaceholder.toList := by decide
  have pieceOf : ∀ piece ∈ template.behind, localePlaceholder.toList <:+: piece →
      template.IsRepeated := fun piece member within =>
    infix_ending_iff.mp (within.trans (Text.infix_of_mem_pieces member))
  rw [Bool.or_eq_true, hasLocalePlaceholder_ofList, List.any_eq_true]
  constructor
  · intro repeated
    obtain ⟨piece, member, within⟩ := Text.exists_piece_infix slash (infix_ending_iff.mpr repeated)
    rw [← behind, behind_eq] at member
    rcases List.mem_cons.mp member with rfl | later
    · exact .inl within
    · refine .inr ⟨String.ofList piece, List.mem_filter.mpr ⟨List.mem_map_of_mem later, ?_⟩,
        hasLocalePlaceholder_ofList.mpr within⟩
      rw [Bool.and_eq_true, decide_eq_true_iff, decide_eq_true_iff]
      exact ne_of_placed within
  · rintro (within | ⟨part, member, within⟩)
    · exact pieceOf template.after (behind_eq template ▸ List.mem_cons_self) within
    · obtain ⟨piece, later, rfl⟩ := List.mem_map.mp (List.mem_of_mem_filter member)
      exact pieceOf piece (List.mem_of_mem_tail later) (hasLocalePlaceholder_ofList.mp within)

theorem absent_of_piece (template : Template) :
    ∀ piece ∈ Text.pieces '/' template.around.1, ¬localePlaceholder.toList <:+: piece := by
  intro piece member within
  exact template.text_eq.2 (within.trans (Text.infix_of_mem_pieces member))

theorem absent_before (template : Template) :
    ¬localePlaceholder.toList <:+: template.before := by
  apply template.absent_of_piece
  rw [before, List.getLastD_eq_getLast?,
    List.getLast?_eq_some_getLast (Text.pieces_ne_nil '/' template.around.1)]
  exact List.getLast_mem _

theorem absent_base (template : Template) :
    ∀ part ∈ template.base.parts, ¬localePlaceholder.toList <:+: part.toList := by
  intro part member
  obtain ⟨piece, listed, rfl⟩ := List.mem_map.mp (List.mem_of_mem_filter member)
  rw [String.toList_ofList]
  exact template.absent_of_piece piece (List.dropLast_subset _ listed)

/-- The part with the first placeholder stands between the parts before it and those below. -/
theorem ofText_written (template : Template) :
    Path.ofText (template.text ++ catalogEnding) =
      ⟨template.base.anchor, template.base.parts ++ String.ofList
        (template.before ++ localePlaceholder.toList ++ template.after) :: template.below⟩ := by
  have inside : localePlaceholder.toList <:+:
      template.before ++ localePlaceholder.toList ++ template.after :=
    ⟨template.before, template.after, rfl⟩
  rw [← template.ofText_around (by decide) (by decide) (ne_of_placed inside).2,
    ← template.text_eq.1, String.ofList_toList]

/-- The parts of the template as patterns. -/
def pattern (template : Template) : LocalePattern :=
  ⟨template.base, template.before, template.after, template.below⟩

/-- A part from the first place on has two stars in a row, and is more than that. -/
def HasDoubleStar (template : Template) : Prop :=
  LocalePattern.isDoubleStar template.pattern.starred = true ∨
    ∃ part ∈ template.below, LocalePattern.isDoubleStar part.toList = true

instance (template : Template) : Decidable template.HasDoubleStar :=
  inferInstanceAs (Decidable (_ ∨ _))

end Catalog.Template

namespace Catalog.LocalePattern

/-- Parts without a place belong to the directory. -/
theorem ofParts_append (base : Path) {parts : List String} (rest : List String)
    (absent : ∀ part ∈ parts, ¬localePlaceholder.toList <:+: part.toList) :
    ofParts base (parts ++ rest) = ofParts ⟨base.anchor, base.parts ++ parts⟩ rest := by
  obtain ⟨tail, spelled, -⟩ := Template.placeholder_alone
  induction parts generalizing base with
  | nil => rw [List.nil_append, List.append_nil]
  | cons part parts ih =>
    obtain ⟨own, others⟩ := List.forall_mem_cons.mp absent
    rw [spelled] at own
    rw [List.cons_append, ofParts, spelled, Text.cutPiece?_eq_none own]
    dsimp only
    rw [ih _ others, Path.child, List.append_assoc, List.singleton_append]

/-- How a template is cut, or why it is not. -/
theorem ofTemplate_eq (template : Template) :
    ofTemplate template = if template.IsRepeated then .error .severalPlaces
      else if template.HasDoubleStar then .error .doubleStar else .ok template.pattern := by
  obtain ⟨tail, spelled, alone⟩ := Template.placeholder_alone
  have absent := template.absent_before
  rw [ofTemplate, template.ofText_written]
  dsimp only
  rw [ofParts_append _ _ template.absent_base, List.nil_append, ofParts, String.toList_ofList,
    List.append_assoc]
  rw [spelled] at absent ⊢
  rw [Text.cutPiece?_append alone absent]
  dsimp only
  by_cases repeated : template.IsRepeated
  · rw [if_pos repeated, if_pos (template.isRepeated_iff.mp repeated)]
  · rw [if_neg repeated, if_neg fun again => repeated (template.isRepeated_iff.mpr again)]
    by_cases stars : template.HasDoubleStar
    · rw [if_pos stars, if_pos]
      rwa [Bool.or_eq_true, List.any_eq_true]
    · rw [if_neg stars, if_neg]
      · rfl
      · rwa [Bool.or_eq_true, List.any_eq_true]

/-- The locale in a name is what stands between the parts around it. -/
theorem localeIn?_eq_some {pattern : LocalePattern} {name : List Char} {locale : String} :
    pattern.localeIn? name = some locale ↔
      name = pattern.before ++ locale.toList ++ pattern.after ∧ locale ≠ "" := by
  rw [localeIn?]
  constructor
  · intro found
    split at found
    · rename_i fits
      rw [Bool.and_eq_true, Bool.and_eq_true, List.isPrefixOf_iff_prefix, List.isSuffixOf_iff_suffix,
        decide_eq_true_iff] at fits
      obtain ⟨⟨⟨rest, rfl⟩, ending⟩, long⟩ := fits
      rw [List.length_append] at long found
      obtain ⟨middle, rfl⟩ : pattern.after <:+ rest :=
        List.suffix_of_suffix_length_le ending (List.suffix_append _ _) (by omega)
      rw [List.length_append] at long found
      have length : pattern.before.length + (middle.length + pattern.after.length) -
          (pattern.before.length + pattern.after.length) = middle.length := by omega
      rw [List.drop_left, length, List.take_left, Option.some_inj] at found
      rw [← found, String.toList_ofList, List.append_assoc]
      refine ⟨rfl, fun empty => ?_⟩
      have none : middle = [] := by simpa using empty
      rw [none, List.length_nil] at long
      omega
    · cases found
  · rintro ⟨rfl, given⟩
    have some : 0 < locale.toList.length := by
      rw [List.length_pos_iff]
      exact fun empty => given (String.toList_inj.mp empty)
    have length : (pattern.before ++ locale.toList ++ pattern.after).length -
        (pattern.before.length + pattern.after.length) = locale.toList.length := by
      simp only [List.length_append]
      omega
    rw [if_pos, length, List.append_assoc, List.drop_left, List.take_left, String.ofList_toList]
    rw [Bool.and_eq_true, Bool.and_eq_true, List.isPrefixOf_iff_prefix, List.isSuffixOf_iff_suffix,
      decide_eq_true_iff]
    refine ⟨⟨?_, List.suffix_append _ _⟩, ?_⟩
    · rw [List.append_assoc]
      exact List.prefix_append _ _
    · simp only [List.length_append]
      omega

theorem localeOf?_eq_some {pattern : LocalePattern} {tree : FileTree} {name locale : String} :
    pattern.localeOf? tree name = some locale ↔
      pattern.fits name = true ∧ locale ≠ "" ∧
        tree.has ⟨pattern.base.anchor, pattern.base.parts ++ name :: pattern.below⟩ = true ∧
        name = String.ofList (pattern.before ++ locale.toList ++ pattern.after) := by
  have path : (⟨(pattern.base.child name).anchor, (pattern.base.child name).parts ++
      pattern.below⟩ : Path) = ⟨pattern.base.anchor, pattern.base.parts ++ name :: pattern.below⟩ := by
    rw [Path.child, List.append_assoc, List.singleton_append]
  rw [localeOf?, path]
  constructor
  · intro found
    split at found
    · rename_i holds
      obtain ⟨spelled, given⟩ := localeIn?_eq_some.mp found
      rw [Bool.and_eq_true] at holds
      exact ⟨holds.1, given, holds.2, by rw [← spelled, String.ofList_toList]⟩
    · cases found
  · rintro ⟨fits, given, has, rfl⟩
    rw [fits, has, Bool.and_self, if_pos rfl, localeIn?_eq_some, String.toList_ofList]
    exact ⟨rfl, given⟩

end Catalog.LocalePattern

namespace CatalogFiles

open Catalog (Template)
open FileTree (IsName)

/-- A locale is found where its catalog is, if its name can be had and fits. -/
theorem mem_names_iff {tree : FileTree} (proper : tree.IsProper) {template : Template}
    (once : ¬template.IsRepeated) {locale : String} :
    (∃ place, tree.place? template.base = some place ∧ tree.isDirectory place = true ∧
        ∃ name ∈ tree.namesIn place, template.pattern.localeOf? tree name = some locale) ↔
      locale ≠ "" ∧ '/' ∉ locale.toList ∧ IsName (template.nameOf locale) ∧
        template.pattern.fits (template.nameOf locale) = true ∧
        tree.has (template.catalogPath locale) = true := by
  simp only [Catalog.LocalePattern.localeOf?_eq_some]
  constructor
  · rintro ⟨place, leads, -, name, listed, fits, given, has, rfl⟩
    obtain ⟨entry, there⟩ := proper.mem_namesIn.mp listed
    have named : IsName (template.nameOf locale) :=
      proper.names_of_below there _ (List.mem_singleton_self _)
    have whole : '/' ∉ locale.toList := by
      intro slash
      apply named.noSlash
      simp [Template.nameOf, slash]
    refine ⟨given, whole, named, fits, ?_⟩
    rw [template.catalogPath_eq once given whole named.notHere]
    exact has
  · rintro ⟨given, whole, named, fits, has⟩
    rw [template.catalogPath_eq once given whole named.notHere] at has
    obtain ⟨entry, there⟩ := Option.isSome_iff_exists.mp has
    obtain ⟨last, leads, there⟩ := place_of_at? there
    rw [FileTree.place?, FileTree.walk_append, Option.bind_eq_some_iff] at leads
    obtain ⟨place, leads, down⟩ := leads
    rw [FileTree.walk, if_neg named.notUp] at down
    obtain ⟨own, listed⟩ := proper.entry_of_walk down there
    exact ⟨place, leads, proper.isDirectory_of_below (List.cons_ne_nil _ []) listed,
      template.nameOf locale, proper.mem_namesIn.mpr ⟨own, listed⟩, fits, given, has, rfl⟩

/-- A file is what is there and is no directory. -/
theorem hasFile_iff {tree : FileTree} {path : Path} :
    tree.hasFile path = true ↔ tree.has path = true ∧ tree.hasDirectory path = false := by
  rw [FileTree.hasFile, FileTree.has, FileTree.hasDirectory]
  cases tree.at? path with
  | none => simp
  | some entry => cases entry <;> simp

/-- What is listed are the locales with a catalog, in order and each once. -/
def ListsCatalogs (files : CatalogFiles) (tree : FileTree) : Prop :=
  ∃ listed, files.locales tree = .ok listed ∧ listed.Pairwise (· < ·) ∧
    ∀ locale, locale ∈ listed ↔ locale ≠ "" ∧ '/' ∉ locale.toList ∧
      tree.hasFile (files.template.catalogPath locale) = true

/-- How the locales of catalogs are read off the names of files. -/
structure ReadsNames (files : CatalogFiles) (tree : FileTree) : Prop where
  severalPlaces : files.locales tree = .error .severalPlaces ↔ files.template.IsRepeated
  doubleStar : files.locales tree = .error .doubleStar ↔
    ¬files.template.IsRepeated ∧ files.template.HasDoubleStar
  listed : ¬files.template.IsRepeated → ¬files.template.HasDoubleStar → ∃ listed,
    files.locales tree = .ok listed ∧ listed.Pairwise (· < ·) ∧
      ∀ locale, locale ∈ listed ↔ locale ≠ "" ∧ '/' ∉ locale.toList ∧
        IsName (files.template.nameOf locale) ∧
        files.template.pattern.fits (files.template.nameOf locale) = true ∧
        tree.has (files.template.catalogPath locale) = true
  /-- A template without brackets from its place on fits the name of every locale. -/
  literal : files.template.IsLiteral → ∀ locale,
    files.template.pattern.fits (files.template.nameOf locale) = true
  /-- Exactly the locales with a catalog are listed if the template has one place and no double star,
  every file of a locale has a name that fits, and no directory has one. -/
  catalogs : ListsCatalogs files tree ↔
    ¬files.template.IsRepeated ∧ ¬files.template.HasDoubleStar ∧
      ∀ locale, locale ≠ "" → '/' ∉ locale.toList →
        (tree.hasFile (files.template.catalogPath locale) = true →
          IsName (files.template.nameOf locale) ∧
            files.template.pattern.fits (files.template.nameOf locale) = true) ∧
        (IsName (files.template.nameOf locale) →
          files.template.pattern.fits (files.template.nameOf locale) = true →
            tree.hasDirectory (files.template.catalogPath locale) = false)

theorem locales_eq_ok (files : CatalogFiles) {tree : FileTree} (proper : tree.IsProper)
    (once : ¬files.template.IsRepeated) (plain : ¬files.template.HasDoubleStar) :
    ∃ listed, files.locales tree = .ok listed ∧ listed.Pairwise (· < ·) ∧
      ∀ locale, locale ∈ listed ↔ locale ≠ "" ∧ '/' ∉ locale.toList ∧
        IsName (files.template.nameOf locale) ∧
        files.template.pattern.fits (files.template.nameOf locale) = true ∧
        tree.has (files.template.catalogPath locale) = true := by
  rw [locales, Catalog.LocalePattern.ofTemplate_eq, if_neg once, if_neg plain, Outcome.ok_bind]
  refine ⟨_, rfl, ?_, fun locale => ?_⟩
  · apply Scan.pairwise_eraseDups
    exact (List.pairwise_mergeSort' (· ≤ ·) _).imp fun inOrder differs =>
      Std.lt_of_le_of_ne inOrder differs
  · rw [← mem_names_iff proper once, List.mem_eraseDups, List.mem_mergeSort, List.mem_filterMap]
    constructor
    · rintro ⟨name, member, found⟩
      split at member
      · rename_i place leads
        split at member
        · rename_i isDirectory
          exact ⟨place, leads, isDirectory, name, member, found⟩
        · cases member
      · cases member
    · rintro ⟨place, leads, isDirectory, name, member, found⟩
      refine ⟨name, ?_, found⟩
      rw [Template.pattern, leads]
      dsimp only
      rwa [if_pos isDirectory]

theorem locales_severalPlaces (files : CatalogFiles) (tree : FileTree)
    (repeated : files.template.IsRepeated) : files.locales tree = .error .severalPlaces := by
  rw [locales, Catalog.LocalePattern.ofTemplate_eq, if_pos repeated]
  rfl

theorem locales_doubleStar (files : CatalogFiles) (tree : FileTree)
    (once : ¬files.template.IsRepeated) (stars : files.template.HasDoubleStar) :
    files.locales tree = .error .doubleStar := by
  rw [locales, Catalog.LocalePattern.ofTemplate_eq, if_neg once, if_pos stars]
  rfl

theorem not_listsCatalogs_of_error {files : CatalogFiles} {tree : FileTree} {fault : Catalog.Fault}
    (failed : files.locales tree = .error fault) : ¬ListsCatalogs files tree := by
  rintro ⟨listed, found, -⟩
  rw [failed] at found
  cases found

theorem fits_nameOf {template : Template} (literal : template.IsLiteral) (locale : String) :
    template.pattern.fits (template.nameOf locale) = true := by
  rw [Catalog.LocalePattern.fits, Bool.and_eq_true, List.all_eq_true, Template.nameOf,
    String.toList_ofList]
  exact ⟨Files.fitsPattern_around literal.before literal.after locale.toList,
    fun part member => Files.fitsPattern_self (literal.below part member)⟩

theorem listsCatalogs_iff (files : CatalogFiles) {tree : FileTree} (proper : tree.IsProper) :
    ListsCatalogs files tree ↔ ¬files.template.IsRepeated ∧ ¬files.template.HasDoubleStar ∧
      ∀ locale, locale ≠ "" → '/' ∉ locale.toList →
        (tree.hasFile (files.template.catalogPath locale) = true →
          IsName (files.template.nameOf locale) ∧
            files.template.pattern.fits (files.template.nameOf locale) = true) ∧
        (IsName (files.template.nameOf locale) →
          files.template.pattern.fits (files.template.nameOf locale) = true →
            tree.hasDirectory (files.template.catalogPath locale) = false) := by
  constructor
  · intro lists
    have once : ¬files.template.IsRepeated := fun repeated =>
      not_listsCatalogs_of_error (locales_severalPlaces files tree repeated) lists
    have plain : ¬files.template.HasDoubleStar := fun stars =>
      not_listsCatalogs_of_error (locales_doubleStar files tree once stars) lists
    obtain ⟨listed, found, -, exact⟩ := lists
    obtain ⟨_, foundToo, -, named⟩ := locales_eq_ok files proper once plain
    obtain rfl := Except.ok.inj (found.symm.trans foundToo)
    refine ⟨once, plain, fun locale given whole => ⟨fun isFile => ?_, fun name fits => ?_⟩⟩
    · have member := (exact locale).mpr ⟨given, whole, isFile⟩
      obtain ⟨-, -, name, fits, -⟩ := (named locale).mp member
      exact ⟨name, fits⟩
    · cases isDirectory : tree.hasDirectory (files.template.catalogPath locale) with
      | false => rfl
      | true =>
        have there : tree.has (files.template.catalogPath locale) = true := by
          rw [FileTree.has, of_decide_eq_true isDirectory]
          rfl
        have member := (named locale).mpr ⟨given, whole, name, fits, there⟩
        obtain ⟨-, -, isFile⟩ := (exact locale).mp member
        rw [(hasFile_iff.mp isFile).2] at isDirectory
        cases isDirectory
  · rintro ⟨once, plain, each⟩
    obtain ⟨listed, found, sorted, named⟩ := locales_eq_ok files proper once plain
    refine ⟨listed, found, sorted, fun locale => (named locale).trans ?_⟩
    refine and_congr_right fun given => and_congr_right fun whole => ?_
    obtain ⟨fitsFile, noDirectory⟩ := each locale given whole
    constructor
    · rintro ⟨name, fits, there⟩
      exact hasFile_iff.mpr ⟨there, noDirectory name fits⟩
    · intro isFile
      obtain ⟨name, fits⟩ := fitsFile isFile
      exact ⟨name, fits, (hasFile_iff.mp isFile).1⟩

/-- The names of files tell the locales of catalogs, for every template and all files. -/
theorem locales_readsNames (files : CatalogFiles) {tree : FileTree} (proper : tree.IsProper) :
    ReadsNames files tree where
  severalPlaces := by
    refine ⟨fun failed => ?_, locales_severalPlaces files tree⟩
    by_contra once
    by_cases stars : files.template.HasDoubleStar
    · rw [locales_doubleStar files tree once stars] at failed
      cases failed
    · obtain ⟨listed, found, -⟩ := locales_eq_ok files proper once stars
      rw [found] at failed
      cases failed
  doubleStar := by
    refine ⟨fun failed => ?_, fun holds => locales_doubleStar files tree holds.1 holds.2⟩
    have once : ¬files.template.IsRepeated := by
      intro repeated
      rw [locales_severalPlaces files tree repeated] at failed
      cases failed
    refine ⟨once, ?_⟩
    by_contra plain
    obtain ⟨listed, found, -⟩ := locales_eq_ok files proper once plain
    rw [found] at failed
    cases failed
  listed := locales_eq_ok files proper
  literal := fits_nameOf
  catalogs := listsCatalogs_iff files proper

/-! ### Templates by example -/

/-- In a plain directory the files are the catalogs. -/
theorem locales_readsNames_english :
    (treeOf "en.po" "").IsProper ∧ ListsCatalogs localeFiles (treeOf "en.po" "") := by
  have proper : (treeOf "en.po" "").IsProper := by decide
  have reads := locales_readsNames localeFiles proper
  have before : localeFiles.template.before = [] := by decide +kernel
  have after : localeFiles.template.after = Template.catalogEnding.toList := by decide +kernel
  have below : localeFiles.template.below = [] := by decide +kernel
  have base : localeFiles.template.base = ⟨.relative, ["locales"]⟩ := by decide +kernel
  have once : ¬localeFiles.template.IsRepeated := by decide +kernel
  have literal : localeFiles.template.IsLiteral := by
    refine ⟨?_, ?_, ?_⟩
    · simp [before]
    · rw [after]
      decide
    · simp [below]
  refine ⟨proper, reads.catalogs.mpr ⟨once, by decide +kernel, fun locale given whole => ?_⟩⟩
  have spelled : localeFiles.template.nameOf locale =
      String.ofList (locale.toList ++ Template.catalogEnding.toList) := by
    rw [Template.nameOf, before, after, List.nil_append]
  obtain ⟨notEmpty, notHere, notUp⟩ := Template.isEnding_catalog.behind_ne locale.toList
  have name : IsName (localeFiles.template.nameOf locale) := by
    rw [spelled]
    refine ⟨notEmpty, notHere, notUp, ?_⟩
    rw [String.toList_ofList, List.mem_append, not_or]
    exact ⟨whole, Template.isEnding_catalog.noSlash⟩
  refine ⟨fun _ => ⟨name, reads.literal literal locale⟩, fun _ _ => ?_⟩
  have leads : (treeOf "en.po" "").place? ⟨.relative,
      ["locales"] ++ [localeFiles.template.nameOf locale]⟩ =
        some ["locales", localeFiles.template.nameOf locale] := by
    apply FileTree.walk_down
    simp [Ne.symm name.notUp]
  rw [Template.catalogPath_eq _ once given whole name.notHere, base, below, FileTree.hasDirectory,
    at?_of_place? leads, decide_eq_false_iff_not]
  intro isDirectory
  have listed := FileTree.IsProper.mem_of_entry (List.cons_ne_nil _ _) isDirectory
  simp [treeOf] at listed

/-- A template with two places. -/
def nestedFiles : CatalogFiles :=
  ⟨⟨"locales/\x7blocale\x7d/\x7blocale\x7d", by decide +kernel⟩, "en"⟩

def nestedTree : FileTree :=
  ⟨[(["locales"], .directory), (["locales", "de"], .directory),
    (["locales", "de", "de.po"], .file [])], []⟩

/-- A template with brackets. -/
def bracketFiles : CatalogFiles := ⟨⟨"locales/\x7blocale\x7d[x]", by decide +kernel⟩, "en"⟩

theorem fits_bracketFiles :
    bracketFiles.template.pattern.fits (bracketFiles.template.nameOf "en") = false := by
  have starred : bracketFiles.template.pattern.starred = "*[x].po".toList := by decide +kernel
  have name : bracketFiles.template.nameOf "en" = "en[x].po" := by decide +kernel
  have steps : Files.patternSteps ("*[x].po".toList.length + 1) "*[x].po".toList =
      [.many, .oneOf false [('x', 'x')], .literal '.', .literal 'p', .literal 'o'] := by decide +kernel
  rw [Catalog.LocalePattern.fits, starred, name, Files.fitsPattern, steps]
  simp [Files.fitsSteps, Files.fitsSteps.fitsLater, Files.fits]

/-- A template with two places fails though a catalog is there, and one with brackets leaves out a
catalog that is there. -/
theorem locales_misread :
    (nestedTree.IsProper ∧ nestedTree.hasFile (nestedFiles.template.catalogPath "de") = true ∧
      nestedFiles.locales nestedTree = .error .severalPlaces ∧
      ¬ListsCatalogs nestedFiles nestedTree) ∧
    (treeOf "en[x].po" "").IsProper ∧
      (treeOf "en[x].po" "").hasFile (bracketFiles.template.catalogPath "en") = true ∧
      (∃ listed, bracketFiles.locales (treeOf "en[x].po" "") = .ok listed ∧ "en" ∉ listed) ∧
      ¬ListsCatalogs bracketFiles (treeOf "en[x].po" "") := by
  have nested : nestedFiles.locales nestedTree = .error .severalPlaces :=
    locales_severalPlaces _ _ (by decide +kernel)
  have proper : (treeOf "en[x].po" "").IsProper := by decide
  have isFile : (treeOf "en[x].po" "").hasFile (bracketFiles.template.catalogPath "en") = true := by
    decide +kernel
  obtain ⟨listed, found, -, each⟩ := locales_eq_ok bracketFiles proper (by decide +kernel)
    (by decide +kernel)
  have absent : "en" ∉ listed := by
    intro member
    obtain ⟨-, -, -, fits, -⟩ := (each "en").mp member
    rw [fits_bracketFiles] at fits
    cases fits
  refine ⟨⟨by decide, by decide +kernel, nested, not_listsCatalogs_of_error nested⟩, proper, isFile,
    ⟨listed, found, absent⟩, ?_⟩
  rintro ⟨_, foundToo, -, exact⟩
  obtain rfl := Except.ok.inj (found.symm.trans foundToo)
  exact absent ((exact "en").mpr ⟨by decide, by decide, isFile⟩)

end CatalogFiles

end Phrasebook

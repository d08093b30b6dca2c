import Phrasebook.Catalog.Files
import Phrasebook.Files.Pattern

set_option autoImplicit false

/-!
The locales that have a catalog. The template is cut at its place for the locale: names in one
directory are compared with what stands around the place, and the parts below them have to be there.
-/
namespace Phrasebook.Catalog

/-- A template, cut at its place for the locale. -/
structure LocalePattern where
  /-- The directory with the names of which the locale is a part. -/
  base : Path
  before : List Char
  after : List Char
  /-- The parts below the name. -/
  below : List String
  deriving DecidableEq, Repr

namespace LocalePattern

/-- A name cannot have two stars in a row, unless it is nothing else. -/
def isDoubleStar (name : List Char) : Bool := Text.occurs ['*', '*'] name && name ≠ ['*', '*']

/-- The name with a star for the locale. -/
def starred (pattern : LocalePattern) : List Char := pattern.before ++ '*' :: pattern.after

/-- Cuts the parts of a path at the first place for a locale. -/
def ofParts (base : Path) : List String → Except Fault LocalePattern
  | [] => .error (.noPlaceholder base.text)
  | part :: below =>
    match Text.cutPiece? localePlaceholder.toList part.toList with
    | none => ofParts (base.child part) below
    | some (before, after) =>
      let pattern : LocalePattern := ⟨base, before, after, below⟩
      if hasLocalePlaceholder (String.ofList after) || below.any hasLocalePlaceholder then
        .error .severalPlaces
      else if isDoubleStar pattern.starred || below.any fun part => isDoubleStar part.toList then
        .error .doubleStar
      else .ok pattern

def ofTemplate (template : Template) : Except Fault LocalePattern :=
  let path := Path.ofText (template.text ++ Template.catalogEnding)
  ofParts ⟨path.anchor, []⟩ path.parts

/-- The locale in a name. -/
def localeIn? (pattern : LocalePattern) (name : List Char) : Option String :=
  let around := pattern.before.length + pattern.after.length
  if pattern.before.isPrefixOf name && pattern.after.isSuffixOf name && around < name.length then
    some (String.ofList ((name.drop pattern.before.length).take (name.length - around)))
  else none

/-- The parts of a template are patterns for names of files. -/
def fits (pattern : LocalePattern) (name : String) : Bool :=
  Files.fitsPattern pattern.starred name.toList &&
    pattern.below.all fun part => Files.fitsPattern part.toList part.toList

/-- The locale that a name in the directory stands for, if its catalog is there. -/
def localeOf? (pattern : LocalePattern) (tree : FileTree) (name : String) : Option String :=
  let path := pattern.base.child name
  if pattern.fits name && tree.has ⟨path.anchor, path.parts ++ pattern.below⟩ then
    pattern.localeIn? name.toList
  else none

end LocalePattern

end Catalog

/-- The locales that have a catalog, in order. -/
def CatalogFiles.locales (files : CatalogFiles) (tree : FileTree) :
    Except Catalog.Fault (List String) := do
  let pattern ← Catalog.LocalePattern.ofTemplate files.template
  let names := match tree.place? pattern.base with
    | some place => if tree.isDirectory place then tree.namesIn place else []
    | none => []
  .ok (((names.filterMap (pattern.localeOf? tree)).mergeSort fun a b => a ≤ b).eraseDups)

end Phrasebook

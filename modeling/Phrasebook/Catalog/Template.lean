import Phrasebook.Files.Path

set_option autoImplicit false

/-!
Templates for the paths of catalogs. A template has a place for the locale; each locale has a
catalog and a compiled one, which differ in their endings.
-/
namespace Phrasebook

/-- Stands for the locale in the path of a catalog. -/
def localePlaceholder : String := "\x7blocale\x7d"

/-- A path has a place for the locale. -/
def hasLocalePlaceholder (path : String) : Bool :=
  Text.occurs localePlaceholder.toList path.toList

namespace Catalog

/-- The path of the catalogs of all locales, without ending. -/
structure Template where
  text : String
  hasPlaceholder : hasLocalePlaceholder text = true

namespace Template

def ofText? (text : String) : Option Template :=
  if h : hasLocalePlaceholder text = true then some ⟨text, h⟩ else none

def catalogEnding : String := ".po"

def compiledEnding : String := ".json"

/-- The path for a locale. -/
def path (template : Template) (locale ending : String) : Path :=
  let filled :=
    Text.replaceAll localePlaceholder.toList locale.toList template.text.toList
  .ofText (String.ofList filled ++ ending)

def catalogPath (template : Template) (locale : String) : Path :=
  template.path locale catalogEnding

def compiledPath (template : Template) (locale : String) : Path :=
  template.path locale compiledEnding

end Template

end Catalog

end Phrasebook

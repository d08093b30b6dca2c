import Phrasebook.Catalog.Files

set_option autoImplicit false

/-!
Compiled catalogs: translations by the ids of their messages, as an application loads them.
-/
namespace Phrasebook

open Text (CodePoints)

/-- The translations by ids. Files may hold texts with surrogates that stand alone. -/
abbrev CompiledCatalog := Dictionary CodePoints CodePoints

namespace CompiledCatalog

open Catalog (Fault)

/-- The translations that a JSON value maps ids to, if all of them are texts. -/
def ofJson? : Json → Option CompiledCatalog
  | .object entries =>
    entries.mapM fun (id, value) =>
      match value with
      | .string text => some (id, text)
      | _ => none
  | _ => none

/-- The translations in a file. -/
def read (tree : FileTree) (path : Path) : Except Fault CompiledCatalog := do
  let bytes ← (tree.readBytes path).mapError .file
  let text ← (Text.decode bytes).mapError .undecodable
  match ofJson? (← (Json.read text).mapError .notJson) with
  | some compiled => .ok compiled
  | none => .error (.notTexts path)

/-- The translations without those that hold a surrogate standing alone. -/
def texts (compiled : CompiledCatalog) : Dictionary String String :=
  compiled.filterMap fun (id, text) => do some (← id.toString?, ← text.toString?)

end CompiledCatalog

namespace CatalogFiles

open Catalog (Fault)

/-- The translations of a locale: none if its catalog was not compiled yet. -/
def loadCompiled (files : CatalogFiles) (tree : FileTree) (locale : String) :
    Except Fault CompiledCatalog :=
  let path := files.template.compiledPath locale
  if tree.has path then CompiledCatalog.read tree path else .ok []

/-- The translations of a locale in all of the catalogs. Later catalogs win. -/
def loadAll (catalogs : List CatalogFiles) (tree : FileTree) (locale : String) :
    Except Fault CompiledCatalog :=
  catalogs.foldlM (fun all files => do .ok (all.update (← files.loadCompiled tree locale))) []

end CatalogFiles

end Phrasebook

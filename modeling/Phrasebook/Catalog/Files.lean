import Phrasebook.Catalog.Compile
import Phrasebook.Catalog.Merge
import Phrasebook.Catalog.Read
import Phrasebook.Catalog.Template
import Phrasebook.Catalog.Write
import Phrasebook.Files.Tree
import Phrasebook.Json.Read

set_option autoImplicit false

/-!
The catalogs of one template, as files, and why work on them fails. A catalog that has no file yet
is empty.
-/
namespace Phrasebook.Catalog

inductive Fault where
  /-- A template has no place for the locale. -/
  | noPlaceholder (template : String)
  /-- A compiled catalog is no object of texts. -/
  | notTexts (path : Path)
  | file (fault : FileFault)
  | catalog (fault : ReadFault)
  /-- A compiled catalog is no text. -/
  | undecodable (error : Text.DecodeError)
  /-- A compiled catalog is no JSON. -/
  | notJson (failure : Json.ReadFailure)
  /-- A template has several places for the locale, so that none can be read off a path. -/
  | severalPlaces
  /-- A template has two stars within a name. -/
  | doubleStar
  deriving DecidableEq, Repr

/-- The text of the faults that catalogs have of their own. -/
def Fault.text? : Fault → Option String
  | noPlaceholder template =>
    some ("catalog path must contain " ++ localePlaceholder ++ ": " ++ template)
  | notTexts path => some ("compiled catalog must map ids to strings: " ++ path.text)
  | _ => none

end Phrasebook.Catalog

namespace Phrasebook

/-- The catalogs of all locales, and the locale of the sources. -/
structure CatalogFiles where
  template : Catalog.Template
  sourceLocale : String

namespace CatalogFiles

open Catalog (Fault Header MergeCounts Statistics Template)
open Extract (UniqueMessage)

def ofTemplate (template sourceLocale : String) : Except Fault CatalogFiles :=
  match Template.ofText? template with
  | some template => .ok ⟨template, sourceLocale⟩
  | none => .error (.noPlaceholder template)

/-- The catalog of a locale, with its header. -/
def load [Catalog.Codecs] (files : CatalogFiles) (tree : FileTree) (locale : String) :
    Except Fault (Header × Catalog) :=
  let path := files.template.catalogPath locale
  if tree.has path then do
    (Catalog.read locale (← (tree.readBytes path).mapError .file)).mapError .catalog
  else if Catalog.isLocaleName locale then .ok (.ofLocale locale, .empty)
  else .error (.catalog (.header .badValue))

/-- Writes the catalog of a locale. -/
def save (files : CatalogFiles) (tree : FileTree) (locale : String) (header : Header)
    (catalog : Catalog) : Except Fault FileTree :=
  (tree.store (files.template.catalogPath locale) (Catalog.write header catalog)).mapError .file

/-- Brings the catalog of a locale up to date with messages. -/
def merge [Catalog.Codecs] (files : CatalogFiles) (tree : FileTree) (locale : String)
    (messages : List UniqueMessage) (isClean : Bool) : Except Fault (MergeCounts × FileTree) := do
  let (header, catalog) ← files.load tree locale
  let (merged, counts) := catalog.merge ⟨locale = files.sourceLocale, isClean⟩ messages
  .ok (counts, ← files.save tree locale header merged)

/-- Compiles the catalog of a locale and writes what an application uses. -/
def compile [Catalog.Codecs] (files : CatalogFiles) (tree : FileTree) (locale : String) :
    Except Fault (Dictionary String String × FileTree) := do
  let (_, catalog) ← files.load tree locale
  let compiled := catalog.compile
  let bytes := Text.encode (((Catalog.compiledText compiled).toChars?).getD [])
  .ok (compiled, ← (tree.store (files.template.compiledPath locale) bytes).mapError .file)

/-- How much of the catalog of a locale is translated. -/
def statistics [Catalog.Codecs] (files : CatalogFiles) (tree : FileTree) (locale : String) :
    Except Fault Statistics := do
  let (_, catalog) ← files.load tree locale
  .ok catalog.statistics

end CatalogFiles

end Phrasebook

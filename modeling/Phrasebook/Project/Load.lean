import Phrasebook.Catalog.Files
import Phrasebook.Project.Scan
import Phrasebook.Settings.Read
import Phrasebook.Yaml.Read

set_option autoImplicit false

/-!
Projects: settings with the directory that they are for. A project without a file of settings has
the standard ones.
-/
namespace Phrasebook

structure Project where
  root : Path
  settings : Settings
  deriving Repr

/-- Why the settings of a project cannot be had. -/
inductive ProjectFault where
  | noSettings (path : Path)
  /-- The file of settings breaks the rules of its format. -/
  | malformed (path : Path)
  /-- A scalar in the file of settings has no value. -/
  | noValue
  | file (fault : FileFault)
  | undecodable (error : Text.DecodeError)
  | settings (failure : SettingsFailure)
  deriving DecidableEq, Repr

/-- The text of the faults that settings have of their own. -/
def ProjectFault.text? : ProjectFault → Option String
  | noSettings path => some ("config file not found: " ++ path.text)
  | malformed path => some ("invalid YAML in " ++ path.text)
  | settings (.refused error) => some error.text
  | _ => none

namespace Project

def settingsName : String := "lingui.yaml"

/-- The data in a file of settings. Data that counts as absent is an empty mapping. -/
def readData (tree : FileTree) (path : Path) : Except ProjectFault Data := do
  let bytes ← (tree.readBytes path).mapError .file
  let text ← (Text.decode bytes).mapError .undecodable
  match Yaml.read (Text.unifiedLines text) with
  | .ok data => .ok (if data.isEmpty then .map [] else data)
  | .error .malformed => .error (.malformed path)
  | .error .noValue => .error .noValue

/-- The project of a file of settings. Its root is the directory of the file. -/
def ofFile (tree : FileTree) (path : Path) : Except ProjectFault Project := do
  let data ← readData tree path
  let root : Path := ⟨.root, (tree.place? path.parent).getD tree.here⟩
  .ok ⟨root, ← (Settings.ofData data).mapError .settings⟩

/-- The project of the given file, or of the one in the directory at hand, if it is there. -/
def load (tree : FileTree) (path : Option Path) : Except ProjectFault Project :=
  let here : Path := ⟨.root, tree.here⟩
  match path with
  | some path => if tree.has path then ofFile tree path else .error (.noSettings path)
  | none =>
    let path := here.child settingsName
    if tree.has path then ofFile tree path else .ok ⟨here, .standard⟩

/-- The files of a catalog of a project. -/
def catalogFiles (project : Project) (catalog : CatalogSettings) :
    Except Catalog.Fault CatalogFiles :=
  CatalogFiles.ofTemplate (catalog.template project.root).text project.settings.sourceLocale

/-- What is scanned for a catalog of a project. -/
def scanPlan (project : Project) (catalog : CatalogSettings) : ScanPlan :=
  ⟨project.root, catalog.sources, catalog.excluded, project.settings.tags⟩

end Project

end Phrasebook

import Phrasebook.Catalog.Template
import Phrasebook.Extract.File
import Phrasebook.Text.Quoted

set_option autoImplicit false

/-!
The settings of a project: its locales, its catalogs and the names under which messages are stated;
and why settings are refused.
-/
namespace Phrasebook

open Extract (TagSettings)

/-- A catalog: the path of its files, without ending and with a placeholder for the locale, and the
sources from which it is collected. -/
structure CatalogSettings where
  path : String
  sources : List String
  excluded : List String
  deriving DecidableEq, Repr

structure Settings where
  sourceLocale : String
  locales : List String
  catalogs : List CatalogSettings
  workers : Int
  tags : TagSettings
  deriving DecidableEq, Repr

def CatalogSettings.standard : CatalogSettings :=
  ⟨"src/locales/" ++ localePlaceholder, ["src"], ["node_modules"]⟩

/-- The path of a catalog, seen from the directory of the settings. -/
def CatalogSettings.template (root : Path) (catalog : CatalogSettings) : Path :=
  root.join (.ofText catalog.path)

def Settings.standard : Settings := ⟨"en", ["en"], [.standard], 4, .standard⟩

/-! ### Refused settings -/

inductive SettingsError where
  | notMapping
  | catalogNotMapping
  | tagsNotMapping
  | workersNotWhole
  /-- The value of a key is no list of texts. -/
  | notTexts (key : String)
  /-- The tags of one kind of file are no mapping. -/
  | kindNotMapping (kind : String)
  | unknownTags (kind : String) (keys : List String)
  | noLocale
  | foreignSource (source : String) (locales : List String)
  | noWorker
  | noPlaceholder (path : String)
  deriving DecidableEq, Repr

/-- Why settings cannot be had: they are refused, or their values are of kinds that no rule is
about. -/
inductive SettingsFailure where
  | refused (error : SettingsError)
  /-- A value is of a kind that cannot be listed or sorted. -/
  | wrongKind
  /-- A number of workers is without bound. -/
  | unbounded
  /-- A number that a text is wanted of has too many digits. -/
  | unwritable
  deriving DecidableEq, Repr

def SettingsError.text : SettingsError → String
  | notMapping => "config must be a mapping"
  | catalogNotMapping => "each catalog must be a mapping"
  | tagsNotMapping => "'extractors' must be a mapping"
  | workersNotWhole => "'max_workers' must be an integer"
  | notTexts key => "'" ++ key ++ "' must be a list of strings"
  | kindNotMapping kind => "extractors." ++ kind ++ " must be a mapping"
  | unknownTags kind keys =>
    "unknown keys in extractors." ++ kind ++ ": " ++ String.intercalate ", " keys
  | noLocale => "'locales' must list at least one locale"
  | foreignSource source locales =>
    "source_locale '" ++ source ++ "' is not in locales " ++ Text.quotedList locales
  | noWorker => "'max_workers' must be >= 1"
  | noPlaceholder path => "catalog path '" ++ path ++ "' must contain " ++ localePlaceholder

end Phrasebook

import Phrasebook.Data
import Phrasebook.Number.Read
import Phrasebook.Settings.Basic

set_option autoImplicit false

/-!
Settings from data. What is absent has its standard value; each value is read first, and what the
values have to fulfil together is checked last.
-/
namespace Phrasebook.Settings

open Extract (Tags TagSettings)

abbrev Reading (α : Type) := Except SettingsFailure α

def refuse {α : Type} (error : SettingsError) : Reading α := .error (.refused error)

/-- A list of texts; one text stands for a list of its own. -/
def textsOf (key : String) : Data → Reading (List String)
  | .text points => .ok [Data.characters points]
  | .list items =>
    match Data.texts? items with
    | some texts => .ok texts
    | none => refuse (.notTexts key)
  | _ => refuse (.notTexts key)

/-- The list of texts of a key. -/
def textsAt (key : String) (standard : List String) (entries : List (Data × Data)) :
    Reading (List String) :=
  match Data.get? key entries with
  | some value => textsOf key value
  | none => .ok standard

/-- The text of a key, whatever data it has. -/
def textAt (key standard : String) (entries : List (Data × Data)) : Reading String :=
  match Data.get? key entries with
  | some value => if value.isWritable then .ok value.shown else .error .unwritable
  | none => .ok standard

def readCatalog (entries : List (Data × Data)) : Reading CatalogSettings := do
  let standard := CatalogSettings.standard
  .ok ⟨← textAt "path" standard.path entries, ← textsAt "include" standard.sources entries,
    ← textsAt "exclude" standard.excluded entries⟩

/-- The items that data lists: those of a list, the keys of a mapping and the characters of a
text. -/
def listed : Data → Reading (List Data)
  | .list items => .ok items
  | .map entries => .ok (entries.map (·.1))
  | .text points => .ok (points.map fun code => .text [code])
  | _ => .error .wrongKind

/-- The catalogs. Without any there is the standard one. -/
def readCatalogs (data : Data) : Reading (List CatalogSettings) :=
  if data.isEmpty then .ok [.standard]
  else do
    (← listed data).mapM fun item =>
      match item with
      | .map entries => readCatalog entries
      | _ => refuse .catalogNotMapping

/-- A whole number: a fraction is cut off, and a text is read. -/
def wholeNumber : Data → Reading Int
  | .int i => .ok i
  | .bool b => .ok (if b then 1 else 0)
  | .double (.finite negative m e) =>
    let (n, d) := Number.Double.fraction m e
    .ok (Number.Decimal.signed negative (n / d))
  | .double (.infinity _) => .error .unbounded
  | .text points =>
    match points.toChars?.bind Number.readInt? with
    | some i => .ok i
    | none => refuse .workersNotWhole
  | _ => refuse .workersNotWhole

/-- The keys of the lists of names. -/
def tagKeys : List String :=
  ["message_tags", "plural_tags", "plural_definition_tags", "component_names"]

/-- Sets the names of one key. -/
def withNames (tags : Tags) (key : String) (names : List String) : Tags :=
  if key = "message_tags" then { tags with message := names }
  else if key = "plural_tags" then { tags with plural := names }
  else if key = "plural_definition_tags" then { tags with definition := names }
  else { tags with component := names }

/-- The names of one kind of file. A list that is given replaces the standard one. -/
def readTags (standard : Tags) (kind : String) (data : Data) : Reading Tags :=
  match data with
  | .null => .ok standard
  | .map entries => do
    let unknown := (entries.map (·.1)).filter fun key =>
      !(tagKeys.map Data.ofString).any (Data.sameKey key ·)
    if unknown ≠ [] then
      match Data.texts? unknown with
      | some keys => refuse (.unknownTags kind (keys.mergeSort fun a b => a ≤ b))
      | none => .error .wrongKind
    else
      entries.foldlM (fun tags (key, value) => do
        .ok (withNames tags key.shown (← textsOf key.shown value))) standard
  | _ => refuse (.kindNotMapping kind)

/-- What the values have to fulfil together. -/
def check (settings : Settings) : Reading Settings :=
  if settings.locales = [] then refuse .noLocale
  else if !settings.locales.contains settings.sourceLocale then
    refuse (.foreignSource settings.sourceLocale settings.locales)
  else if settings.workers < 1 then refuse .noWorker
  else
    match settings.catalogs.find? fun catalog => !hasLocalePlaceholder catalog.path with
    | some catalog => refuse (.noPlaceholder catalog.path)
    | none => .ok settings

/-- The settings that data gives. -/
def ofData (data : Data) : Reading Settings :=
  match data with
  | .map entries => do
    let catalogs ← readCatalogs ((Data.get? "catalogs" entries).getD .null)
    let kinds ← match (Data.get? "extractors" entries).getD .null with
      | .map kinds => .ok kinds
      | other => if other.isEmpty then .ok [] else refuse .tagsNotMapping
    let standard := Settings.standard
    let workers ← wholeNumber ((Data.get? "max_workers" entries).getD (.int standard.workers))
    let source ← textAt "source_locale" standard.sourceLocale entries
    let locales ← textsAt "locales" standard.locales entries
    let ofKind (tags : Tags) (kind : String) : Reading Tags :=
      readTags tags kind ((Data.get? kind kinds).getD .null)
    let components ← ofKind standard.tags.component "svelte"
    let scripts ← ofKind standard.tags.script "script"
    check ⟨source, locales, catalogs, workers, ⟨components, scripts⟩⟩
  | _ => refuse .notMapping

end Phrasebook.Settings

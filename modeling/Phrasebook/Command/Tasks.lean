import Phrasebook.Catalog.Locales
import Phrasebook.Project.Load
import Phrasebook.Text.Upper

set_option autoImplicit false

/-!
The tasks and their steps. What a step has written and said stays, even if it fails. Extracting brings
catalogs up to date with the sources: each catalog is scanned by itself; its records are exported, and
merged into its file for each locale. Compiling fails in the strict way if a translation is missing.
Statistics show how much of the catalogs is translated.
-/
namespace Phrasebook.Command

/-! ### Steps -/

def total (counts : List Nat) : Nat := counts.foldl (· + ·) 0

/-- The files as they are now, and what has been said. -/
structure Progress where
  files : FileTree
  output : String

inductive Fault where
  | project (fault : ProjectFault)
  | catalog (fault : Catalog.Fault)
  | scanned (fault : Scan.PlanFault)
  | exported (fault : Scan.ExportFault)
  deriving DecidableEq, Repr

/-- The text of the faults that this program has of its own. -/
def Fault.text? : Fault → Option String
  | project fault => fault.text?
  | catalog fault => fault.text?
  | scanned _ => none
  | exported _ => none

abbrev Job (α : Type) := ExceptT Fault (StateM Progress) α

namespace Job

/-- Says one line. -/
def say (line : String) : Job Unit :=
  modify fun progress => { progress with output := progress.output ++ line ++ "\n" }

def sayAll (lines : List String) : Job Unit := lines.forM say

/-- What can be read off the files. -/
def look {α : Type} (read : FileTree → Except Catalog.Fault α) : Job α := do
  match read (← get).files with
  | .ok value => pure value
  | .error fault => throw (.catalog fault)

/-- Changes the files. -/
def change {α : Type} (step : FileTree → Except Fault (α × FileTree)) : Job α := do
  match step (← get).files with
  | .ok (value, files) =>
    modify fun progress => { progress with files := files }
    pure value
  | .error fault => throw fault

end Job

/-- The catalogs of a project with their files. -/
def catalogsOf (project : Project) : Job (List (CatalogSettings × CatalogFiles)) :=
  project.settings.catalogs.mapM fun catalog =>
    match project.catalogFiles catalog with
    | .ok files => pure (catalog, files)
    | .error fault => throw (.catalog fault)

/-! ### Compiling -/

/-- Compiles the catalog of one locale, and gives how many translations are missing. -/
def compileLocale [Catalog.Codecs] (files : CatalogFiles) (locale : String) : Job Nat := do
  let compiled ← Job.change fun tree => (files.compile tree locale).mapError .catalog
  let statistics ← Job.look fun tree => files.statistics tree locale
  Job.say ("  [" ++ locale ++ "] " ++ toString compiled.length ++ " сообщений -> " ++
    (files.template.compiledPath locale).text ++ " (без перевода: " ++
    toString statistics.missing ++ ")")
  pure statistics.missing

/-- Compiles the catalogs of a project. -/
def compile [Catalog.Codecs] (project : Project) (isStrict : Bool) : Job Nat := do
  Job.sayAll ["", "📦 Компиляция каталогов"]
  let counts ← (← catalogsOf project).mapM fun (_, files) => do
    pure (total (← project.settings.locales.mapM (compileLocale files)))
  let missing := total counts
  if isStrict ∧ missing ≠ 0 then do
    Job.sayAll ["", "  ❌ Не переведено сообщений: " ++ toString missing]
    pure 1
  else pure 0

/-! ### Extracting -/

/-- A line across the width of the report. -/
def rule : String := String.ofList (List.replicate 60 '=')

/-- A text with blanks up to a width. -/
def padded (width : Nat) (text : String) : String :=
  text ++ String.ofList (List.replicate (width - text.length) ' ')

/-- The report on the scan for a catalog. -/
def scanLines (catalog : CatalogSettings) (report : Extract.Report) : List String :=
  let byFile := report.byFile.mergeSort fun a b => a.1 ≤ b.1
  ["", rule, "  Каталог: " ++ catalog.path,
    "  Записей: " ++ toString report.records ++ ", уникальных: " ++ toString report.messages,
    rule] ++
    (byFile.map fun (file, count) => "    " ++ padded 40 file ++ " " ++ toString count) ++
    report.failed.map fun file => "    ⚠️  " ++ file ++ ": пропущен (ошибка разбора)"

/-- What a merge has done for a locale. -/
def mergeLine (isClean : Bool) (locale : String) (counts : Catalog.MergeCounts) : String :=
  "  [" ++ locale ++ "] Новых: " ++ toString counts.added ++
    ", Существующих: " ++ toString counts.kept ++
    (if isClean then ", Удалённых: " else ", Устаревших: ") ++ toString counts.retired

/-- Merges messages into the catalog of one locale. -/
def mergeLocale [Catalog.Codecs] (files : CatalogFiles) (messages : List Extract.UniqueMessage)
    (isClean : Bool) (locale : String) : Job Unit := do
  let counts ← Job.change fun tree =>
    (files.merge tree locale messages isClean).mapError .catalog
  Job.say (mergeLine isClean locale counts)

/-- Scans the sources of a catalog, in the files as they are now. -/
def scanSources (project : Project) (catalog : CatalogSettings) : Job Scan := do
  match Scan.perform (← get).files (project.scanPlan catalog) with
  | .ok scan => pure scan
  | .error fault => throw (.scanned fault)

/-- Writes the records of a scan to a file. -/
def exportRecords (path root : Path) (scan : Scan) : Job Unit :=
  Job.change fun tree => ((scan.save tree path root).map ((), ·)).mapError .exported

/-- Brings the files of one catalog up to date, and gives how many sources failed. -/
def extractCatalog [Catalog.Codecs] (project : Project) (isClean : Bool)
    (exportPath : Option String) (catalog : CatalogSettings) (files : CatalogFiles) : Job Nat := do
  let scan ← scanSources project catalog
  Job.sayAll (scanLines catalog scan.report)
  match exportPath with
  | some path => exportRecords (.ofText path) project.root scan
  | none => pure ()
  let messages := Extract.uniqueMessages scan.records
  project.settings.locales.forM (mergeLocale files messages isClean)
  pure scan.failures.length

/-- Brings the catalogs of a project up to date. -/
def extract [Catalog.Codecs] (project : Project) (isClean : Bool) (exportPath : Option String) :
    Job Nat := do
  Job.sayAll ["", "🔍 Извлечение сообщений: " ++ project.root.text]
  let counts ← (← catalogsOf project).mapM fun (catalog, files) =>
    extractCatalog project isClean exportPath catalog files
  let failed := total counts
  if failed ≠ 0 then Job.sayAll ["", "  Файлов с ошибками: " ++ toString failed]
  pure 0

/-! ### Statistics -/

def statisticsLines (locale : String) (statistics : Catalog.Statistics) : List String :=
  ["  [" ++ Text.upper locale ++ "]",
    "    Всего: " ++ toString statistics.total ++
      ", Переведено: " ++ toString statistics.translated ++
      ", Fuzzy: " ++ toString statistics.fuzzy ++
      ", Устаревших: " ++ toString statistics.obsolete,
    "    Покрытие: " ++ statistics.coverageText ++ "%", ""]

/-- Shows the locales of one catalog. -/
def showCatalog [Catalog.Codecs] (files : CatalogFiles) : Job Unit := do
  let locales ← Job.look files.locales
  if locales = [] then
    Job.sayAll ["", "  Каталоги переводов не найдены.", "  Шаблон: " ++ files.template.text]
  else do
    Job.sayAll ["   Шаблон: " ++ files.template.text,
      "   Локали: " ++ String.intercalate ", " locales, ""]
    locales.forM fun locale => do
      Job.sayAll (statisticsLines locale (← Job.look fun tree => files.statistics tree locale))

/-- Shows the catalogs of a project. -/
def statistics [Catalog.Codecs] (project : Project) : Job Nat := do
  Job.sayAll ["", "📊 Статистика переводов"]
  (← catalogsOf project).forM fun (_, files) => showCatalog files
  pure 0

end Phrasebook.Command

import Phrasebook.Extract.Record
import Phrasebook.Files.Tree
import Phrasebook.Json.Basic
import Phrasebook.Settings.Basic

set_option autoImplicit false

/-!
Scanning a project: the source files that are found, and the messages of each. The result depends
only on what each file gives by itself: files come in the order of their names. The records of a scan are
written to a file as JSON.
-/
namespace Phrasebook

open Extract (FileKind Record TagSettings)

/-- What is scanned: files and directories, as seen from a root. -/
structure ScanPlan where
  root : Path
  sources : List String
  /-- Names that no part of a path may have. -/
  excluded : List String
  tags : TagSettings

/-- A file that can state messages, by its path from the root. -/
structure SourceFile where
  name : String
  kind : FileKind
  bytes : List UInt8
  deriving DecidableEq, Repr

namespace SourceFile

/-- The messages of a file. Its text is read before them, and every line end counts alike. -/
def records (tags : TagSettings) (file : SourceFile) : Except Extract.Fault (List Record) := do
  let text ← (Text.decode file.bytes).mapError .unreadable
  Extract.extract file.name file.kind (Extract.tagsFor tags file.kind) (Text.unifiedLines text)

end SourceFile

/-- The messages of a file, or the fault in it. -/
structure FileRecords where
  file : String
  outcome : Except Extract.Fault (List Record)

/-- What a scan found. -/
structure Scan where
  records : List Record
  /-- The files that gave no messages because of a fault. -/
  failures : List (String × Extract.Fault)

namespace Scan

/-- Names that are left out unless others are given. -/
def standardExcluded : List String := ["node_modules", ".git", ".svelte-kit", "build", "dist"]

/-- Without sources the whole project is scanned. -/
def sourcesOf (plan : ScanPlan) : List Path :=
  (if plan.sources = [] then ["."] else plan.sources).map fun source =>
    plan.root.join (.ofText source)

/-- The files at or below a path. Nothing if nothing is there. -/
def filesAt? (tree : FileTree) (path : Path) : Option (List (Path × List UInt8)) := do
  let place ← tree.place? path
  match ← tree.entry? place with
  | .file bytes => some [(path, bytes)]
  | .directory =>
    some ((tree.filesBelow place).map fun (parts, bytes) =>
      (⟨path.anchor, path.parts ++ parts⟩, bytes))

/-- The files that the sources of a plan lead to. -/
def candidates (tree : FileTree) (plan : ScanPlan) : List (Path × List UInt8) :=
  (sourcesOf plan).flatMap fun path => (filesAt? tree path).getD []

/-- A file below the root, unless it is excluded or can state no messages. -/
def sourceFile? (plan : ScanPlan) (path : Path) (bytes : List UInt8) : Option SourceFile := do
  let parts ← plan.root.below? path
  if plan.excluded.any parts.contains then none
  let kind ← Extract.kindOf? path.name
  some ⟨String.intercalate "/" parts, kind, bytes⟩

/-- The source files that a plan finds, each once. -/
def sourceFiles (tree : FileTree) (plan : ScanPlan) : List SourceFile :=
  let files := (candidates tree plan).filterMap fun (path, bytes) => sourceFile? plan path bytes
  (files.mergeSort fun a b => a.name ≤ b.name).eraseDups

/-- The sources of a plan that are not there. -/
def missing (tree : FileTree) (plan : ScanPlan) : List Path :=
  (sourcesOf plan).filter fun path => (filesAt? tree path).isNone

/-- Puts together what files gave, in whatever order they were read. -/
def ofFiles (results : List FileRecords) : Scan :=
  let inOrder := results.mergeSort fun a b => a.file ≤ b.file
  ⟨inOrder.flatMap fun result => (result.outcome.toOption).getD [],
    inOrder.filterMap fun result =>
      match result.outcome with
      | .error fault => some (result.file, fault)
      | .ok _ => none⟩

/-- Scans the files below the root. -/
def run (tree : FileTree) (plan : ScanPlan) : Scan :=
  ofFiles ((sourceFiles tree plan).map fun file => ⟨file.name, file.records plan.tags⟩)

/-- Why a project is not scanned. -/
inductive PlanFault where
  /-- A source leads to a file that has no name, as it does not lie below the root. -/
  | outside
  deriving DecidableEq, Repr

/-- Scans a project. No file is read unless all that the sources lead to lie below the root. -/
def perform (tree : FileTree) (plan : ScanPlan) : Except PlanFault Scan :=
  if (candidates tree plan).all fun found => (plan.root.below? found.1).isSome then
    .ok (run tree plan)
  else .error .outside

/-- The report on a scan. -/
def report (scan : Scan) : Extract.Report :=
  Extract.report scan.records (scan.failures.map (·.1))

end Scan

end Phrasebook

namespace Phrasebook.Scan

/-! ### The records as a file -/

open Extract (Origin Record Report)

def originJson (origin : Origin) : Json :=
  .ofEntries [("file", .ofString origin.file), ("line", .ofNat origin.position.line),
    ("column", .int origin.position.column)]

def recordJson (record : Record) : Json :=
  .ofEntries [("id", .ofString record.id), ("message", .ofString record.message),
    ("context", (record.context.map Json.ofString).getD .null),
    ("comment", (record.comment.map Json.string).getD .null),
    ("origin", (record.origin.map originJson).getD .null)]

def reportJson (report : Report) : Json :=
  .ofEntries [("total_records", .ofNat report.records),
    ("unique_messages", .ofNat report.messages), ("with_context", .ofNat report.withContext),
    ("by_file", .ofEntries (report.byFile.map fun (file, count) => (file, .ofNat count))),
    ("failed_files", .array (report.failed.map Json.ofString))]

/-- The records of a scan with the report on them. -/
def exported (root : Path) (scan : Scan) : Json :=
  .ofEntries [
    ("meta", .ofEntries [("project", .ofString root.text), ("report", reportJson scan.report)]),
    ("records", .array (scan.records.map recordJson))]

/-- Why the records of a scan cannot be written. -/
inductive ExportFault where
  | file (fault : FileFault)
  /-- A comment has a surrogate that stands alone. -/
  | unencodable
  deriving DecidableEq, Repr

/-- Writes the records of a scan to a file. -/
def save (tree : FileTree) (path root : Path) (scan : Scan) : Except ExportFault FileTree :=
  match (Json.write (exported root scan)).toChars? with
  | some text => (tree.store path (Text.encode text)).mapError .file
  | none => .error .unencodable

end Phrasebook.Scan

import Phrasebook.Command.Run

set_option autoImplicit false

/-!
The program. It reads the files below the directory at hand and below that of the settings, does
what its arguments ask for, and writes the files that are new or changed.
-/
namespace Phrasebook.Program

def usage : String := "usage: phrasebook [-h] [-v] (extract | compile | stats) [options]"

/-- The place of a path in the tree of files. -/
def placeOf (path : String) : Place := (Path.ofText path).parts

def textOf (place : Place) : String := "/" ++ String.intercalate "/" place

/-- The entries at and below a place. Links to directories are not followed. -/
partial def entriesBelow (place : Place) : IO (List (Place × FileEntry)) := do
  let here ← IO.FS.realPath (textOf place)
  let mut entries : List (Place × FileEntry) := [(place, .directory)]
  for found in ← here.readDir do
    let inner := place ++ [found.fileName]
    match (← found.path.symlinkMetadata).type with
    | .dir => entries := (← entriesBelow inner) ++ entries
    | _ =>
      if !(← found.path.isDir) && (← found.path.pathExists) then
        let bytes ← IO.FS.readBinFile found.path
        entries := (inner, .file bytes.toList) :: entries
  return entries

/-- The tree of the files that a request may be about. -/
def treeFor (request : Command.Request) : IO FileTree := do
  let here := placeOf (← IO.currentDir).toString
  let mut entries ← entriesBelow here
  for place in FileTree.enclosing here do
    entries := (place, .directory) :: entries
  if let some path := request.settingsPath then
    let folder ← IO.FS.realPath (Path.ofText path).parent.text
    if !here.isPrefixOf (placeOf folder.toString) && (← folder.isDir) then
      entries := (← entriesBelow (placeOf folder.toString)) ++ entries
  return ⟨entries, here⟩

/-- Writes the files that differ. -/
def writeChanges (before after : FileTree) : IO Unit := do
  for (place, entry) in after.entries do
    if let .file bytes := entry then
      if before.entry? place ≠ some entry then
        IO.FS.createDirAll (textOf place.dropLast)
        IO.FS.writeBinFile (textOf place) ⟨bytes.toArray⟩

/-- Ends as an outcome says. -/
def finish : Except Command.Fault Command.Outcome → IO UInt32
  | .ok outcome => do
    IO.print outcome.output
    IO.eprint outcome.complaint
    for line in outcome.logged do
      IO.eprintln line
    return UInt32.ofNat outcome.exitCode
  | .error fault => do
    IO.eprintln ("The files cannot be used: " ++ reprStr fault)
    return 1

/-- Does what arguments ask for, and gives the exit code. -/
def run (arguments : List String) : IO UInt32 := do
  match Command.Request.ofArguments arguments with
  | .error refusal =>
    IO.eprintln usage
    return UInt32.ofNat refusal.exitCode
  | .ok request =>
    let before ← treeFor request
    let (result, after) := Command.run before request
    writeChanges before after
    finish result

end Phrasebook.Program

def main (arguments : List String) : IO UInt32 := Phrasebook.Program.run arguments

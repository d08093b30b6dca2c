import Phrasebook.Dictionary
import Phrasebook.Files.Path
import Phrasebook.Text.Utf8

set_option autoImplicit false

/-!
A tree of files and directories, with the directory from which relative paths start. Places are
named by the parts from the root down; the root is always there.
-/
namespace Phrasebook

/-- The names from the root of the tree down to an entry. -/
abbrev Place := List String

inductive FileEntry where
  | file (bytes : List UInt8)
  | directory
  deriving DecidableEq, Repr

/-- Why a file cannot be read or written. -/
inductive FileFault where
  | missing
  | isDirectory
  | notDirectory
  | alreadyThere
  deriving DecidableEq, Repr

structure FileTree where
  entries : Dictionary Place FileEntry
  here : Place
  deriving Repr

namespace FileTree

def entry? (tree : FileTree) (place : Place) : Option FileEntry :=
  if place = [] then some .directory else Dictionary.get? place tree.entries

def isDirectory (tree : FileTree) (place : Place) : Bool := tree.entry? place = some .directory

/-- Walks the parts of a path. Two points go up, from a directory only. -/
def walk (tree : FileTree) : Place → List String → Option Place
  | place, [] => some place
  | place, part :: rest =>
    if part = ".." then if tree.isDirectory place then walk tree place.dropLast rest else none
    else walk tree (place ++ [part]) rest

/-- The place that a path names, whether or not something is there. -/
def place? (tree : FileTree) (path : Path) : Option Place :=
  tree.walk (if path.anchor = .relative then tree.here else []) path.parts

/-- What a path names. -/
def at? (tree : FileTree) (path : Path) : Option FileEntry := do
  tree.entry? (← tree.place? path)

def hasFile (tree : FileTree) (path : Path) : Bool :=
  match tree.at? path with
  | some (.file _) => true
  | _ => false

def hasDirectory (tree : FileTree) (path : Path) : Bool := tree.at? path = some .directory

def has (tree : FileTree) (path : Path) : Bool := (tree.at? path).isSome

/-- The directories in which a place lies, outer ones first, and the place itself. -/
def enclosing : Place → List Place
  | [] => [[]]
  | part :: rest => [] :: (enclosing rest).map (part :: ·)

/-- The fault of a place of which the parents are not all directories. -/
def parentFault? (tree : FileTree) (place : Place) : Option FileFault :=
  let above := (enclosing place.dropLast).map tree.entry?
  if above.contains none then some .missing
  else if above.all (· = some .directory) then none
  else some .notDirectory

/-- The bytes of a file. -/
def readBytes (tree : FileTree) (path : Path) : Except FileFault (List UInt8) :=
  match tree.place? path with
  | none => .error .missing
  | some place =>
    match tree.entry? place with
    | some (.file bytes) => .ok bytes
    | some .directory => .error .isDirectory
    | none => .error ((tree.parentFault? place).getD .missing)

/-- Puts bytes into a file, new or old. -/
def writeBytes (tree : FileTree) (path : Path) (bytes : List UInt8) : Except FileFault FileTree :=
  match tree.place? path with
  | none => .error .missing
  | some place =>
    match tree.parentFault? place, tree.entry? place with
    | some fault, _ => .error fault
    | none, some .directory => .error .isDirectory
    | none, _ => .ok { tree with entries := Dictionary.set place (.file bytes) tree.entries }

/-- Makes the directories of the given places that are missing, outer ones first. -/
def makeDirectories (tree : FileTree) : List Place → Except FileFault FileTree
  | [] => .ok tree
  | place :: rest =>
    match tree.entry? place with
    | some .directory => makeDirectories tree rest
    | some (.file _) => .error (if rest = [] then .alreadyThere else .notDirectory)
    | none =>
      makeDirectories { tree with entries := Dictionary.set place .directory tree.entries } rest

/-- Makes the directory in which a path lies. -/
def makeParent (tree : FileTree) (path : Path) : Except FileFault FileTree :=
  match tree.place? path.parent with
  | none => .error .missing
  | some place => tree.makeDirectories (enclosing place)

/-- Makes the directory of a file and puts bytes into the file. -/
def store (tree : FileTree) (path : Path) (bytes : List UInt8) : Except FileFault FileTree := do
  (← tree.makeParent path).writeBytes path bytes

def remove (tree : FileTree) (path : Path) : FileTree :=
  match tree.place? path with
  | none => tree
  | some place => { tree with entries := Dictionary.erase place tree.entries }

/-- Every file under a place: the names from there on, and the bytes. -/
def filesBelow (tree : FileTree) (place : Place) : List (List String × List UInt8) :=
  tree.entries.filterMap fun (found, entry) =>
    match entry with
    | .file bytes => if place.isPrefixOf found then some (found.drop place.length, bytes) else none
    | .directory => none

/-- The names of the entries of a directory. -/
def namesIn (tree : FileTree) (place : Place) : List String :=
  tree.entries.filterMap fun (found, _) =>
    if found ≠ [] ∧ found.dropLast = place then found.getLast? else none

end FileTree

end Phrasebook

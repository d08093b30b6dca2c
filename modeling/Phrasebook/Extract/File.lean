import Phrasebook.Extract.Collect
import Phrasebook.Markup.Parse

set_option autoImplicit false

/-!
The messages of a source file. How a file is read follows from its name.
-/
namespace Phrasebook.Extract

open Source (Node Position)

/-- What a source file holds. -/
inductive FileKind where
  | component
  | script (dialect : Script.Dialect)
  deriving DecidableEq, Repr

/-- The names of all settings of tags, for the kinds of files. -/
structure TagSettings where
  component : Tags
  script : Tags
  deriving DecidableEq, Repr

def TagSettings.standard : TagSettings := ⟨.ofComponents, .ofScripts⟩

def typedEndings : List String := [".ts", ".mts", ".cts"]

def plainEndings : List String := [".js", ".mjs", ".cjs"]

def componentEnding : String := ".svelte"

def hasEnding (file : String) (endings : List String) : Bool :=
  endings.any fun ending => ending.toList.isSuffixOf file.toList

/-- The dialect of a script, by the ending of its name. -/
def dialectOf (file : String) : Script.Dialect :=
  if hasEnding file typedEndings then .typescript else .javascript

/-- The kind of a file, if it is one that can state messages. -/
def kindOf? (file : String) : Option FileKind :=
  if hasEnding file [componentEnding] then some .component
  else if hasEnding file (plainEndings ++ typedEndings) then some (.script (dialectOf file))
  else none

def tagsFor (settings : TagSettings) : FileKind → Tags
  | .component => settings.component
  | .script _ => settings.script

/-- The tree of a source file. -/
def tree (kind : FileKind) (source : List Char) : Except Fault (Node Position) :=
  match kind with
  | .component => (Markup.parse (Markup.preprocess source)).mapError .parse
  | .script dialect =>
    match Script.parse? dialect (Source.shifted ⟨1, 0⟩ 0) source with
    | some tree => .ok tree
    | none => .error (.parse ⟨.grammar, none⟩)

/-- The messages of a source file. A fault anywhere in the file leaves none of them. -/
def extract (file : String) (kind : FileKind) (tags : Tags) (source : List Char) :
    Except Fault (List Record) := do
  collect file tags (← tree kind source)

/-- Hands the messages of a source file on, one after another. Nothing is handed on from a file with
a fault. -/
def extractInto {σ : Type} (emit : σ → Record → σ) (start : σ) (file : String) (kind : FileKind)
    (tags : Tags) (source : List Char) : σ × Except Fault (List Record) :=
  match extract file kind tags source with
  | .ok records => (records.foldl emit start, .ok records)
  | .error fault => (start, .error fault)

end Phrasebook.Extract

import Phrasebook.Dictionary
import Phrasebook.Text.Split

set_option autoImplicit false

/-!
Catalogs of translations: entries that the sources state, and obsolete ones that they state no
longer. An entry is found by its message and its context.
-/
namespace Phrasebook.Catalog

/-- One text, or one for each form of a plural. -/
inductive Wording where
  | single (text : String)
  | forms (texts : List String)
  deriving DecidableEq, Repr

namespace Wording

def texts : Wording → List String
  | single text => [text]
  | forms texts => texts

def first (wording : Wording) : String := wording.texts.headD ""

/-- No text at all: forms count as text even if each is empty. -/
def isEmpty : Wording → Bool
  | single text => text.isEmpty
  | forms texts => texts.isEmpty

def isForms : Wording → Bool
  | single _ => false
  | forms _ => true

end Wording

/-- Where a message is stated; the line may not be known. -/
structure Location where
  file : String
  line : Option Int
  deriving DecidableEq, Repr

/-- A flag, as it stands between the commas of a line. -/
@[ext] structure Flag where
  name : String
  whole : ',' ∉ name.toList
  oneLine : '\n' ∉ name.toList
  trim : Text.stripped name.toList = name.toList
  deriving DecidableEq, Repr

namespace Flag

/-- The flag that a text names, blanks around it left out. A text that cannot stand between commas
names none. -/
def ofText? (text : List Char) : Option Flag :=
  let name := String.ofList (Text.stripped text)
  if named : ',' ∉ name.toList ∧ '\n' ∉ name.toList ∧ Text.stripped name.toList = name.toList then
    some ⟨name, named.1, named.2.1, named.2.2⟩
  else none

/-- The translation is in doubt. -/
def fuzzy : Flag := ⟨"fuzzy", by decide, by decide, by decide⟩

end Flag

structure Entry where
  id : Wording
  translation : Wording
  context : Option String
  locations : List Location
  flags : List Flag
  /-- Comments from the sources. -/
  comments : List String
  /-- Comments of translators. -/
  notes : List String
  deriving DecidableEq, Repr

/-- What an entry is found by: the first text of its id, and its context. -/
abbrev EntryKey := List String

/-- The key of a message. A context that is empty is not the same as none. -/
def keyOf (message : String) (context : Option String) : EntryKey := message :: context.toList

/-- A context that says something. -/
def properContext (context : Option String) : Option String := context.filter (!·.isEmpty)

namespace Entry

def key (entry : Entry) : EntryKey := keyOf entry.id.first entry.context

/-- The key under which an entry is kept when it becomes obsolete. -/
def obsoleteKey (entry : Entry) : EntryKey :=
  entry.id.texts ++ (properContext entry.context).toList

def isFuzzy (entry : Entry) : Bool := entry.flags.contains .fuzzy

/-- The entry of the header has an empty text for its id, and is never stored. -/
def isHeader (entry : Entry) : Bool := entry.id = .single ""

end Entry

end Catalog

/-- A catalog of one locale. -/
structure Catalog where
  entries : Dictionary Catalog.EntryKey Catalog.Entry
  obsolete : Dictionary Catalog.EntryKey Catalog.Entry
  deriving Repr

namespace Catalog

def empty : Catalog := ⟨[], []⟩

def get? (catalog : Catalog) (message : String) (context : Option String) : Option Entry :=
  Dictionary.get? (keyOf message context) catalog.entries

/-- Each item once, in the order in which they first come. -/
def distinct {α : Type} [BEq α] (items : List α) : List α :=
  items.foldl (fun kept item => if kept.contains item then kept else kept ++ [item]) []

/-- What becomes of an entry when a further one with its key comes: the first translation stays,
unless only the further one has forms. -/
def Entry.unite (entry further : Entry) : Entry :=
  let takesForms := further.id.isForms && !entry.id.isForms
  { id := if takesForms then further.id else entry.id
    translation := if takesForms then further.translation else entry.translation
    context := entry.context
    locations := distinct (entry.locations ++ further.locations)
    flags := distinct (entry.flags ++ further.flags)
    comments := distinct (entry.comments ++ further.comments)
    notes := distinct (entry.notes ++ further.notes) }

/-- Adds an entry: to the one with its key, or at the end. A header is no entry: what its fields say is
read apart, and its other parts are of no use. -/
def add (catalog : Catalog) (entry : Entry) : Catalog :=
  match Dictionary.get? entry.key catalog.entries with
  | some found =>
    { catalog with entries := Dictionary.set entry.key (found.unite entry) catalog.entries }
  | none =>
    if entry.isHeader then catalog
    else { catalog with entries := Dictionary.set entry.key entry catalog.entries }

/-- Adds an obsolete entry, in place of the one with its key. -/
def addObsolete (catalog : Catalog) (key : EntryKey) (entry : Entry) : Catalog :=
  { catalog with obsolete := Dictionary.set key entry catalog.obsolete }

def all (catalog : Catalog) : List Entry := catalog.entries.map (·.2)

def allObsolete (catalog : Catalog) : List Entry := catalog.obsolete.map (·.2)

end Catalog

end Phrasebook

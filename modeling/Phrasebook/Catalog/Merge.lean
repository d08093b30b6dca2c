import Phrasebook.Catalog.Entry
import Phrasebook.Extract.Record
import Phrasebook.Text.Quoted

set_option autoImplicit false

/-!
Bringing a catalog up to date with the messages that the sources state. Translations stay: an entry
that is stated no longer becomes obsolete, and one that is stated again takes its translation back.
-/
namespace Phrasebook.Catalog

open Extract (UniqueMessage)
open Text (CodePoints)

/-- How a catalog is brought up to date. -/
structure MergeMode where
  /-- The catalog is of the language of the sources, in which a message translates itself. -/
  isSource : Bool
  /-- Obsolete entries are removed. -/
  isClean : Bool

structure MergeCounts where
  added : Nat
  kept : Nat
  retired : Nat
  deriving DecidableEq, Repr

/-- A comment as a catalog keeps it: a surrogate that stands alone is written by its number. -/
def commentText (comment : CodePoints) : String :=
  String.ofList (comment.flatMap fun code =>
    if Text.isSurrogate code then Text.numberEscape code else [Char.ofNat code])

def locationsOfMessage (message : UniqueMessage) : List Location :=
  message.origins.map fun origin => ⟨origin.file, some origin.position.line⟩

/-- A comment that is empty is none. -/
def commentsOfMessage (message : UniqueMessage) : List String :=
  (message.comment.filter (!·.isEmpty)).toList.map commentText

/-- The translation, or the message itself where it has none in the language of the sources. -/
def sourceFilled (mode : MergeMode) (message : String) (translation : Wording) : Wording :=
  if mode.isSource && translation.isEmpty then .single message else translation

/-- An entry that is stated still. -/
def refreshed (mode : MergeMode) (message : UniqueMessage) (entry : Entry) : Entry :=
  { entry with
    locations := locationsOfMessage message
    comments := commentsOfMessage message
    translation := sourceFilled mode message.message entry.translation }

/-- An obsolete entry is the one of a message. -/
def isOf (message : String) (context : Option String) (entry : Entry) : Bool :=
  entry.id = .single message && properContext entry.context = context

/-- Takes the obsolete entry of a message out of a catalog. -/
def takeObsolete (catalog : Catalog) (message : String) (context : Option String) :
    Option Entry × Catalog :=
  match catalog.obsolete.find? fun entry => isOf message context entry.2 with
  | some (key, entry) =>
    (some entry, { catalog with obsolete := Dictionary.erase key catalog.obsolete })
  | none => (none, catalog)

/-- The entry of a message that the catalog did not have, with the translation that it had. -/
def newEntry (mode : MergeMode) (message : UniqueMessage) (former : Option Entry) : Entry :=
  { id := .single message.message
    translation :=
      sourceFilled mode message.message ((former.map (·.translation)).getD (.single ""))
    context := message.context
    locations := distinct (locationsOfMessage message)
    flags := []
    comments := commentsOfMessage message
    notes := [] }

/-- Brings the entry of one message up to date. -/
def mergeMessage (mode : MergeMode) (state : Catalog × MergeCounts) (message : UniqueMessage) :
    Catalog × MergeCounts :=
  let (catalog, counts) := state
  match catalog.get? message.message message.context with
  | some entry =>
    let key := keyOf message.message message.context
    ({ catalog with entries := Dictionary.set key (refreshed mode message entry) catalog.entries },
      { counts with kept := counts.kept + 1 })
  | none =>
    let (former, catalog) :=
      takeObsolete catalog message.message (properContext message.context)
    (catalog.add (newEntry mode message former), { counts with added := counts.added + 1 })

/-- The messages state an entry. -/
def isStated (messages : List UniqueMessage) (entry : Entry) : Bool :=
  messages.any fun message =>
    entry.id = .single message.message &&
      properContext entry.context = properContext message.context

/-- Makes an entry obsolete, or removes it. -/
def retire (mode : MergeMode) (catalog : Catalog) (entry : Entry) : Catalog :=
  let catalog := { catalog with entries := Dictionary.erase entry.key catalog.entries }
  if mode.isClean then catalog else catalog.addObsolete entry.obsoleteKey entry

/-- Brings a catalog up to date with messages. -/
def merge (mode : MergeMode) (messages : List UniqueMessage) (catalog : Catalog) :
    Catalog × MergeCounts :=
  let (updated, counts) := messages.foldl (mergeMessage mode) (catalog, ⟨0, 0, 0⟩)
  let unstated := updated.all.filter fun entry => !isStated messages entry
  let retired := unstated.foldl (retire mode) updated
  (if mode.isClean then { retired with obsolete := [] } else retired,
    { counts with retired := unstated.length })

/-- Sets the translation of an entry, and whether it is in doubt. Nothing if there is no such
entry. -/
def translate? (catalog : Catalog) (message : String) (context : Option String)
    (translation : String) (inDoubt : Bool) : Option Catalog :=
  (catalog.get? message context).map fun entry =>
    let flags := if inDoubt then distinct (entry.flags ++ [.fuzzy]) else entry.flags
    let changed : Entry := { entry with translation := .single translation, flags := flags }
    { catalog with
      entries := Dictionary.set (keyOf message context) changed catalog.entries }

end Phrasebook.Catalog

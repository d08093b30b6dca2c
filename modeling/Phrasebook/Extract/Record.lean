import Phrasebook.Dictionary
import Phrasebook.Message.Identifier
import Phrasebook.Source.Position
import Phrasebook.Text.CodePoints

set_option autoImplicit false

/-!
Records of the messages that a source file states, and summaries of them: one entry for each message,
and how many records there are.
-/
namespace Phrasebook.Extract

open Text (CodePoints)

/-- Where a message is stated. -/
structure Origin where
  file : String
  position : Source.Position
  deriving DecidableEq, Repr

/-- A message as a source file states it. The comment does not count for the id, and may be text
that no file can hold. -/
structure Record where
  id : String
  message : String
  context : Option String
  comment : Option CodePoints
  origin : Option Origin
  deriving DecidableEq, Repr

/-- The record of a message. Its id follows from message and context alone. -/
def Record.create (message : String) (context : Option String) (comment : Option CodePoints)
    (origin : Option Origin) : Record :=
  ⟨Message.identifier message context, message, context, comment, origin⟩

/-! ### Summaries -/

/-- A message with all the places where it is stated. -/
structure UniqueMessage where
  id : String
  message : String
  context : Option String
  comment : Option CodePoints
  origins : List Origin
  deriving DecidableEq, Repr

namespace UniqueMessage

def ofRecord (record : Record) : UniqueMessage :=
  ⟨record.id, record.message, record.context, record.comment, record.origin.toList⟩

/-- Adds a further record of the message. The first comment stays. -/
def add (entry : UniqueMessage) (record : Record) : UniqueMessage :=
  ⟨entry.id, entry.message, entry.context, entry.comment.or record.comment,
    entry.origins ++ record.origin.toList⟩

end UniqueMessage

/-- Adds a record to the entry of its id, or at the end. -/
def addRecord (entries : List UniqueMessage) (record : Record) : List UniqueMessage :=
  match entries with
  | [] => [.ofRecord record]
  | entry :: rest =>
    if entry.id = record.id then entry.add record :: rest else entry :: addRecord rest record

/-- The messages of records, in the order in which they come first. -/
def uniqueMessages (records : List Record) : List UniqueMessage := records.foldl addRecord []

/-- How many records there are, by several counts. -/
structure Report where
  records : Nat
  messages : Nat
  withContext : Nat
  /-- How many records each file has, in the order in which the files come first. -/
  byFile : Dictionary String Nat
  failed : List String
  deriving DecidableEq, Repr

/-- How many records each file has. -/
def countByFile (records : List Record) : Dictionary String Nat :=
  (records.filterMap (·.origin)).foldl
    (fun counts origin => counts.set origin.file ((counts.get? origin.file).getD 0 + 1)) []

/-- The report on records, with the files that failed. -/
def report (records : List Record) (failed : List String) : Report :=
  ⟨records.length, (uniqueMessages records).length,
    records.countP fun record => !(record.context.getD "").isEmpty,
    countByFile records, failed⟩

end Phrasebook.Extract

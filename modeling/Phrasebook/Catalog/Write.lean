import Phrasebook.Catalog.Entry
import Phrasebook.Catalog.Header
import Phrasebook.Text.Wrap

set_option autoImplicit false

/-!
Writing a catalog. Comments and locations fill lines of a fixed width; locations are sorted, and a
line that is not known or zero is left out. Obsolete entries keep their texts and the notes of
translators.
-/
namespace Phrasebook.Catalog

/-- One character inside quotes. -/
def escapedChar (c : Char) : List Char :=
  match c with
  | '\\' => ['\\', '\\']
  | '\t' => ['\\', 't']
  | '\r' => ['\\', 'r']
  | '\n' => ['\\', 'n']
  | '"' => ['\\', '"']
  | c => [c]

def quotedText (text : String) : List Char := '"' :: text.toList.flatMap escapedChar ++ ['"']

/-- The width of lines of comments. -/
def commentWidth : Nat := 76

/-- The lines of a comment after a mark. -/
def commentLines (mark : String) (comment : List Char) : List (List Char) :=
  (Text.wrap commentWidth comment).map fun line => mark.toList ++ ' ' :: Text.stripped line

/-- A name with a space or a tab stands between isolating marks. -/
def isolatedName (file : List Char) : List Char :=
  if file.contains ' ' ∨ file.contains '\t' then
    (if file.head? = some Text.isolateStart then [] else [Text.isolateStart]) ++ file ++
      (if file.getLast? = some Text.isolateEnd then [] else [Text.isolateEnd])
  else file

def locationText (location : Location) : List Char :=
  let name := isolatedName location.file.toList
  match location.line with
  | none => name
  | some line => if line = 0 then name else name ++ ':' :: (Number.intText line).toList

/-- The line by which locations in one file are ordered. -/
def orderLine (location : Location) : Int :=
  match location.line with
  | none => -1
  | some line => if line = 0 then -1 else line

def comesBefore (a b : Location) : Bool :=
  a.file < b.file || (a.file = b.file && orderLine a ≤ orderLine b)

/-- The locations as they are written: in order, and each text once. -/
def locationTexts (locations : List Location) : List (List Char) :=
  distinct ((locations.mergeSort comesBefore).map locationText)

/-- The flags as they are written: in order, and each once. -/
def orderedFlags (flags : List Flag) : List Flag :=
  (distinct flags).mergeSort fun a b => a.name ≤ b.name

def flagText (flags : List Flag) : List Char :=
  [',', ' '].intercalate (flags.map (·.name.toList))

/-- The line of the flags, if there are any. -/
def flagLines (flags : List Flag) : List (List Char) :=
  if flags = [] then [] else ["#, ".toList ++ flagText (orderedFlags flags)]

/-- The lines with the texts of an entry, after a mark. -/
def textLines (mark : String) (entry : Entry) : List (List Char) :=
  let line (keyword text : String) : List Char :=
    mark.toList ++ keyword.toList ++ ' ' :: quotedText text
  let context := (properContext entry.context).toList.map fun c => line "msgctxt" c
  match entry.id, entry.translation with
  | .single id, translation => context ++ [line "msgid" id, line "msgstr" translation.first]
  | .forms ids, translation =>
    context ++
      [line "msgid" (ids.getD 0 ""), line "msgid_plural" (ids.getD 1 "")] ++
      translation.texts.zipIdx.map fun (text, n) => line ("msgstr[" ++ toString n ++ "]") text

/-- The lines of an entry. -/
def entryLines (entry : Entry) : List (List Char) :=
  (entry.notes.flatMap fun note => commentLines "#" note.toList) ++
    (entry.comments.flatMap fun comment => commentLines "#." comment.toList) ++
    commentLines "#:" ([' '].intercalate (locationTexts entry.locations)) ++
    flagLines entry.flags ++ textLines "" entry ++ [[]]

/-- The lines of an obsolete entry. -/
def obsoleteLines (entry : Entry) : List (List Char) :=
  (entry.notes.flatMap fun note => commentLines "#" note.toList) ++ textLines "#~ " entry ++ [[]]

/-- The forms of a plural are as many as the header says. A translation without forms gives each
form one character. -/
def Entry.withForms (count : Nat) (entry : Entry) : Entry :=
  if entry.id.isForms then
    let texts := match entry.translation with
      | .single text => text.toList.map Char.toString
      | .forms texts => texts
    { entry with
      translation := .forms ((texts ++ List.replicate (count - texts.length) "").take count) }
  else entry

/-- The entry of the header. -/
def headerEntry (header : Header) : Entry :=
  ⟨.single "", .single header.text, none, [], [], [], []⟩

/-- The lines of a catalog. -/
def lines (header : Header) (catalog : Catalog) : List (List Char) :=
  let sized := Entry.withForms header.formCount
  entryLines (headerEntry header) ++
    (catalog.all.flatMap fun entry => entryLines (sized entry)) ++
    (catalog.allObsolete.flatMap fun entry => obsoleteLines (sized entry))

/-- The bytes of a catalog. -/
def write (header : Header) (catalog : Catalog) : List UInt8 :=
  (lines header catalog).flatMap fun line => header.charset.encode (line ++ ['\n'])

end Phrasebook.Catalog

import Phrasebook.Catalog.Entry
import Phrasebook.Catalog.Header

set_option autoImplicit false

/-!
Reading a catalog from its lines. An entry is drafted line by line: comments first, then keywords
with quoted texts that later lines may go on with. A comment, or the keyword of the next entry, ends
the draft. Lines that say nothing known are passed over.
-/
namespace Phrasebook.Catalog

/-- Why a catalog cannot be read. -/
inductive ReadFault where
  | undecodable (error : Text.DecodeError)
  | header (fault : HeaderFault)
  /-- The number of a plural form is none. -/
  | badForm
  /-- The number of a plural form is far below zero. -/
  | formOutOfRange
  deriving DecidableEq, Repr

/-- The character that a letter after a backslash stands for. -/
def escapeOf? (c : Char) : Option Char :=
  match c with
  | 'n' => some '\n'
  | 't' => some '\t'
  | 'r' => some '\r'
  | '\\' => some '\\'
  | '"' => some '"'
  | _ => none

/-- Replaces the escapes of a text; an unknown one stays as it is. -/
def unescape : List Char → List Char
  | [] => []
  | '\\' :: c :: rest =>
    match escapeOf? c with
    | some meant => meant :: unescape rest
    | none => '\\' :: unescape (c :: rest)
  | c :: rest => c :: unescape rest

/-- The text between the first and the last character, which are the quotes. -/
def unquote (text : List Char) : String := String.ofList (unescape ((text.drop 1).dropLast))

/-- Which text a line of its own goes on with. -/
inductive Part where
  | context
  | id
  | translation
  deriving DecidableEq, Repr

/-- An entry of which some lines have been read. -/
structure Draft where
  ids : List String
  translations : List (Int × String)
  context : Option String
  isObsolete : Bool
  /-- A text of the kind has been started since the last id, if it is no id. -/
  inContext : Bool
  inId : Bool
  inTranslation : Bool
  locations : List Location
  flags : List Flag
  comments : List String
  notes : List String

def Draft.empty : Draft := ⟨[], [], none, false, false, false, false, [], [], [], []⟩

/-- Which text of a draft the next line goes on with. -/
def Draft.part? (draft : Draft) : Option Part :=
  if draft.inId then some .id
  else if draft.inTranslation then some .translation
  else if draft.inContext then some .context
  else none

/-- What has been read: the catalog, what its header says, and the draft. -/
structure Reader where
  catalog : Catalog
  header : Header
  draft : Draft

/-- Sets the form with a number. Numbers below zero count from the end; those above are passed
over. -/
def setForm (forms : List String) (number : Int) (text : String) : Except ReadFault (List String) :=
  let place := if number < 0 then number + forms.length else number
  if place < 0 then .error .formOutOfRange
  else .ok (forms.set place.toNat text)

/-- The forms of a plural: those that are not given are empty. -/
def formsOf (count : Nat) (translations : List (Int × String)) : Except ReadFault (List String) :=
  let inOrder := translations.mergeSort fun a b => a.1 < b.1 || (a.1 = b.1 && a.2 ≤ b.2)
  (inOrder.filter (·.1 < (count : Int))).foldlM (fun forms (number, text) => setForm forms number text)
    (List.replicate count "")

/-- The translation of a draft. Without one it is empty. -/
def Draft.translation (draft : Draft) (count : Nat) : Except ReadFault Wording :=
  match draft.ids with
  | _ :: _ :: _ => do
    let forms ← formsOf count draft.translations
    .ok (.forms (if forms = [] then ["", ""] else forms))
  | _ => .ok (.single ((draft.translations.head?.map (·.2)).getD ""))

/-- The id of a draft. -/
def Draft.id (draft : Draft) : Wording :=
  match draft.ids with
  | [text] => .single text
  | texts => .forms texts

/-- The entry of a draft. -/
def Draft.entry (draft : Draft) (count : Nat) : Except ReadFault Entry := do
  .ok ⟨draft.id, ← draft.translation count, draft.context, distinct draft.locations,
    distinct draft.flags, distinct draft.comments, distinct draft.notes⟩

/-- Puts the entry of a draft into the catalog and starts a new draft. The text of the header sets
what the header says. -/
def Reader.finish [Codecs] (reader : Reader) : Except ReadFault Reader :=
  if reader.draft.ids = [] then .ok reader
  else do
    let entry ← reader.draft.entry reader.header.formCount
    if reader.draft.isObsolete then
      .ok ⟨reader.catalog.addObsolete entry.key entry, reader.header, .empty⟩
    else if entry.isHeader then
      let header ← (reader.header.read entry.translation.first).mapError .header
      .ok ⟨reader.catalog, header, .empty⟩
    else .ok ⟨reader.catalog.add entry, reader.header, .empty⟩

def Reader.withDraft (reader : Reader) (draft : Draft) : Reader := { reader with draft := draft }

/-- Changes the last item of a list. -/
def changeLast {α : Type} (change : α → α) : List α → List α
  | [] => []
  | [item] => [change item]
  | item :: rest => item :: changeLast change rest

/-- A line that goes on with the text before it. -/
def Draft.goOn (draft : Draft) (line : List Char) : Draft :=
  let text := unquote (Text.stripped line)
  match draft.part? with
  | some .id => { draft with ids := changeLast (· ++ text) draft.ids }
  | some .translation =>
    { draft with translations := changeLast (fun t => (t.1, t.2 ++ text)) draft.translations }
  | some .context => { draft with context := draft.context.map (· ++ text) }
  | none => draft

/-- The number of the form that a keyword is about, if it is one for translations. -/
def formNumber? (keyword : List Char) : Except ReadFault (Option Int) :=
  if keyword = "msgstr".toList then .ok (some 0)
  else
    match Text.dropStart "msgstr[".toList keyword with
    | none => .ok none
    | some rest =>
      match Number.readInt? rest.dropLast with
      | some n => .ok (some n)
      | none => .error .badForm

/-- Takes the text of a keyword into the draft. -/
def Reader.take (reader : Reader) (isObsolete : Bool) (keyword : List Char) (text : String) :
    Except ReadFault Reader :=
  let draft := { reader.draft with isObsolete := isObsolete }
  if keyword = "msgid".toList ∨ keyword = "msgid_plural".toList then
    .ok (reader.withDraft
      { draft with ids := draft.ids ++ [text], inId := true, inContext := false })
  else if keyword = "msgctxt".toList then
    .ok (reader.withDraft { draft with context := some text, inContext := true })
  else do
    match ← formNumber? keyword with
    | some number =>
      .ok (reader.withDraft
        { draft with
          translations := draft.translations ++ [(number, text)], inId := false,
          inTranslation := true })
    | none => .ok (reader.withDraft draft)

/-- A line with a keyword and a quoted text. -/
def Reader.keywordLine [Codecs] (reader : Reader) (isObsolete : Bool) (line : List Char) :
    Except ReadFault Reader := do
  let (keyword, rest) := Text.cutFirst ' ' line
  let text := unquote (Text.stripped (rest.getD []))
  let startsEntry := keyword = "msgid".toList || keyword = "msgctxt".toList
  let reader ← if startsEntry then reader.finish else .ok reader
  reader.take isObsolete keyword text

/-- A line of an entry, after the mark of an obsolete one. -/
def Reader.entryLine [Codecs] (reader : Reader) (isObsolete : Bool) (line : List Char) :
    Except ReadFault Reader :=
  match line with
  | [] => .ok reader
  | '"' :: _ => .ok (reader.withDraft (reader.draft.goOn line))
  | _ => reader.keywordLine isObsolete line

/-- A location: a file, and after its last colon a line. None if that is no number. -/
def location? (text : List Char) : Option Location :=
  match Text.cutFirst ':' text.reverse with
  | (line, some file) =>
    (Number.readInt? line.reverse).map fun n => ⟨String.ofList file.reverse, some n⟩
  | (_, none) => some ⟨String.ofList text, none⟩

/-- The names of a line between spaces, where isolating marks keep spaces in names. Nothing if the
marks do not match. -/
def isolatedNames (inside : Bool) (name : List Char) : List Char → Option (List (List Char))
  | [] => if inside then (if name = [] then some [] else none)
    else some (if name = [] then [] else [name.reverse])
  | c :: rest =>
    if c = '\u2068' then if inside then none else isolatedNames true name rest
    else if c = '\u2069' then if inside then isolatedNames false name rest else none
    else if c = ' ' ∧ !inside then
      (isolatedNames inside [] rest).map fun names =>
        if name = [] then names else name.reverse :: names
    else isolatedNames inside (c :: name) rest

/-- The locations of a line. -/
def locationsOf (line : List Char) : List Location :=
  let names :=
    if line.contains '\u2068' ∨ line.contains '\u2069' then (isolatedNames false [] line).getD []
    else Text.words line
  names.filterMap location?

/-- The flags of a line. -/
def flagsOf (line : List Char) : List Flag :=
  (Text.pieces ',' (line.dropWhile Text.isBlank)).filterMap Flag.ofText?

/-- A comment. It ends the entry before it. -/
def Reader.commentLine [Codecs] (reader : Reader) (line : List Char) : Except ReadFault Reader := do
  let reader ← reader.finish
  let draft := reader.draft
  let rest := line.drop 2
  .ok (reader.withDraft
    (match line.drop 1 with
    | ':' :: _ => { draft with locations := draft.locations ++ locationsOf rest }
    | ',' :: _ => { draft with flags := draft.flags ++ flagsOf rest }
    | '.' :: _ =>
      let comment := Text.stripped rest
      if comment = [] then draft
      else { draft with comments := draft.comments ++ [String.ofList comment] }
    | note => { draft with notes := draft.notes ++ [String.ofList (Text.stripped note)] }))

/-- One line, without the blanks around it. -/
def Reader.line [Codecs] (reader : Reader) (line : List Char) : Except ReadFault Reader :=
  match line with
  | '#' :: '~' :: rest => reader.entryLine true (rest.dropWhile Text.isBlank)
  | '#' :: _ => reader.commentLine line
  | _ => reader.entryLine false line

/-- The lines of a file, as bytes. -/
def byteLines : List UInt8 → List (List UInt8)
  | [] => [[]]
  | b :: rest =>
    if b = 0x0A then [] :: byteLines rest
    else
      match byteLines rest with
      | first :: more => (b :: first) :: more
      | [] => [[b]]

def isBlankByte (b : UInt8) : Bool := b = 0x20 || (0x09 ≤ b && b ≤ 0x0D)

/-- Removes blank bytes at both ends. -/
def strippedBytes (line : List UInt8) : List UInt8 :=
  ((line.dropWhile isBlankByte).reverse.dropWhile isBlankByte).reverse

/-- One line in the encoding that the header names. -/
def Reader.byteLine [Codecs] (reader : Reader) (line : List UInt8) : Except ReadFault Reader :=
  let line := strippedBytes line
  if line = [] then .ok reader
  else do reader.line (← (reader.header.charset.decode line).mapError .undecodable)

/-- The catalog that bytes hold, and what its header says. -/
def read [Codecs] (locale : String) (bytes : List UInt8) : Except ReadFault (Header × Catalog) := do
  if !isLocaleName locale then .error (.header .badValue)
  let reader ← (byteLines bytes).foldlM Reader.byteLine ⟨.empty, .ofLocale locale, .empty⟩
  let reader ← reader.finish
  .ok (reader.header, reader.catalog)

end Phrasebook.Catalog

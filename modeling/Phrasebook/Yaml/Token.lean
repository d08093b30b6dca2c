import Phrasebook.Yaml.Block
import Phrasebook.Yaml.Plain
import Phrasebook.Yaml.Quoted

set_option autoImplicit false

/-!
The tokens of a settings file. The start and the end of a block follow from indents; a key is
recognized only at the colon after it, and its token is put in before what has been read as one.
-/
namespace Phrasebook.Yaml

inductive Token where
  /-- A line that starts with a percent sign; it may name a handle of tags. -/
  | directive (handle : Option (String × String))
  | documentStart
  | documentEnd
  | listStart
  | mapStart
  | blockEnd
  | openList
  | closeList
  | openMap
  | closeMap
  | comma
  | item
  | key
  | value
  | reference (name : String)
  | anchor (name : String)
  | tag (handle : Option String) (rest : String)
  | scalar (text : String) (isPlain : Bool)
  deriving DecidableEq, Repr

/-- The place where a key may have started: how many tokens were before it and where it lies. -/
structure Candidate where
  tokens : Nat
  isRequired : Bool
  index : Nat
  line : Nat
  column : Nat

/-- How far the tokens have been read. -/
structure Layout where
  cursor : Cursor
  /-- How many brackets are open. -/
  depth : Nat
  indent : Int
  outer : List Int
  keyAllowed : Bool
  /-- The places of possible keys, by the number of open brackets. -/
  candidates : List (Nat × Candidate)
  tokens : List Token

namespace Layout

def start (text : List Char) : Layout :=
  let cursor := Cursor.start text
  ⟨if text.head? = some byteOrderMark then cursor.next else cursor, 0, -1, [], true, [], []⟩

def inFlow (layout : Layout) : Bool := layout.depth ≠ 0

def add (layout : Layout) (token : Token) : Layout :=
  { layout with tokens := layout.tokens ++ [token] }

def moved (layout : Layout) (cursor : Cursor) : Layout := { layout with cursor := cursor }

def allowKey (layout : Layout) (allowed : Bool) : Layout := { layout with keyAllowed := allowed }

/-- Spaces, comments and line breaks before a token. -/
def skipGap : Nat → Layout → Layout
  | 0, layout => layout
  | fuel + 1, layout =>
    let cursor := layout.cursor.dropWhile (· = ' ')
    let cursor :=
      if cursor.rest.head? = some '#' then cursor.dropWhile fun c => !isBreak c else cursor
    match cursor.lineBreak? with
    | some (_, cursor) =>
      skipGap fuel { layout with cursor := cursor, keyAllowed := layout.keyAllowed || !layout.inFlow }
    | none => layout.moved cursor

/-- A key cannot go over a line end, nor be too long. -/
def isStale (layout : Layout) (candidate : Candidate) : Bool :=
  candidate.line ≠ layout.cursor.line || 1024 < layout.cursor.index - candidate.index

/-- Gives up the places of keys that are too far back. Fails if a key had to stand at one. -/
def dropStale (layout : Layout) : Option Layout :=
  if layout.candidates.any fun entry => layout.isStale entry.2 && entry.2.isRequired then none
  else some { layout with candidates := layout.candidates.filter fun entry => !layout.isStale entry.2 }

/-- Gives up the place of a key at this depth. -/
def dropCandidate (layout : Layout) : Option Layout :=
  if layout.candidates.any fun entry => entry.1 = layout.depth && entry.2.isRequired then none
  else some { layout with candidates := layout.candidates.filter (·.1 ≠ layout.depth) }

/-- A key may start here. -/
def saveCandidate (layout : Layout) : Option Layout :=
  if layout.keyAllowed then do
    let isRequired := !layout.inFlow && layout.indent = layout.cursor.column
    let layout ← layout.dropCandidate
    let cursor := layout.cursor
    let candidate : Candidate :=
      ⟨layout.tokens.length, isRequired, cursor.index, cursor.line, cursor.column⟩
    some { layout with candidates := layout.candidates ++ [(layout.depth, candidate)] }
  else some layout

/-- Ends the blocks that are indented more than a column. -/
def unwind (column : Int) : Nat → Layout → Layout
  | 0, layout => layout
  | fuel + 1, layout =>
    if layout.inFlow ∨ layout.indent ≤ column then layout
    else
      match layout.outer with
      | outer :: more =>
        unwind column fuel ({ layout with indent := outer, outer := more }.add .blockEnd)
      | [] => layout

def unwindTo (layout : Layout) (column : Int) : Layout :=
  layout.unwind column (layout.outer.length + 1)

/-- Starts a block at a column, unless one is there. -/
def indentTo (layout : Layout) (column : Int) : Bool × Layout :=
  if layout.indent < column then
    (true, { layout with indent := column, outer := layout.indent :: layout.outer })
  else (false, layout)

/-- A token that starts no key and after which none may start in the same line. -/
def documentToken (layout : Layout) (token : Token) (width : Nat) : Option Layout := do
  let layout ← (layout.unwindTo (-1)).dropCandidate
  some (((layout.allowKey false).moved (layout.cursor.skip width)).add token)

def openBracket (layout : Layout) (token : Token) : Option Layout := do
  let layout ← layout.saveCandidate
  some (({ layout with depth := layout.depth + 1, keyAllowed := true }.moved
    layout.cursor.next).add token)

def closeBracket (layout : Layout) (token : Token) : Option Layout := do
  let layout ← layout.dropCandidate
  if layout.depth = 0 then none
  some (({ layout with depth := layout.depth - 1, keyAllowed := false }.moved
    layout.cursor.next).add token)

def commaToken (layout : Layout) : Option Layout := do
  let layout ← (layout.allowKey true).dropCandidate
  some ((layout.moved layout.cursor.next).add .comma)

/-- Starts a block with the given token at the current column, outside of brackets. -/
def startBlock (layout : Layout) (token : Token) : Option Layout :=
  if layout.inFlow then some layout
  else if !layout.keyAllowed then none
  else
    match layout.indentTo layout.cursor.column with
    | (true, layout) => some (layout.add token)
    | (false, layout) => some layout

def itemToken (layout : Layout) : Option Layout := do
  let layout ← layout.startBlock .listStart
  let layout ← (layout.allowKey true).dropCandidate
  some ((layout.moved layout.cursor.next).add .item)

def keyToken (layout : Layout) : Option Layout := do
  let layout ← layout.startBlock .mapStart
  let layout ← (layout.allowKey !layout.inFlow).dropCandidate
  some ((layout.moved layout.cursor.next).add .key)

/-- Puts tokens in after so many. -/
def insert (layout : Layout) (count : Nat) (new : List Token) : Layout :=
  { layout with tokens := layout.tokens.take count ++ new ++ layout.tokens.drop count }

/-- A colon: what lies before it is a key if one may have started there. -/
def valueToken (layout : Layout) : Option Layout := do
  let layout ← match layout.candidates.lookup layout.depth with
    | some candidate =>
      let layout := { layout with
        candidates := layout.candidates.filter (·.1 ≠ layout.depth), keyAllowed := false }
      if layout.inFlow then some (layout.insert candidate.tokens [.key])
      else
        match layout.indentTo candidate.column with
        | (true, layout) => some (layout.insert candidate.tokens [.mapStart, .key])
        | (false, layout) => some (layout.insert candidate.tokens [.key])
    | none => do
      let layout ← layout.startBlock .mapStart
      (layout.allowKey !layout.inFlow).dropCandidate
  some ((layout.moved layout.cursor.next).add .value)

def isNameChar (c : Char) : Bool := c.isAlphanum || c = '-' || c = '_'

/-- The name after a star or an ampersand. -/
def name? (cursor : Cursor) : Option (String × Cursor) :=
  let (name, cursor) := cursor.takeWhile isNameChar
  if name = [] then none
  else if endsToken cursor.rest ∨ cursor.rest.head?.any (fun c => "?:,]\x7d%@`".toList.contains c) then
    some (String.ofList name, cursor)
  else none

def namedToken (layout : Layout) (token : String → Token) : Option Layout := do
  let layout ← layout.saveCandidate
  let (name, cursor) ← name? layout.cursor.next
  some (((layout.allowKey false).moved cursor).add (token name))

def isTagChar (c : Char) : Bool :=
  c.isAlphanum || "-;/?:@&=+$,_.!~*'()[]%".toList.contains c

/-- The part of a tag after its handle. -/
def tagRest? (cursor : Cursor) : Option (String × Cursor) :=
  let (text, cursor) := cursor.takeWhile isTagChar
  if text = [] then none else some (String.ofList text, cursor)

/-- The handle of a tag, from one exclamation mark to the next. -/
def handle? (cursor : Cursor) : Option (String × Cursor) :=
  let (name, cursor) := cursor.next.takeWhile isNameChar
  match cursor.rest with
  | '!' :: _ => some ("!" ++ String.ofList name ++ "!", cursor.next)
  | ' ' :: _ => if name = [] then some ("!", cursor) else none
  | _ => none

def tagToken (layout : Layout) : Option Layout := do
  let layout ← layout.saveCandidate
  let cursor := layout.cursor
  let (handle, rest, cursor) ← match cursor.rest.drop 1 with
    | '<' :: _ => do
      let (rest, cursor) ← tagRest? (cursor.skip 2)
      match cursor.rest with
      | '>' :: _ => some (none, rest, cursor.next)
      | _ => none
    | following =>
      if endsToken following then some (none, "!", cursor.next)
      else if (following.takeWhile fun c => !(c = ' ' || isBreak c)).contains '!' then do
        let (handle, cursor) ← handle? cursor
        let (rest, cursor) ← tagRest? cursor
        some (some handle, rest, cursor)
      else do
        let (rest, cursor) ← tagRest? cursor.next
        some (some "!", rest, cursor)
  if !(endsLine cursor.rest || cursor.rest.head? = some ' ') then none
  some (((layout.allowKey false).moved cursor).add (.tag handle rest))

def quotedToken (layout : Layout) : Option Layout := do
  let layout ← layout.saveCandidate
  let (text, cursor) ← quoted? layout.cursor
  some (((layout.allowKey false).moved cursor).add (.scalar (String.ofList text) false))

def plainToken (layout : Layout) : Option Layout := do
  let layout ← layout.saveCandidate
  let scalar := plain layout.inFlow (layout.indent + 1) layout.cursor
  some (((layout.allowKey scalar.endsLine).moved scalar.cursor).add
    (.scalar (String.ofList scalar.text) true))

def blockToken (layout : Layout) : Option Layout := do
  let layout ← (layout.allowKey true).dropCandidate
  let (text, cursor) ← block? layout.indent layout.cursor
  some ((layout.moved cursor).add (.scalar (String.ofList text) false))

/-- A version of the format: its first number is one. -/
def version? (cursor : Cursor) : Option Cursor :=
  let cursor := cursor.dropWhile (· = ' ')
  let (major, cursor) := cursor.takeWhile Char.isDigit
  match cursor.rest with
  | '.' :: _ =>
    let (minor, cursor) := cursor.next.takeWhile Char.isDigit
    if minor ≠ [] ∧ major.dropWhile (· = '0') = ['1'] ∧
        (endsLine cursor.rest ∨ cursor.rest.head? = some ' ') then some cursor
    else none
  | _ => none

/-- A handle of tags and what it stands for. -/
def tagHandle? (cursor : Cursor) : Option ((String × String) × Cursor) := do
  let cursor := cursor.dropWhile (· = ' ')
  if cursor.rest.head? ≠ some '!' then none
  let (handle, cursor) ← handle? cursor
  if cursor.rest.head? ≠ some ' ' then none
  let (meant, cursor) ← tagRest? (cursor.dropWhile (· = ' '))
  if !(endsLine cursor.rest || cursor.rest.head? = some ' ') then none
  some ((handle, meant), cursor)

def directiveToken (layout : Layout) : Option Layout := do
  let layout ← (layout.unwindTo (-1)).dropCandidate
  let (name, cursor) := layout.cursor.next.takeWhile isNameChar
  if name = [] ∨ !(endsLine cursor.rest || cursor.rest.head? = some ' ') then none
  let (handle, cursor) ←
    if name = "YAML".toList then (version? cursor).map fun cursor => (none, cursor)
    else if name = "TAG".toList then
      (tagHandle? cursor).map fun (handle, cursor) => (some handle, cursor)
    else some (none, cursor.dropWhile fun c => !isBreak c)
  let cursor ← restOfLine? cursor
  some (((layout.allowKey false).moved cursor).add (.directive handle))

/-- Reads the next token that starts with a given character. -/
def token? (layout : Layout) (c : Char) (rest : List Char) : Option Layout :=
  let atStart := layout.cursor.column = 0
  let blankNext := layout.inFlow || endsToken rest
  if c = '%' ∧ atStart then layout.directiveToken
  else if c = '-' ∧ atStart ∧ layout.cursor.atDocumentMark then layout.documentToken .documentStart 3
  else if c = '.' ∧ atStart ∧ layout.cursor.atDocumentMark then layout.documentToken .documentEnd 3
  else if c = '[' then layout.openBracket .openList
  else if c = '{' then layout.openBracket .openMap
  else if c = ']' then layout.closeBracket .closeList
  else if c = '}' then layout.closeBracket .closeMap
  else if c = ',' then layout.commaToken
  else if c = '-' ∧ endsToken rest then layout.itemToken
  else if c = '?' ∧ blankNext then layout.keyToken
  else if c = ':' ∧ blankNext then layout.valueToken
  else if c = '*' then layout.namedToken .reference
  else if c = '&' then layout.namedToken .anchor
  else if c = '!' then layout.tagToken
  else if (c = '|' ∨ c = '>') ∧ !layout.inFlow then layout.blockToken
  else if c = '\'' ∨ c = '"' then layout.quotedToken
  else if startsPlain layout.inFlow (c :: rest) then layout.plainToken
  else none

/-- All tokens from here on. -/
def finish : Nat → Layout → Option (List Token)
  | 0, _ => none
  | fuel + 1, layout => do
    let layout ← (layout.skipGap (layout.cursor.rest.length + 1)).dropStale
    let layout := layout.unwindTo layout.cursor.column
    match layout.cursor.rest with
    | [] => do
      let layout ← ({ layout with depth := 0 }.unwindTo (-1)).dropCandidate
      some layout.tokens
    | c :: rest => do finish fuel (← layout.token? c rest)

end Layout

/-- The tokens of a text. -/
def tokens? (text : List Char) : Option (List Token) :=
  if text.all isAllowed then (Layout.start text).finish (text.length + 2) else none

end Phrasebook.Yaml

import Phrasebook.Text.Split

set_option autoImplicit false

/-!
Filling lines with text. A text is cut into chunks at blanks and around dashes between words, and
each line takes as many chunks as fit. A name between isolating marks is one chunk, whatever blanks
it has, and a chunk that is wider than a line has a line of its own.
-/
namespace Phrasebook.Text

/-- Starts a name that holds blanks. -/
def isolateStart : Char := '\u2068'

/-- Ends a name that holds blanks. -/
def isolateEnd : Char := '\u2069'

def tabWidth : Nat := 8

/-- Every tab becomes spaces up to the next tab stop. -/
def expandTabs (column : Nat) : List Char → List Char
  | [] => []
  | c :: rest =>
    if c = '\t' then
      let width := tabWidth - column % tabWidth
      List.replicate width ' ' ++ expandTabs (column + width) rest
    else if c = '\n' ∨ c = '\r' then c :: expandTabs 0 rest
    else c :: expandTabs (column + 1) rest

/-- A text with its tabs expanded and every other blank of the ASCII range turned into a space. -/
def spaced (text : List Char) : List Char :=
  (expandTabs 0 text).map fun c => if isAsciiBlank c then ' ' else c

/-- A dash may follow this character. -/
def precedesDash (c : Char) : Bool := isWord c || "!\"'&.,?".toList.contains c

/-- The length of the dash between words that comes next: two hyphens at least. -/
def dashLength (previous : Option Char) (text : List Char) : Nat :=
  let run := (text.takeWhile (· = '-')).length
  if 2 ≤ run ∧ previous.any precedesDash ∧ (text.drop run).head?.any isWord then run else 0

/-- What comes next up to a blank or a dash. -/
def chunkRun (previous : Option Char) : List Char → List Char
  | [] => []
  | c :: rest =>
    if isBlank c ∨ dashLength previous (c :: rest) ≠ 0 then []
    else c :: chunkRun (some c) rest

/-- The chunks of a text: runs of blanks, dashes, and what lies between. -/
def plainChunks : Nat → Option Char → List Char → List (List Char)
  | 0, _, _ => []
  | _ + 1, _, [] => []
  | fuel + 1, previous, c :: rest =>
    let text := c :: rest
    let size :=
      if isBlank c then (text.takeWhile isBlank).length
      else max (dashLength previous text) (chunkRun previous text).length
    let chunk := text.take size
    chunk :: plainChunks fuel chunk.getLast? (text.drop size)

/-- A number after a name: a colon, a sign at most, and digits. -/
def numberSuffix (text : List Char) : List Char :=
  let (sign, rest) := match text with
    | ':' :: '-' :: rest => ([':', '-'], rest)
    | ':' :: rest => ([':'], rest)
    | _ => ([], [])
  let digits := rest.takeWhile fun c => (decimalValue? c).isSome
  if digits = [] then [] else sign ++ digits

/-- The rest of a name between isolating marks, with its end mark. -/
def isolatedRest? : List Char → Option (List Char)
  | [] => none
  | c :: rest =>
    if c = isolateEnd then some [c]
    else if c = isolateStart then none
    else (isolatedRest? rest).map (c :: ·)

/-- A name between isolating marks that comes next, with a number after it. -/
def isolated? : List Char → Option (List Char)
  | start :: first :: rest =>
    if start = isolateStart ∧ first ≠ isolateStart then
      (isolatedRest? rest).map fun name =>
        start :: first :: name ++ numberSuffix (rest.drop name.length)
    else none
  | _ => none

/-- The chunks of the text between two names. If a mark starts it that no other one ends, it is one
chunk. -/
def chunksBetween (text : List Char) : List (List Char) :=
  if text.head? = some isolateStart then [text] else plainChunks (text.length + 1) none text

/-- The chunks of a text in which names between isolating marks stay whole. `before` is the text
since the last such name, reversed. -/
def chunksFrom : Nat → List Char → List Char → List (List Char)
  | 0, _, _ => []
  | fuel + 1, before, text =>
    let plain := chunksBetween before.reverse
    match text, isolated? text with
    | [], _ => plain
    | _, some name => plain ++ name :: chunksFrom fuel [] (text.drop name.length)
    | c :: rest, none => chunksFrom fuel (c :: before) rest

def chunks (text : List Char) : List (List Char) := chunksFrom (text.length + 1) [] text

def isBlankChunk (chunk : List Char) : Bool := chunk.all isBlank

/-- The chunks that fit into a width, and the others. -/
def fitting (width : Nat) : List (List Char) → List (List Char) × List (List Char)
  | [] => ([], [])
  | chunk :: rest =>
    if chunk.length ≤ width then
      let (taken, left) := fitting (width - chunk.length) rest
      (chunk :: taken, left)
    else ([], chunk :: rest)

/-- Removes a blank chunk at the end. -/
def dropLastBlank (line : List (List Char)) : List (List Char) :=
  if line.getLast?.any isBlankChunk then line.dropLast else line

/-- Lines of chunks. A line after the first does not start with blanks, and none ends with them. -/
def filled (width : Nat) : Nat → Bool → List (List Char) → List (List Char)
  | 0, _, _ => []
  | _ + 1, _, [] => []
  | fuel + 1, isFirst, chunk :: rest =>
    let chunks := if !isFirst && isBlankChunk chunk then rest else chunk :: rest
    let (taken, left) := match fitting width chunks with
      | ([], wide :: left) => ([wide], left)
      | fit => fit
    let line := dropLastBlank taken
    if line = [] then filled width fuel isFirst left
    else line.flatten :: filled width fuel false left

/-- The lines into which a text is filled. -/
def wrap (width : Nat) (text : List Char) : List (List Char) :=
  let all := chunks (spaced text)
  filled width (all.length + 1) true all

end Phrasebook.Text

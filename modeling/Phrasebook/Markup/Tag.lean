import Phrasebook.Markup.Blanking
import Phrasebook.Markup.Brace
import Phrasebook.Script.Grammar

set_option autoImplicit false

/-!
The names of tags and attributes, and the dialect that a component's scripts are written in.
-/
namespace Phrasebook.Markup

/-- A character that the name of a tag can hold after its first letter. -/
def isTagNamePart (c : Char) : Bool := Text.isWord c || c = '.' || c = ':' || c = '-'

/-- The name of a tag, which starts with a letter. -/
def tagName? (text : List Char) : Option (List Char × List Char) :=
  match text with
  | c :: rest =>
    if Text.isAsciiLetter c then
      some (c :: rest.takeWhile isTagNamePart, rest.dropWhile isTagNamePart)
    else none
  | [] => none

/-- A character that the name of an attribute can hold. -/
def isAttributeNamePart (c : Char) : Bool :=
  !(Text.isBlank c || "=/>\"'\x7b\x7d".toList.contains c)

/-- Elements that have no content and no closing tag. -/
def voidElements : List String := [
    "area", "base", "br", "col", "embed", "hr", "img", "input", "link", "meta", "param", "source",
    "track", "wbr", "!doctype"]

def isVoid (name : String) : Bool := voidElements.contains (Text.lower name)

/-- A tag whose content is a script. -/
def isScript (name : String) : Bool := Text.lower name = "script"

/-- A component is named by a capital letter or by a path with dots. -/
def isComponent (name : String) : Bool :=
  (name.toList.take 1).any Char.isUpper || name.toList.contains '.'

/-- The value of a language attribute names the typed dialect. -/
def namesTyped (text : List Char) : Bool :=
  ["ts", "typescript"].any fun name =>
    match dropFolded name.toList text with
    | some after => Text.endsWord after
    | none => false

/-- The attribute for the language at the start of a text names the typed dialect. -/
def setsTyped (text : List Char) : Bool :=
  match dropFolded "lang".toList text with
  | none => false
  | some after =>
    match after.dropWhile Text.isBlank with
    | '=' :: value =>
      let value := value.dropWhile Text.isBlank
      namesTyped value ||
        match value with
        | c :: quoted => isQuote c && namesTyped quoted
        | [] => false
    | _ => false

/-- Whether an attribute in the rest of a tag names the typed dialect; `inWord` tells that a
letter stands in front. -/
def tagSetsTyped : Bool → List Char → Bool
  | _, [] => false
  | inWord, c :: rest =>
    (!inWord && setsTyped (c :: rest)) || (c ≠ '>' && tagSetsTyped (Text.isWord c) rest)

/-- Whether some script tag names the typed dialect. -/
def hasTypedScript : List Char → Bool
  | [] => false
  | c :: rest =>
    (match dropFolded "<script".toList (c :: rest) with
      | some after => Text.endsWord after && tagSetsTyped true after
      | none => false) || hasTypedScript rest

/-- The dialect of all scripts and expressions of a component. -/
def dialect (source : List Char) : Script.Dialect :=
  if hasTypedScript source then .typescript else .javascript

end Phrasebook.Markup

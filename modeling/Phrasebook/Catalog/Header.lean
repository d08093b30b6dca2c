import Phrasebook.Locale.Name
import Phrasebook.Moment
import Phrasebook.Number.Read
import Phrasebook.Text.Utf8

set_option autoImplicit false

/-!
How many forms a plural has in a locale, and the header of a catalog: fields that name the locale, the
number of plural forms and the encoding of what follows.
-/
namespace Phrasebook.Catalog

/-! ### Languages -/

/-- A catalog can have any name that is spelled as the name of a locale. -/
def isLocaleName (name : String) : Bool := (Locale.Name.read? name).isSome

/-- How many forms a plural has, where they are not two. -/
def formCounts : List (Nat × List String) := [
    (1, ["bo", "cv", "dz", "fa", "hu", "hy", "ja", "ka", "km", "ko", "lo", "th", "tr", "vi", "zh"]),
    (3, ["be", "bs", "cs", "hr", "lt", "lv", "pl", "ro", "ru", "sk", "sr", "uk"]),
    (4, ["mt", "sl"]), (5, ["cy", "ga"]), (6, ["ar", "br"])]

/-- How many forms a plural has in a locale; two if it is not known. -/
def formCount (name : String) : Nat :=
  match (Locale.Name.read? name).bind Locale.Name.known? with
  | some known =>
    ((formCounts.find? fun entry => entry.2.contains known.language).map (·.1)).getD 2
  | none => 2

/-! ### Encodings -/

/-- An encoding other than UTF-8. A character that it has no bytes for is written by its number. -/
structure Codec where
  decode : List UInt8 → Except Text.DecodeError (List Char)
  encode : List Char → List UInt8

/-- An encoding with one byte for each code point below a limit. -/
def Codec.below (limit : Nat) : Codec where
  decode bytes :=
    match bytes.findIdx? (limit ≤ ·.toNat) with
    | some i => .error ⟨.invalidStart, i, bytes.getD i 0, 1⟩
    | none => .ok (bytes.map fun b => Char.ofNat b.toNat)
  encode text := text.flatMap fun c =>
    if c.toNat < limit then [UInt8.ofNat c.toNat] else Text.encode (Text.numberEscape c.toNat)

/-- The encodings besides UTF-8, by their names in small letters. -/
class Codecs where
  named? : String → Option Codec

def asciiNames : List String := ["ascii", "us-ascii"]

def latin1Names : List String := ["latin-1", "latin1", "iso-8859-1", "iso8859-1"]

/-- The encodings that the program has. -/
instance knownCodecs : Codecs where
  named? name :=
    if asciiNames.contains name then some (.below 128)
    else if latin1Names.contains name then some (.below 256)
    else none

def utf8Names : List String := ["utf-8", "utf8", "utf_8"]

/-- An encoding with the name that a header has for it. -/
inductive Charset where
  | utf8 (name : String) (known : name ∈ utf8Names)
  | other (name : String) (codec : Codec)

namespace Charset

/-- The encoding of a catalog whose header names none. -/
def standard : Charset := .utf8 "utf-8" (by decide)

def isUtf8 : Charset → Bool
  | utf8 .. => true
  | other .. => false

/-- The encoding with a name. -/
def ofName? [Codecs] (name : String) : Option Charset :=
  if known : name ∈ utf8Names then some (.utf8 name known)
  else (Codecs.named? name).map (other name)

def name : Charset → String
  | utf8 name _ => name
  | other name _ => name

/-- The text of bytes in an encoding. -/
def decode (charset : Charset) (bytes : List UInt8) : Except Text.DecodeError (List Char) :=
  match charset with
  | utf8 .. => Text.decode bytes
  | other _ codec => codec.decode bytes

def encode (charset : Charset) (text : List Char) : List UInt8 :=
  match charset with
  | utf8 .. => Text.encode text
  | other _ codec => codec.encode text

end Charset

/-! ### Headers -/

/-- What the header of a catalog says. Without a number of forms the locale gives it. -/
structure Header where
  locale : String
  forms : Option Nat
  charset : Charset

/-- Why a header cannot be used. -/
inductive HeaderFault where
  /-- A locale, a number or a date is spelled wrong. -/
  | badValue
  | unknownCharset
  deriving DecidableEq, Repr

namespace Header

def ofLocale (locale : String) : Header := ⟨locale, none, .standard⟩

/-- How many forms a plural has. -/
def formCount (header : Header) : Nat := header.forms.getD (Catalog.formCount header.locale)

/-- A character of the name of a field. -/
def isNameChar (c : Char) : Bool := '!' ≤ c && c ≤ '~' && c ≠ ':'

/-- The name and the value of a field in one line. -/
def field? (line : List Char) : Option (List Char × List Char) :=
  match Text.cutFirst ':' line with
  | (name, some value) =>
    if name ≠ [] ∧ name.all isNameChar then
      some (name.map Char.toLower, value.dropWhile fun c => c = ' ' || c = '\t')
    else none
  | _ => none

/-- The fields at the start of a text, up to the first line that is none. -/
def fieldsOf : List (List Char) → List (List Char × List Char)
  | [] => []
  | line :: rest =>
    match field? line with
    | some field => field :: fieldsOf rest
    | none => []

/-- The parameters of a value: names with values, between semicolons. -/
def parameters (value : List Char) : List (List Char × List Char) :=
  (Text.pieces ';' value).map fun part =>
    match Text.cutFirst '=' part with
    | (name, some meant) =>
      ((Text.stripped name).map Char.toLower, Text.trimmed (· = '"') (Text.stripped meant))
    | (name, none) => ((Text.stripped name).map Char.toLower, [])

def parameter? (name : String) (value : List Char) : Option (List Char) :=
  (parameters value).lookup name.toList

/-- One digit or two, as a number within bounds, and what follows. -/
def shortNumber? (least most : Nat) (text : List Char) : Option (Nat × List Char) :=
  let digits := (text.takeWhile Char.isDigit).take 2
  let n := Number.ofDigits digits
  if digits ≠ [] ∧ least ≤ n ∧ n ≤ most then some (n, text.drop digits.length) else none

/-- A date with a time of the day, and an offset at most. -/
def isDate (value : List Char) : Bool :=
  let offset := value.drop (value.length - 5)
  let value :=
    match offset with
    | sign :: digits =>
      if value.length ≥ 5 && (sign = '+' || sign = '-') && digits.all Char.isDigit then
        value.take (value.length - 5)
      else value
    | [] => value
  let year := value.take 4
  (do
    if year.length ≠ 4 ∨ !year.all Char.isDigit then none
    let rest ← Text.dropStart ['-'] (value.drop 4)
    let (month, rest) ← shortNumber? 1 12 rest
    let rest ← Text.dropStart ['-'] rest
    let (day, rest) ← shortNumber? 1 31 rest
    if !rest.head?.any Text.isBlank then none
    let (_, rest) ← shortNumber? 0 23 (rest.dropWhile Text.isBlank)
    let rest ← Text.dropStart [':'] rest
    let (_, rest) ← shortNumber? 0 59 rest
    if rest = [] ∧ (⟨Number.ofDigits year, month, day, none⟩ : Moment).isValid then some ()
    else none).isSome

/-- Sets what one field says. -/
def withField [Codecs] (header : Header) (name : String) (value : List Char) :
    Except HeaderFault Header :=
  if name = "language" then
    let locale := String.ofList (value.map fun c => if c = '-' then '_' else c)
    if isLocaleName locale then .ok { header with locale := locale } else .error .badValue
  else if name = "content-type" then
    match parameter? "charset" value with
    | none => .ok header
    | some charset =>
      match Charset.ofName? (String.ofList (charset.map Char.toLower)) with
      | some charset => .ok { header with charset := charset }
      | none => .error .unknownCharset
  else if name = "plural-forms" then
    match parameter? "nplurals" value with
    | none => .ok { header with forms := some 2 }
    | some count =>
      match Number.readInt? count with
      | some n => .ok { header with forms := some n.toNat }
      | none => .error .badValue
  else if name = "pot-creation-date" then
    if isDate value then .ok header else .error .badValue
  else if name = "po-revision-date" then
    if Text.occurs "YEAR".toList value || isDate value then .ok header else .error .badValue
  else .ok header

/-- What the text of a header says. -/
def read [Codecs] (header : Header) (text : String) : Except HeaderFault Header :=
  (fieldsOf (Text.pieces '\n' text.toList)).foldlM
    (fun header (name, value) => header.withField (String.ofList name) value) header

/-- The text of a header. -/
def text (header : Header) : String :=
  "Language: " ++ header.locale ++ "\n" ++
    "Plural-Forms: nplurals=" ++ toString header.formCount ++ ";\n" ++
    "Content-Type: text/plain; charset=" ++ header.charset.name ++ "\n"

end Header

end Phrasebook.Catalog

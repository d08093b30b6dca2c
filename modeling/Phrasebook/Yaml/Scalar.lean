import Phrasebook.Data
import Phrasebook.Number.Read
import Phrasebook.Text.Split

set_option autoImplicit false

/-!
What a plain scalar stands for, by its spelling: a truth value, a number, a moment, nothing, or
itself. Whole numbers may be written to base two, eight, ten, sixteen or sixty.
-/
namespace Phrasebook.Yaml

open Number (Double)

/-- What a spelling is taken for. -/
inductive Spelling where
  | text
  | bool
  | int
  | float
  | null
  | moment
  /-- Stands for the entries of other mappings. -/
  | merge
  /-- Stands for the default value of a mapping. -/
  | default
  deriving DecidableEq, Repr

def trueWords : List String := ["yes", "Yes", "YES", "true", "True", "TRUE", "on", "On", "ON"]

def falseWords : List String := ["no", "No", "NO", "false", "False", "FALSE", "off", "Off", "OFF"]

def nullWords : List String := ["", "~", "null", "Null", "NULL"]

def infinityWords : List String := [".inf", ".Inf", ".INF"]

def nanWords : List String := [".nan", ".NaN", ".NAN"]

def isSign (c : Char) : Bool := c = '+' || c = '-'

/-- A text without its sign, if it has one. -/
def unsigned : List Char → List Char
  | c :: rest => if isSign c then rest else c :: rest
  | [] => []

def isDigitOrLine (c : Char) : Bool := c.isDigit || c = '_'

/-- One digit at least, then digits and underscores. -/
def isSpacedNumber : List Char → Bool
  | c :: rest => c.isDigit && rest.all isDigitOrLine
  | [] => false

/-- A part after a colon: one digit, or two digits below sixty. -/
def isSixtieth : List Char → Bool
  | [a] => a.isDigit
  | [a, b] => '0' ≤ a && a ≤ '5' && b.isDigit
  | _ => false

def isIntSpelling (text : List Char) : Bool :=
  match unsigned text with
  | ['0'] => true
  | '0' :: 'b' :: digits => digits ≠ [] && digits.all fun c => c = '0' || c = '1' || c = '_'
  | '0' :: 'x' :: digits =>
    digits ≠ [] && digits.all fun c => (Text.hexValue? c).isSome || c = '_'
  | '0' :: digits => digits ≠ [] && digits.all fun c => ('0' ≤ c && c ≤ '7') || c = '_'
  | digits =>
    match Text.pieces ':' digits with
    | first :: rest => isSpacedNumber first && first.head? ≠ some '0' && rest.all isSixtieth
    | [] => false

/-- Nothing, or a mark, a sign and digits. -/
def isSignedPower : List Char → Bool
  | [] => true
  | mark :: sign :: digits =>
    (mark = 'e' || mark = 'E') && isSign sign && digits ≠ [] && digits.all Char.isDigit
  | _ => false

def isPlainFloat (text : List Char) : Bool :=
  match Text.cutFirst '.' text with
  | (whole, some rest) =>
    if whole = [] then false
    else isSpacedNumber whole && isSignedPower (rest.dropWhile isDigitOrLine)
  | _ => false

/-- A point, one digit at least, and a signed power at most. -/
def isLeadingPointFloat : List Char → Bool
  | '.' :: c :: rest => c.isDigit && isSignedPower (rest.dropWhile isDigitOrLine)
  | _ => false

/-- Parts to base sixty of which the last has a point. -/
def isSixtyFloat (text : List Char) : Bool :=
  match Text.cutFirst '.' text with
  | (whole, some rest) =>
    match Text.pieces ':' whole with
    | first :: second :: more =>
      isSpacedNumber first && (second :: more).all isSixtieth && rest.all isDigitOrLine
    | _ => false
  | _ => false

def isFloatSpelling (text : List Char) : Bool :=
  isPlainFloat (unsigned text) || isLeadingPointFloat text || isSixtyFloat (unsigned text) ||
    infinityWords.contains (String.ofList (unsigned text)) ||
    nanWords.contains (String.ofList text)

/-- A run of digits of a length within bounds, as a number, and what follows. -/
def takeDigits? (least most : Nat) (text : List Char) : Option (Nat × List Char) :=
  let digits := (text.takeWhile Char.isDigit).take most
  if digits.length < least then none
  else some (Number.ofDigits digits, text.drop digits.length)

def expect? (c : Char) : List Char → Option (List Char)
  | d :: rest => if c = d then some rest else none
  | [] => none

/-- The offset at the end of a moment, in minutes. -/
def offset? (text : List Char) : Option (Option Int) :=
  match text.dropWhile fun c => c = ' ' || c = '\t' with
  | [] => if text = [] then some none else none
  | ['Z'] => some (some 0)
  | sign :: rest => do
    if !isSign sign then none
    let (hours, rest) ← takeDigits? 1 2 rest
    let (minutes, rest) ← match rest with
      | ':' :: rest => takeDigits? 2 2 rest
      | rest => some (0, rest)
    if rest ≠ [] then none
    let total : Int := hours * 60 + minutes
    some (some (if sign = '-' then -total else total))

/-- A fraction of a second, in millionths. -/
def microseconds (digits : List Char) : Nat :=
  let six := digits.take 6
  Number.ofDigits (six ++ List.replicate (6 - six.length) '0')

/-- The moment that a text writes. It need not exist. -/
def moment? (text : List Char) : Option Moment := do
  let (year, rest) ← takeDigits? 4 4 text
  let rest ← expect? '-' rest
  let (month, afterMonth) ← takeDigits? 1 2 rest
  let rest ← expect? '-' afterMonth
  let (day, afterDay) ← takeDigits? 1 2 rest
  if afterDay = [] then
    if text.length = 10 then some ⟨year, month, day, none⟩ else none
  else
    let rest ← match afterDay with
      | c :: rest =>
        if c = 'T' ∨ c = 't' then some rest
        else if c = ' ' ∨ c = '\t' then some (rest.dropWhile fun c => c = ' ' || c = '\t')
        else none
      | [] => none
    let (hour, rest) ← takeDigits? 1 2 rest
    let rest ← expect? ':' rest
    let (minute, rest) ← takeDigits? 2 2 rest
    let rest ← expect? ':' rest
    let (second, rest) ← takeDigits? 2 2 rest
    let (fraction, rest) := match rest with
      | '.' :: rest => (rest.takeWhile Char.isDigit, rest.dropWhile Char.isDigit)
      | rest => ([], rest)
    let zone ← offset? rest
    some ⟨year, month, day, some ⟨hour, minute, second, microseconds fraction, zone⟩⟩

/-- What a plain scalar is taken for. -/
def sortOf (text : String) : Spelling :=
  let chars := text.toList
  if trueWords.contains text || falseWords.contains text then .bool
  else if isFloatSpelling chars then .float
  else if isIntSpelling chars then .int
  else if text = "<<" then .merge
  else if nullWords.contains text then .null
  else if (moment? chars).isSome then .moment
  else if text = "=" then .default
  else .text

/-- The number that digits write to a base; none without digits. -/
def ofBase? (base : Nat) (digits : List Char) : Option Nat :=
  if digits = [] ∨ !digits.all (fun c => ((Text.hexValue? c).any (· < base))) then none
  else some (digits.foldl (fun n c => base * n + (Text.hexValue? c).getD 0) 0)

/-- A whole number to base ten that is not too long to be read. -/
def ofTen? (digits : List Char) : Option Nat :=
  if digits.length ≤ Number.digitLimit then ofBase? 10 digits else none

/-- The whole number that a text writes. -/
def readInt? (text : List Char) : Option Int := do
  let plain := text.filter (· ≠ '_')
  let digits := unsigned plain
  let n ← match digits with
    | ['0'] => some 0
    | '0' :: 'b' :: digits => ofBase? 2 digits
    | '0' :: 'x' :: digits => ofBase? 16 digits
    | '0' :: digits => ofBase? 8 digits
    | digits =>
      match Text.pieces ':' digits with
      | [digits] => ofTen? digits
      | parts => do
        let numbers ← parts.mapM ofTen?
        some (numbers.foldl (fun n part => 60 * n + part) 0)
  some (Number.Decimal.signed (plain.head? = some '-') n)

/-- The double that a text writes. -/
def readFloat? (text : List Char) : Option Double := do
  let plain := (text.filter (· ≠ '_')).map Char.toLower
  let negative := plain.head? = some '-'
  let digits := unsigned plain
  if digits = ".inf".toList then some (.infinity negative)
  else if digits = ".nan".toList then some .nan
  else
    match Text.pieces ':' digits with
    | [digits] => do
      match ← Double.read? digits with
      | .finite _ m e => some (.finite negative m e)
      | d => some d
    | parts => do
      let doubles ← parts.mapM fun part => Double.read? part
      let total ← doubles.foldlM (fun (n, d) part =>
        match part with
        | .finite _ m e =>
          let (n', d') := Double.fraction m e
          some (60 * n * d' + n' * d, d * d')
        | _ => none) (0, 1)
      some (Double.ofQuotient negative total.1 total.2)

end Phrasebook.Yaml

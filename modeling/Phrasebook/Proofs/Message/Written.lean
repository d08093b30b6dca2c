import Phrasebook.Message.Parse

set_option autoImplicit false

/-!
The text that is written for a pattern. A literal is quoted from its first special character on,
apostrophes stand twice, and an offset is always given.
-/
namespace Phrasebook.Message

def doubled : List Char → List Char
  | [] => []
  | c :: rest => if c = '\'' then '\'' :: '\'' :: doubled rest else c :: doubled rest

/-- The beginning of a literal that needs no quotation. -/
def unquoted (inPlural : Bool) (text : List Char) : List Char :=
  text.takeWhile (!isSpecial inPlural ·)

/-- The rest of a literal, from its first special character on. -/
def quoted (inPlural : Bool) (text : List Char) : List Char :=
  text.dropWhile (!isSpecial inPlural ·)

def writtenQuotation : List Char → List Char
  | [] => []
  | c :: rest => '\'' :: doubled (c :: rest) ++ ['\'']

def writtenLiteral (inPlural : Bool) (text : List Char) : List Char :=
  doubled (unquoted inPlural text) ++ writtenQuotation (quoted inPlural text)

/-- What stands between the name of a choice and its options. -/
def writtenKind (offset : Nat) (ordinal : Bool) : List Char :=
  if ordinal then ", selectordinal,".toList
  else ", plural, offset:".toList ++ Number.digits offset

/-- The text of an argument with a name and what follows the name. -/
def braced (name : String) (inner : List Char) : List Char :=
  '{' :: (name.toList ++ (inner ++ ['}']))

mutual

def Part.written (inPlural : Bool) : Part → List Char
  | .literal text => writtenLiteral inPlural text.toList
  | .pound => ['#']
  | .argument name _ => braced name []
  | .plural name _ options offset ordinal =>
    braced name (writtenKind offset ordinal ++ writtenOptions true options)
  | .select name _ options =>
    braced name (", select,".toList ++ writtenOptions inPlural options)

def Pattern.written (inPlural : Bool) : List Part → List Char
  | [] => []
  | part :: rest => part.written inPlural ++ Pattern.written inPlural rest

def writtenOptions (inPlural : Bool) : List (String × List Part) → List Char
  | [] => []
  | (selector, body) :: rest =>
    ' ' :: (selector.toList ++
      (' ' :: '{' :: (Pattern.written inPlural body ++ '}' :: writtenOptions inPlural rest)))

end

mutual

/-- A part whose arguments have the texts that are written for them as their sources. -/
def Part.sourced (inPlural : Bool) : Part → Part
  | .literal text => .literal text
  | .pound => .pound
  | .argument name source =>
    .argument name (String.ofList (Part.written inPlural (.argument name source)))
  | .plural name source options offset ordinal =>
    .plural name
      (String.ofList (Part.written inPlural (.plural name source options offset ordinal)))
      (sourcedOptions true options) offset ordinal
  | .select name source options =>
    .select name (String.ofList (Part.written inPlural (.select name source options)))
      (sourcedOptions inPlural options)

def Pattern.sourced (inPlural : Bool) : List Part → List Part
  | [] => []
  | part :: rest => part.sourced inPlural :: Pattern.sourced inPlural rest

def sourcedOptions (inPlural : Bool) :
    List (String × List Part) → List (String × List Part)
  | [] => []
  | (selector, body) :: rest =>
    (selector, Pattern.sourced inPlural body) :: sourcedOptions inPlural rest

end

/-- Names and selectors that are read as they are written. -/
def isName (name : String) : Bool :=
  match name.toList with
  | [] => false
  | c :: rest => !Text.isBlank c && (c :: rest).all (!endsName ·)

def startsWithLiteral : List Part → Bool
  | .literal _ :: _ => true
  | _ => false

mutual

/-- A part that some text is read as: pounds stand inside plural choices only, literals and lists
of options are not empty, and an ordinal choice has no offset. -/
def Part.isNormal (inPlural : Bool) : Part → Bool
  | .literal text => !text.toList.isEmpty
  | .pound => inPlural
  | .argument name _ => isName name
  | .plural name _ options offset ordinal =>
    isName name && (!ordinal || offset == 0) && !options.isEmpty && normalOptions true options
  | .select name _ options => isName name && !options.isEmpty && normalOptions inPlural options

/-- Normal parts with no literal next to another one. -/
def Pattern.isNormal (inPlural : Bool) : List Part → Bool
  | [] => true
  | part :: rest =>
    part.isNormal inPlural && !(startsWithLiteral [part] && startsWithLiteral rest) &&
      Pattern.isNormal inPlural rest

def normalOptions (inPlural : Bool) : List (String × List Part) → Bool
  | [] => true
  | (selector, body) :: rest =>
    isName selector && Pattern.isNormal inPlural body && normalOptions inPlural rest

end

/-- An offset with no more digits than a whole number may have. -/
def fitsOffset (offset : Nat) : Bool := Number.digitCount offset ≤ Number.digitLimit

mutual

/-- Whether each offset in a part is short enough to be read. -/
def Part.fits : Part → Bool
  | .literal _ | .pound | .argument _ _ => true
  | .plural _ _ options offset _ => fitsOffset offset && fittingOptions options
  | .select _ _ options => fittingOptions options

def Pattern.fits : List Part → Bool
  | [] => true
  | part :: rest => part.fits && Pattern.fits rest

def fittingOptions : List (String × List Part) → Bool
  | [] => true
  | (_, body) :: rest => Pattern.fits body && fittingOptions rest

end

/-- The text of a pattern as a whole message. -/
def printed (pattern : Pattern) : String := String.ofList (Pattern.written false pattern)

end Phrasebook.Message

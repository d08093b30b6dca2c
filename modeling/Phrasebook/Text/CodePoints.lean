set_option autoImplicit false

/-!
Text as a sequence of code points, in which a surrogate may stand alone. Escapes can denote such
text although no source file can hold it.
-/
namespace Phrasebook.Text

def isHighSurrogate (code : Nat) : Bool := 0xD800 ≤ code && code ≤ 0xDBFF

def isLowSurrogate (code : Nat) : Bool := 0xDC00 ≤ code && code ≤ 0xDFFF

def isSurrogate (code : Nat) : Bool := 0xD800 ≤ code && code ≤ 0xDFFF

/-- Text in which surrogates may stand alone. -/
abbrev CodePoints := List Nat

namespace CodePoints

def ofChars (chars : List Char) : CodePoints := chars.map Char.toNat

def ofString (text : String) : CodePoints := ofChars text.toList

/-- The characters of a text in which no surrogate stands alone. -/
def toChars? (text : CodePoints) : Option (List Char) :=
  if text.any isSurrogate then none else some (text.map Char.ofNat)

def toString? (text : CodePoints) : Option String := text.toChars?.map String.ofList

/-- Joins each high surrogate to the low one after it; fails if a surrogate is left alone. -/
def joinPairs : CodePoints → Option CodePoints
  | [] => some []
  | high :: low :: rest =>
    if isHighSurrogate high && isLowSurrogate low then
      (joinPairs rest).map ((0x10000 + (high - 0xD800) * 0x400 + (low - 0xDC00)) :: ·)
    else if isSurrogate high then none
    else (joinPairs (low :: rest)).map (high :: ·)
  | [code] => if isSurrogate code then none else some [code]

/-- Order by code point, first difference first. -/
def before : CodePoints → CodePoints → Bool
  | [], [] => false
  | [], _ :: _ => true
  | _ :: _, [] => false
  | a :: as, b :: bs => if a = b then before as bs else a < b

end CodePoints

end Phrasebook.Text

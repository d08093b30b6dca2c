import Phrasebook.Text.CodePoints
import Phrasebook.Text.Quoted

set_option autoImplicit false

/-!
Text and the bytes of its encoding. In reading, the first byte that cannot stand where it stands
ends the reading; in writing, a surrogate that stands alone has no bytes.
-/
namespace Phrasebook.Text

/-! ### Reading -/

inductive DecodeFault where
  | invalidStart
  | invalidContinuation
  | unexpectedEnd
  deriving DecidableEq, Repr

def DecodeFault.text : DecodeFault → String
  | invalidStart => "invalid start byte"
  | invalidContinuation => "invalid continuation byte"
  | unexpectedEnd => "unexpected end of data"

/-- Bytes that form no character: where they start, the first of them and how many they are. -/
structure DecodeError where
  fault : DecodeFault
  position : Nat
  first : UInt8
  length : Nat
  deriving DecidableEq, Repr

def DecodeError.text (error : DecodeError) : String :=
  let what :=
    if error.length = 1 then
      " byte 0x" ++ String.ofList (hexDigits 2 error.first.toNat) ++ " in position " ++
        toString error.position
    else
      " bytes in position " ++ toString error.position ++ "-" ++
        toString (error.position + error.length - 1)
  "'utf-8' codec can't decode" ++ what ++ ": " ++ error.fault.text

/-- A character of which some bytes were read: the value so far, how many bytes are owed, and
between which values the next one is. -/
structure Pending where
  first : UInt8
  taken : Nat
  value : Nat
  owed : Nat
  low : Nat
  high : Nat

/-- What the first byte of a character of several bytes owes. -/
def pending? (byte : UInt8) : Option Pending :=
  let b := byte.toNat
  if b < 0xC2 then none
  else if b < 0xE0 then some ⟨byte, 1, b - 0xC0, 1, 0x80, 0xBF⟩
  else if b < 0xF0 then
    some ⟨byte, 1, b - 0xE0, 2, if b = 0xE0 then 0xA0 else 0x80, if b = 0xED then 0x9F else 0xBF⟩
  else if b < 0xF5 then
    some ⟨byte, 1, b - 0xF0, 3, if b = 0xF0 then 0x90 else 0x80, if b = 0xF4 then 0x8F else 0xBF⟩
  else none

/-- Goes on after so many bytes, the last ones of which may be pending. -/
def decodeFrom : Nat → Option Pending → List UInt8 → Except DecodeError (List Char)
  | _, none, [] => .ok []
  | position, some p, [] => .error ⟨.unexpectedEnd, position - p.taken, p.first, p.taken⟩
  | position, none, byte :: rest =>
    if byte.toNat < 0x80 then
      (decodeFrom (position + 1) none rest).map (Char.ofNat byte.toNat :: ·)
    else
      match pending? byte with
      | some p => decodeFrom (position + 1) (some p) rest
      | none => .error ⟨.invalidStart, position, byte, 1⟩
  | position, some p, byte :: rest =>
    if p.low ≤ byte.toNat ∧ byte.toNat ≤ p.high then
      let value := 64 * p.value + (byte.toNat - 0x80)
      if p.owed = 1 then (decodeFrom (position + 1) none rest).map (Char.ofNat value :: ·)
      else
        decodeFrom (position + 1) (some ⟨p.first, p.taken + 1, value, p.owed - 1, 0x80, 0xBF⟩) rest
    else .error ⟨.invalidContinuation, position - p.taken, p.first, p.taken⟩

/-- The text that bytes encode. -/
def decode (bytes : List UInt8) : Except DecodeError (List Char) := decodeFrom 0 none bytes

/-! ### Writing -/

/-- The bytes that encode a text. -/
def encode (text : List Char) : List UInt8 := text.flatMap String.utf8EncodeChar

/-- A run of surrogates that stand alone, with the number of code points before it. -/
structure LoneRun where
  start : Nat
  first : Nat
  length : Nat
  deriving DecidableEq, Repr

/-- The first run of surrogates in a text. -/
def loneRun? (text : CodePoints) : Option LoneRun :=
  match text.dropWhile (!isSurrogate ·) with
  | first :: rest =>
    some ⟨text.length - (rest.length + 1), first, 1 + (rest.takeWhile isSurrogate).length⟩
  | [] => none

/-- Why such text cannot be written. -/
def LoneRun.text (run : LoneRun) : String :=
  let what :=
    if run.length = 1 then
      " character '\\u" ++ String.ofList (hexDigits 4 run.first) ++ "' in position " ++
        toString run.start
    else
      " characters in position " ++ toString run.start ++ "-" ++
        toString (run.start + run.length - 1)
  "'utf-8' codec can't encode" ++ what ++ ": surrogates not allowed"

/-- The bytes that encode a text in which surrogates may stand alone. -/
def CodePoints.encode (text : CodePoints) : Except LoneRun (List UInt8) :=
  match loneRun? text with
  | some run => .error run
  | none => .ok (Text.encode (text.map Char.ofNat))

end Phrasebook.Text

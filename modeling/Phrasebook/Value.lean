import Phrasebook.Number.Basic
import Phrasebook.Text.Quoted

set_option autoImplicit false

/-!
The values that an application passes to a message, and the texts in which messages and error
texts show them.
-/
namespace Phrasebook

inductive Value where
  | text (text : String)
  | bool (value : Bool)
  | none
  | number (value : Number)
  deriving DecidableEq, Repr, Inhabited

namespace Value

/-- The text that a message shows for a value. -/
def shown : Value → String
  | text s => s
  | bool b => if b then "True" else "False"
  | none => "None"
  | number n => n.text

/-- The text that a message shows for a value, if it can be written. -/
def written : Value → Except Number.Fault String
  | number n => n.written
  | v => .ok v.shown

/-- The text that an error message shows for a value. -/
def quoted : Value → String
  | text s => Text.quoted s
  | number (.decimal d) => "Decimal('" ++ d.text ++ "')"
  | v => v.shown

def text? : Value → Option String
  | text s => some s
  | _ => .none

/-- Empty text, false, nothing and zero count as missing. -/
def isMissing : Value → Bool
  | text s => s.isEmpty
  | bool b => !b
  | none => true
  | number n => n.isZero

/-- The text in place of the pound sign. -/
def plainText : Value → String
  | number n => n.plainText
  | v => v.shown

/-- The quotient of whole numbers that a finite number is, the lower one positive. -/
def quotient? : Number → Option (Int × Nat)
  | .int i => some (i, 1)
  | .double (.finite negative m e) =>
    let (n, d) := Number.Double.fraction m e
    some (Number.Decimal.signed negative n, d)
  | .decimal (.finite negative c e) =>
    let (c, e) := Number.Decimal.reduced c e
    if e < 0 then some (Number.Decimal.signed negative c, Number.tenTo e.natAbs)
    else some (Number.Decimal.signed negative (c * Number.tenTo e.natAbs), 1)
  | _ => .none

/-- The sign of an infinite number. -/
def infinite? : Number → Option Bool
  | .double (.infinity negative) => some negative
  | .decimal (.infinity negative) => some negative
  | _ => .none

/-- Equality of numbers of any kinds; a value that is not a number equals nothing. -/
def sameNumber (a b : Number) : Bool :=
  match quotient? a, quotient? b with
  | some (n, d), some (n', d') => n * d' = n' * d
  | .none, .none =>
    match infinite? a, infinite? b with
    | some s, some s' => s = s'
    | _, _ => false
  | _, _ => false

def number? : Value → Option Number
  | bool b => some (.int (if b then 1 else 0))
  | number n => some n
  | _ => .none

/-- Two values name the same entry of a dictionary; a truth value counts as a number. -/
def sameKey (a b : Value) : Bool :=
  match a.number?, b.number? with
  | some n, some m => sameNumber n m
  | .none, .none => a = b
  | _, _ => false

instance : BEq Value := ⟨sameKey⟩

end Value

end Phrasebook

import Phrasebook.Plural.Operands

set_option autoImplicit false

/-!
The categories of plural forms, and the rules that give a number its category: each category but the
last has a condition on the operands of a number, and the first category whose condition holds is the
number's. Which rule a locale has is a parameter.
-/
namespace Phrasebook.Plural

open Number (Fault Decimal)

inductive Category where
  | zero
  | one
  | two
  | few
  | many
  | other
  deriving DecidableEq, Repr, Inhabited

namespace Category

def text : Category → String
  | zero => "zero"
  | one => "one"
  | two => "two"
  | few => "few"
  | many => "many"
  | other => "other"

def all : List Category := [zero, one, two, few, many, other]

end Category

/-! ### Rules -/

/-- Which operand a relation is about. -/
inductive Operand where
  | n
  | i
  | v
  | f
  | t
  | e
  deriving DecidableEq, Repr

/-- An operand, or its remainder, is or is not a whole number in one of the ranges. -/
structure Relation where
  operand : Operand
  modulus : Option Nat
  negated : Bool
  ranges : List (Nat × Nat)

/-- Alternatives, each of relations that hold together. -/
abbrev Condition := List (List Relation)

/-- Categories with their conditions, in the order in which they are tried. -/
abbrev Rule := List (Category × Condition)

namespace Magnitude

/-- The remainder by a positive whole number. -/
def remainder (m : Magnitude) (modulus : Nat) : Except Fault Magnitude :=
  match m with
  | whole n => .ok (whole (n % modulus))
  | written d => (d.remainder modulus).map written

/-- The whole number that a magnitude is, if it is one. -/
def whole? : Magnitude → Option Nat
  | whole n => some n
  | written (.finite _ c e) =>
    let (c, e) := Decimal.reduced c e
    if e < 0 then none else some (c * Number.tenTo e.natAbs)
  | written _ => none

/-- A whole number in one of the ranges, ends included. -/
def within (m : Magnitude) (ranges : List (Nat × Nat)) : Bool :=
  match m.whole? with
  | some n => ranges.any fun range => range.1 ≤ n && n ≤ range.2
  | none => false

end Magnitude

def Operand.value (o : Operand) (operands : Operands) : Magnitude :=
  match o with
  | n => operands.absolute
  | i => .whole operands.integer
  | v => .whole operands.visibleCount
  | f => .whole operands.visible
  | t => .whole operands.trimmed
  | e => .whole 0

namespace Relation

def holds (r : Relation) (operands : Operands) : Except Fault Bool := do
  let value := r.operand.value operands
  let value ← match r.modulus with
    | some modulus => value.remainder modulus
    | none => .ok value
  return r.negated != value.within r.ranges

end Relation

/-- Relations are tested in order, up to the first that fails. -/
def holdTogether (operands : Operands) : List Relation → Except Fault Bool
  | [] => .ok true
  | r :: rest => do
    if ← r.holds operands then holdTogether operands rest else return false

/-- Alternatives are tested in order, up to the first that holds. -/
def Condition.holds (operands : Operands) : Condition → Except Fault Bool
  | [] => .ok false
  | relations :: rest => do
    if ← holdTogether operands relations then return true else Condition.holds operands rest

/-- The first category whose condition holds, else the last category. -/
def Rule.category (operands : Operands) : Rule → Except Fault Category
  | [] => .ok .other
  | (category, condition) :: rest => do
    if ← Condition.holds operands condition then return category
    else Rule.category operands rest

/-- A rule that takes no remainder by less than ten. -/
def Rule.isCoarse (rule : Rule) : Bool :=
  rule.all fun entry => entry.2.all fun relations => relations.all fun relation =>
    relation.modulus.all (10 ≤ ·)

/-! ### The rules of locales -/

/-- Which rule a locale has, for counts or for ranks; none if the locale is not known. In the name of
the locale underscores part the subtags. -/
class Rules where
  rule? (name : String) (ordinal : Bool) : Option Rule

/-- No rule takes a remainder by less than ten. -/
def Rules.AreCoarse [Rules] : Prop :=
  ∀ {name : String} {ordinal : Bool} {rule : Rule},
    Rules.rule? name ordinal = some rule → rule.isCoarse = true

/-- Hyphens and underscores part the subtags of a locale alike. -/
def localeKey (locale : String) : String := locale.map fun c => if c = '-' then '_' else c

/-- The rule of a locale. -/
def rule? [Rules] (locale : String) (ordinal : Bool) : Option Rule :=
  Rules.rule? (localeKey locale) ordinal

/-- The category of a number. In a locale that is not known every number has the last one. -/
def category [Rules] (number : Number) (locale : Option String) (ordinal : Bool) :
    Except Fault Category :=
  match rule? (locale.getD "") ordinal with
  | none => .ok .other
  | some rule => do Rule.category (← Operands.ofNumber number) rule

end Phrasebook.Plural

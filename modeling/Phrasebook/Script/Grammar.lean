import Phrasebook.Script.Reader

set_option autoImplicit false

/-!
The knot of the grammar. The rules that contain one another are named here; a grammar has a reader
for each of them, out of which the other modules build the readers for all of the syntax.
-/
namespace Phrasebook.Script

/-- The dialects of scripts. -/
inductive Dialect where
  | javascript
  | typescript
  deriving DecidableEq, Repr

/-- The rules that may stand inside one another. -/
inductive Rule where
  | statement
  /-- An expression without commas outside brackets. `noIn` takes no `in` as an operator, and
  `inChoice` stands between the marks of a choice. -/
  | expression (noIn inChoice : Bool)
  /-- What an operator applies to. -/
  | operand (noIn inChoice : Bool)
  /-- An operand without what may follow it. -/
  | primary
  /-- What a declaration binds. -/
  | binding
  /-- A type; a plain one is no condition. -/
  | type (plain : Bool)
  /-- Markup inside a script. -/
  | element
  deriving DecidableEq, Repr

/-- A reader for each rule of a dialect. -/
structure Grammar where
  dialect : Dialect
  read : Rule → Reader Tree

namespace Grammar

open Reader

variable (g : Grammar)

/-- Whether types can be written. -/
def typed : Bool := g.dialect = .typescript

/-- One expression. -/
def expression : Reader Tree := g.read (.expression false false)

/-- Expressions with commas between them. -/
def expressions : Reader Tree := do
  let place ← start
  match ← separated "," g.expression with
  | [single] => pure single
  | several => pure (other place several)

def type : Reader Tree := g.read (.type false)

/-- What only the typed dialect has. -/
def ifTyped {α : Type} (reader : Reader α) : Reader α := if g.typed then reader else failure

/-- A type behind a colon, if there is one. -/
def annotation : Reader (List Tree) :=
  orNone (g.ifTyped do
    mark ":"
    let type ← g.type
    pure [type])

/-- A value behind an equals sign, if there is one. -/
def initial (noIn : Bool) : Reader (List Tree) :=
  orNone do
    mark "="
    let value ← g.read (.expression noIn false)
    pure [value]

/-- Statements in braces. -/
def block : Reader Tree := do
  let place ← here
  let statements ← between "\x7b" "\x7d" (many (g.read .statement))
  pure (other place statements)

end Grammar

end Phrasebook.Script

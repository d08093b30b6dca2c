import Phrasebook.Script.Type

set_option autoImplicit false

/-!
Object literals, and the patterns that literals become where something is assigned to them.
-/
namespace Phrasebook.Script

mutual

/-- What an expression is as a target of an assignment; none if nothing can be assigned to it. -/
def target? : Tree → Option Tree
  | .identifier place name => some (.identifier place name)
  | .group place .member children => some (.group place .member children)
  | .group place .reservedName children => some (.group place .reservedName children)
  | .group place .assignment children => some (.group place .assignment children)
  | .group place .memberDefault children => some (other place children)
  | .group place .array children => (targets? children).map (other place)
  | .group place .spread children => (targets? children).map (other place)
  | .object place members => (targets? members).map (other place)
  | .property place key value _ _ => (target? value).map fun value => other place [key, value]
  | _ => none

def targets? : List Tree → Option (List Tree)
  | [] => some []
  | tree :: rest =>
    match target? tree, targets? rest with
    | some target, some others => some (target :: others)
    | _, _ => none

end

namespace Grammar

open Reader

variable (g : Grammar)

/-- The parameters and the body of a method. -/
def method : Reader (List Tree) := do
  let signature ← g.signature
  let body ← g.block
  pure (signature ++ [body])

/-- A word in front of a method's name. -/
def methodWord : Reader Unit :=
  (do
    let _ ← oneOf ["get", "set", "async", "static"]
    present ((do nameAhead) <|> mark "*")) <|>
  mark "*"

/-- What follows the name of a member. -/
def memberAfter (place : Nat) (key : Tree) (computed : Bool) : Reader Tree :=
  (do
    mark ":"
    let value ← g.expression
    pure (.property place key value computed false)) <|>
  (do
    let body ← g.method
    pure (other place (key :: body)))

/-- A name that stands for a member and its value. -/
def shorthand : Reader Tree := do
  let name ← boundName
  (do
    let initial ← (do mark "="; g.expression)
    pure (.group name.place .memberDefault [name, initial])) <|>
  pure (.property name.place name name false true)

/-- A member of an object literal. -/
def member : Reader Tree := do
  let place ← here
  (do
    mark "..."
    let value ← g.expression
    pure (.group place .spread [value])) <|>
  (do
    let (key, computed) ← g.propertyName
    g.memberAfter place key computed) <|>
  (do
    let _ ← methodWord
    let _ ← many methodWord
    let (key, _) ← g.propertyName
    let body ← g.method
    pure (other place (key :: body))) <|>
  g.shorthand

def object : Reader Tree := do
  let place ← here
  let members ← between "\x7b" "\x7d" (sparseList (do
    let member ← g.member
    pure [member]))
  pure (.object place members)

def array : Reader Tree := do
  let place ← here
  let items ← between "[" "]" (sparseList g.argument)
  pure (.group place .array items)

end Grammar

end Phrasebook.Script

import Phrasebook.Script.Module
import Phrasebook.Source.Position

set_option autoImplicit false

/-!
Reading a script. A script that does not follow the grammar of its dialect has no tree.
-/
namespace Phrasebook.Script

open Source (Node Position Placement)

/-- The reader of a rule, where the rules in it are read by the given grammar. -/
def Grammar.rule (g : Grammar) : Rule → Reader Tree
  | .statement => g.statementRule
  | .expression noIn inChoice => g.expressionRule noIn inChoice
  | .operand noIn inChoice => g.operandRule noIn inChoice
  | .primary => g.primaryRule
  | .binding => g.binding
  | .type plain => g.typeRule plain
  | .element => g.element

/-- The rules of a dialect, nested no deeper than a number of times. -/
def nested (dialect : Dialect) : Nat → Rule → Reader Tree
  | 0, _ => failure
  | depth + 1, rule => Grammar.rule ⟨dialect, nested dialect depth⟩ rule

/-- The grammar of a dialect for texts of a length. Between two characters that are taken no more
than eight rules nest. -/
def grammarFor (dialect : Dialect) (length : Nat) : Grammar :=
  ⟨dialect, nested dialect (8 * length + 8)⟩

/-- Passes the line with the interpreter that runs a script. -/
def passInterpreter (text : List Char) : List Char :=
  if Text.startsWith "#!".toList text then text.dropWhile (· ≠ '\n') else text

/-- A default that stands outside every pattern. -/
def isStrayDefault : Tree → Bool
  | .group _ .memberDefault _ => true
  | _ => false

/-- The statements of a script, if it follows the grammar. -/
def statements? (dialect : Dialect) (text : List Char) : Option (List Tree) := do
  let g := grammarFor dialect text.length
  let all : Reader (List Tree) := do
    let statements ← Reader.many g.statement
    let _ ← Reader.start
    Reader.ending
    pure statements
  let (statements, _) ← all (passInterpreter text)
  if (Node.walkAll statements).any isStrayDefault then none else some statements

/-- The position of a place in a text, which is handed on as a byte of its encoding. -/
def positionOf (text : List Char) (place : Nat) : Position :=
  let byte := Source.byteLength (text.take (text.length - place))
  (Source.positionOfByte? text byte).getD ⟨1, 0⟩

/-- The tree of a script that lies in a file as placed, if it follows the grammar. -/
def parse? (dialect : Dialect) (place : Placement) (text : List Char) : Option (Node Position) :=
  (statements? dialect text).map fun statements =>
    (Node.group text.length .program statements).map fun p => place (positionOf text p)

/-- Why an expression has no tree. -/
inductive ExpressionError where
  | empty
  | notSingle
  | grammar
  deriving DecidableEq, Repr

/-- The only child of a group of a kind. -/
def onlyChild? {P : Type} (kind : Source.GroupKind) : Node P → Option (Node P)
  | .group _ k [child] => if k = kind then some child else none
  | _ => none

/-- The tree of an expression that starts at a position of the file. It is read in parentheses, so
that braces hold an object. -/
def parseExpression (dialect : Dialect) (start : Position) (text : List Char) :
    Except ExpressionError (Node Position) :=
  if text.all Text.isBlank then .error .empty
  else
    match parse? dialect (Source.shifted start 1) ('(' :: text ++ ['\n', ')']) with
    | none => .error .grammar
    | some program =>
      match (onlyChild? .program program).bind (onlyChild? .expressionStatement) with
      | some wrapped =>
        match onlyChild? .parenthesized wrapped with
        | some inner => .ok inner
        | none => .error .notSingle
      | none => .error .notSingle

end Phrasebook.Script

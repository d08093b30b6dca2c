import Phrasebook.Number.Basic
import Phrasebook.Text.CodePoints

set_option autoImplicit false

/-!
The tree of a source file, for scripts and markup alike. It names the syntax that messages can be
stated in; all other syntax is a group of what stands in it. Each node has a place, which is a
position of the file in the end and a number of characters left while the file is read. A tree is
walked in one loop, with a stack of the nodes that are still to come.
-/
namespace Phrasebook.Source

open Text (CodePoints)

/-- The value of a literal. -/
inductive LiteralValue where
  | text (text : CodePoints)
  | number (number : Number)
  | unreadable
  deriving Repr

/-- What a group is, where its reader has to know. -/
inductive GroupKind where
  | program
  | expressionStatement
  | parenthesized
  | array
  /-- A member of an object, which can be assigned to. -/
  | member
  /-- A name that can be assigned to but is not an identifier. -/
  | reservedName
  | assignment
  | spread
  /-- A member of an object with a default, which only a pattern can have. -/
  | memberDefault
  | other
  deriving DecidableEq, Repr

/-- One literal part of a template; no value if an escape in it has no meaning. -/
structure Piece (P : Type) where
  place : P
  cooked : Option CodePoints
  raw : List Char

/-- The literal parts of a template, of which there is always one. -/
structure Pieces (P : Type) where
  first : Piece P
  others : List (Piece P)

inductive Node (P : Type) where
  | identifier (place : P) (name : String)
  | literal (place : P) (value : LiteralValue) (raw : String)
  | quasi (piece : Piece P)
  | template (place : P) (pieces : Pieces P) (expressions : List (Node P))
  | tagged (place : P) (tag body : Node P)
  | call (place : P) (callee : Node P) (args : List (Node P))
  | object (place : P) (members : List (Node P))
  | property (place : P) (key value : Node P) (computed shorthand : Bool)
  | group (place : P) (kind : GroupKind) (children : List (Node P))
  | fragment (place : P) (children : List (Node P))
  | element (place : P) (name : String) (attributes children : List (Node P))
  | component (place : P) (name : String) (attributes children : List (Node P))
  /-- An attribute; no value if only its name is written. -/
  | attr (place : P) (name : String) (value : Option (List (Node P)))
  | text (place : P) (data : String)
  | spread (place : P) (expression : Node P)
  /-- A tag in braces; its expression, for the kinds that have one. -/
  | mustache (place : P) (kind : String) (expression : Option (Node P))
  | script (place : P) (attributes : List (Node P)) (content : Option (Node P))

variable {P Q : Type}

/-- The same part elsewhere. -/
def Piece.map (f : P → Q) (piece : Piece P) : Piece Q := ⟨f piece.place, piece.cooked, piece.raw⟩

namespace Pieces

def all (pieces : Pieces P) : List (Piece P) := pieces.first :: pieces.others

def map (f : P → Q) (pieces : Pieces P) : Pieces Q :=
  ⟨pieces.first.map f, pieces.others.map (Piece.map f)⟩

theorem all_map (f : P → Q) (pieces : Pieces P) : (pieces.map f).all = pieces.all.map (Piece.map f) :=
  rfl

end Pieces

namespace Node

def place : Node P → P
  | identifier p _ => p
  | literal p _ _ => p
  | quasi piece => piece.place
  | template p _ _ => p
  | tagged p _ _ => p
  | call p _ _ => p
  | object p _ => p
  | property p _ _ _ _ => p
  | group p _ _ => p
  | fragment p _ => p
  | element p _ _ _ => p
  | component p _ _ _ => p
  | attr p _ _ => p
  | text p _ => p
  | spread p _ => p
  | mustache p _ _ => p
  | script p _ _ => p

mutual

/-- Changes the places of all nodes. -/
def map (f : P → Q) : Node P → Node Q
  | identifier p name => .identifier (f p) name
  | literal p value raw => .literal (f p) value raw
  | quasi piece => .quasi (piece.map f)
  | template p pieces expressions => .template (f p) (pieces.map f) (mapAll f expressions)
  | tagged p tag body => .tagged (f p) (map f tag) (map f body)
  | call p callee args => .call (f p) (map f callee) (mapAll f args)
  | object p members => .object (f p) (mapAll f members)
  | property p key value computed shorthand =>
    .property (f p) (map f key) (map f value) computed shorthand
  | group p kind children => .group (f p) kind (mapAll f children)
  | fragment p children => .fragment (f p) (mapAll f children)
  | element p name attributes children =>
    .element (f p) name (mapAll f attributes) (mapAll f children)
  | component p name attributes children =>
    .component (f p) name (mapAll f attributes) (mapAll f children)
  | attr p name value => .attr (f p) name (mapValue f value)
  | text p data => .text (f p) data
  | spread p expression => .spread (f p) (map f expression)
  | mustache p kind expression => .mustache (f p) kind (mapOption f expression)
  | script p attributes content => .script (f p) (mapAll f attributes) (mapOption f content)

def mapAll (f : P → Q) : List (Node P) → List (Node Q)
  | [] => []
  | node :: rest => map f node :: mapAll f rest

def mapOption (f : P → Q) : Option (Node P) → Option (Node Q)
  | none => none
  | some node => some (map f node)

def mapValue (f : P → Q) : Option (List (Node P)) → Option (List (Node Q))
  | none => none
  | some nodes => some (mapAll f nodes)

end

mutual

/-- A node and all nodes in it, each before those in it, from left to right. The literal parts of a
template come before the expressions between them. -/
def walk : Node P → List (Node P)
  | identifier p name => [.identifier p name]
  | literal p value raw => [.literal p value raw]
  | quasi piece => [.quasi piece]
  | template p pieces expressions =>
    .template p pieces expressions :: (pieces.all.map .quasi ++ walkAll expressions)
  | tagged p tag body => .tagged p tag body :: (walk tag ++ walk body)
  | call p callee args => .call p callee args :: (walk callee ++ walkAll args)
  | object p members => .object p members :: walkAll members
  | property p key value computed shorthand =>
    .property p key value computed shorthand :: (walk key ++ walk value)
  | group p kind children => .group p kind children :: walkAll children
  | fragment p children => .fragment p children :: walkAll children
  | element p name attributes children =>
    .element p name attributes children :: (walkAll attributes ++ walkAll children)
  | component p name attributes children =>
    .component p name attributes children :: (walkAll attributes ++ walkAll children)
  | attr p name value => .attr p name value :: walkValue value
  | text p data => [.text p data]
  | spread p expression => .spread p expression :: walk expression
  | mustache p kind expression => .mustache p kind expression :: walkOption expression
  | script p attributes content =>
    .script p attributes content :: (walkAll attributes ++ walkOption content)

def walkAll : List (Node P) → List (Node P)
  | [] => []
  | node :: rest => walk node ++ walkAll rest

def walkOption : Option (Node P) → List (Node P)
  | none => []
  | some node => walk node

def walkValue : Option (List (Node P)) → List (Node P)
  | none => []
  | some nodes => walkAll nodes

end

end Node

end Phrasebook.Source

namespace Phrasebook.Source.Node

/-! ### One loop -/

variable {P : Type}

/-- The nodes directly in a node, from left to right. -/
def children : Node P → List (Node P)
  | identifier _ _ => []
  | literal _ _ _ => []
  | quasi _ => []
  | template _ pieces expressions => pieces.all.map .quasi ++ expressions
  | tagged _ tag body => [tag, body]
  | call _ callee args => callee :: args
  | object _ members => members
  | property _ key value _ _ => [key, value]
  | group _ _ children => children
  | fragment _ children => children
  | element _ _ attributes children => attributes ++ children
  | component _ _ attributes children => attributes ++ children
  | attr _ _ value => value.getD []
  | text _ _ => []
  | spread _ expression => [expression]
  | mustache _ _ expression => expression.toList
  | script _ attributes content => attributes ++ content.toList

theorem walkAll_append (first rest : List (Node P)) :
    walkAll (first ++ rest) = walkAll first ++ walkAll rest := by
  induction first with
  | nil => rfl
  | cons node first ih => rw [List.cons_append, walkAll, walkAll, ih, List.append_assoc]

theorem walkAll_toList (node : Option (Node P)) : walkAll node.toList = walkOption node := by
  cases node with
  | none => rfl
  | some node => simp [walkAll, walkOption]

theorem walkAll_quasi (pieces : List (Piece P)) :
    walkAll (pieces.map .quasi) = pieces.map .quasi := by
  induction pieces with
  | nil => rfl
  | cons piece pieces ih => rw [List.map_cons, walkAll, ih, walk, List.singleton_append]

/-- A node comes first, and then all that is in its children. -/
theorem walk_eq (node : Node P) : node.walk = node :: walkAll node.children := by
  cases node with
  | attr _ _ value => cases value <;> rfl
  | mustache => rw [walk, children, walkAll_toList]
  | script => rw [walk, children, walkAll_append, walkAll_toList]
  | template => rw [walk, children, walkAll_append, walkAll_quasi]
  | element | component => rw [walk, children, walkAll_append]
  | _ => simp [walk, children, walkAll]

/-- The nodes of the trees on a stack. A node makes room for its children, of which the first is on
top. -/
def traverse : List (Node P) → List (Node P)
  | [] => []
  | node :: rest => node :: traverse (node.children ++ rest)
termination_by stack => (walkAll stack).length
decreasing_by
  rw [walkAll_append, walkAll, walk_eq]
  simp

end Phrasebook.Source.Node

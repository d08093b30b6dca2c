import Phrasebook.Text.Split

set_option autoImplicit false

/-!
Names of places in a tree of files. Repeated slashes, a slash at the end and parts that are one
point do not count; two points stay as they are.
-/
namespace Phrasebook

/-- Where a path starts. Exactly two leading slashes are a start of their own. -/
inductive Path.Anchor where
  | relative
  | root
  | doubleRoot
  deriving DecidableEq, Repr

structure Path where
  anchor : Path.Anchor
  parts : List String
  deriving DecidableEq, Repr

namespace Path

def Anchor.text : Anchor → String
  | relative => ""
  | root => "/"
  | doubleRoot => "//"

/-- The start that a number of leading slashes gives. -/
def Anchor.ofSlashes (count : Nat) : Anchor :=
  if count = 0 then relative else if count = 2 then doubleRoot else root

def ofText (text : String) : Path :=
  let chars := text.toList
  ⟨.ofSlashes (chars.takeWhile (· = '/')).length,
    ((Text.pieces '/' chars).map String.ofList).filter fun part => part ≠ "" && part ≠ "."⟩

def text (path : Path) : String :=
  if path.anchor = .relative ∧ path.parts = [] then "."
  else path.anchor.text ++ String.intercalate "/" path.parts

/-- The second path, seen from the first. -/
def join (base path : Path) : Path :=
  if path.anchor = .relative then ⟨base.anchor, base.parts ++ path.parts⟩ else path

/-- The path of an entry of a directory. -/
def child (path : Path) (name : String) : Path := ⟨path.anchor, path.parts ++ [name]⟩

def parent (path : Path) : Path := ⟨path.anchor, path.parts.dropLast⟩

/-- The last part. -/
def name (path : Path) : String := path.parts.getLast?.getD ""

/-- The parts by which a path goes on from another one. -/
def below? (base path : Path) : Option (List String) :=
  if base.anchor = path.anchor ∧ base.parts.isPrefixOf path.parts then
    some (path.parts.drop base.parts.length)
  else none

end Path

end Phrasebook

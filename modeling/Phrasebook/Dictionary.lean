set_option autoImplicit false

/-!
Dictionaries that keep the order in which their keys first came. A key that is set again keeps its
place and takes the new value.
-/
namespace Phrasebook

/-- Pairs of a key and its value, no key twice, in the order of first arrival. -/
abbrev Dictionary (κ ν : Type) := List (κ × ν)

namespace Dictionary

variable {κ ν : Type} [BEq κ]

/-- Sets a key: in place if it is there, else at the end. -/
def set (key : κ) (value : ν) : Dictionary κ ν → Dictionary κ ν
  | [] => [(key, value)]
  | (k, v) :: rest => if k == key then (k, value) :: rest else (k, v) :: set key value rest

/-- The dictionary that setting the pairs one after another gives. -/
def ofPairs (pairs : List (κ × ν)) : Dictionary κ ν :=
  pairs.foldl (fun d pair => set pair.1 pair.2 d) []

def get? (key : κ) (d : Dictionary κ ν) : Option ν := d.lookup key

def has (key : κ) (d : Dictionary κ ν) : Bool := d.any fun pair => pair.1 == key

def erase (key : κ) (d : Dictionary κ ν) : Dictionary κ ν := d.filter fun pair => !(pair.1 == key)

/-- Sets all pairs of the second dictionary in the first. -/
def update (d other : Dictionary κ ν) : Dictionary κ ν :=
  other.foldl (fun d pair => set pair.1 pair.2 d) d

end Dictionary

end Phrasebook

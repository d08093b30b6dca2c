import Phrasebook.Dictionary
import Phrasebook.Moment
import Phrasebook.Value

set_option autoImplicit false

/-!
Data as settings files hold it: scalars, lists, and mappings with keys of any kind. A surrogate may
stand alone in a text, which tells it from all others.
-/
namespace Phrasebook

open Text (CodePoints)

inductive Data where
  | null
  | bool (value : Bool)
  | int (value : Int)
  | double (value : Number.Double)
  | text (text : CodePoints)
  | moment (value : Moment)
  | list (items : List Data)
  | map (entries : List (Data × Data))
  deriving Repr, Inhabited

namespace Data

mutual

/-- How error texts show data. -/
def quoted : Data → String
  | null => "None"
  | bool b => if b then "True" else "False"
  | int i => Number.intText i
  | double d => d.text
  | text points => Text.quotedPoints points
  | moment m => m.quoted
  | list items => "[" ++ String.intercalate ", " (quotedItems items) ++ "]"
  | map entries => "\x7b" ++ String.intercalate ", " (quotedEntries entries) ++ "\x7d"

def quotedItems : List Data → List String
  | [] => []
  | item :: rest => item.quoted :: quotedItems rest

def quotedEntries : List (Data × Data) → List String
  | [] => []
  | (key, value) :: rest => (key.quoted ++ ": " ++ value.quoted) :: quotedEntries rest

end

/-- The text of characters. -/
def ofString (s : String) : Data := text (.ofString s)

/-- The characters of a text. A surrogate that stands alone is none, and is written as its escape. -/
def characters (points : CodePoints) : String :=
  String.ofList (points.flatMap fun code =>
    if Text.isSurrogate code then Text.numberEscape code else [Char.ofNat code])

/-- The text of data: a text stands for itself. -/
def shown : Data → String
  | text points => characters points
  | moment m => m.text
  | d => d.quoted

mutual

/-- All whole numbers in data are short enough to be written. -/
def isWritable : Data → Bool
  | int i => Number.isWritable (.int i)
  | list items => areWritable items
  | map entries => haveWritable entries
  | _ => true

def areWritable : List Data → Bool
  | [] => true
  | item :: rest => item.isWritable && areWritable rest

def haveWritable : List (Data × Data) → Bool
  | [] => true
  | (key, value) :: rest => key.isWritable && value.isWritable && haveWritable rest

end

/-- Nothing, false, zero and what is empty count as absent. -/
def isEmpty : Data → Bool
  | null => true
  | bool b => !b
  | int i => i = 0
  | double (.finite _ m _) => m = 0
  | double _ => false
  | text points => points.isEmpty
  | moment _ => false
  | list items => items.isEmpty
  | map entries => entries.isEmpty

/-- A scalar other than a text or a moment as a value. -/
def value? : Data → Option Value
  | null => some .none
  | bool b => some (.bool b)
  | int i => some (.number (.int i))
  | double d => some (.number (.double d))
  | _ => none

/-- Two keys name the same entry of a mapping. -/
def sameKey (a b : Data) : Bool :=
  match a, b with
  | moment m, moment n => m = n
  | text s, text t => s = t
  | a, b =>
    match a.value?, b.value? with
    | some v, some w => v == w
    | _, _ => false

instance : BEq Data := ⟨sameKey⟩

/-- Lists and mappings are no keys. -/
def isKey : Data → Bool
  | list _ => false
  | map _ => false
  | _ => true

/-- The value of a key. -/
def get? (key : String) (entries : List (Data × Data)) : Option Data :=
  Dictionary.get? (ofString key) entries

/-- The texts that data is, if all of its items are texts. -/
def texts? (items : List Data) : Option (List String) :=
  items.mapM fun item =>
    match item with
    | text points => some (characters points)
    | _ => none

end Data

end Phrasebook

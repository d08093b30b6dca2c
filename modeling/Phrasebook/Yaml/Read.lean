import Phrasebook.Yaml.Node
import Phrasebook.Yaml.Scalar

set_option autoImplicit false

/-!
The data that a settings file holds. Of two entries of a mapping with one key the last value counts,
and entries taken over from other mappings stand first.
-/
namespace Phrasebook.Yaml

/-- Why a text holds no data. -/
inductive ReadFailure where
  | malformed
  /-- A number or a moment that is spelled right but does not exist. -/
  | noValue
  deriving DecidableEq, Repr

def standardTag (name : String) : String := "tag:yaml.org,2002:" ++ name

def orNoValue {α : Type} (value : Option α) : Except ReadFailure α :=
  match value with
  | some a => .ok a
  | none => .error .noValue

/-- A scalar taken for a given thing. -/
def scalarAs (spelling : Spelling) (text : String) : Except ReadFailure Data :=
  match spelling with
  | .text => .ok (.ofString text)
  | .null => .ok .null
  | .bool =>
    if (trueWords.map String.toLower).contains text.toLower then .ok (.bool true)
    else if (falseWords.map String.toLower).contains text.toLower then .ok (.bool false)
    else .error .noValue
  | .int => do .ok (.int (← orNoValue (readInt? text.toList)))
  | .float => do .ok (.double (← orNoValue (readFloat? text.toList)))
  | .moment => do
    let moment ← orNoValue (moment? text.toList)
    if moment.isValid then .ok (.moment moment) else .error .noValue
  | .merge => .error .malformed
  | .default => .error .malformed

/-- What a tag says that a scalar is. -/
def spellingOfTag? (tag : String) : Option Spelling :=
  ([("str", .text), ("null", .null), ("bool", .bool), ("int", .int), ("float", .float),
    ("timestamp", .moment), ("merge", .merge)] : List (String × Spelling)).findSome? fun entry =>
      if standardTag entry.1 = tag then some entry.2 else none

/-- What a scalar is taken for. -/
def spelling? (tag : Option String) (text : String) (isPlain : Bool) : Option Spelling :=
  match tag with
  | none => some (if isPlain then sortOf text else .text)
  | some tag => if tag = "!" then some (sortOf text) else spellingOfTag? tag

def isMergeKey : Node → Bool
  | .scalar tag text isPlain => spelling? tag text isPlain = some .merge
  | _ => false

/-- A tag fits a kind of node. -/
def tagFits (name : String) (tag : Option String) : Bool :=
  match tag with
  | none => true
  | some tag => tag = "!" || tag = standardTag name

mutual

/-- The data of a node. -/
def dataOf : Node → Except ReadFailure Data
  | .scalar tag text isPlain =>
    match spelling? tag text isPlain with
    | some spelling => scalarAs spelling text
    | none => .error .malformed
  | .list tag items => do
    if !tagFits "seq" tag then .error .malformed
    .ok (.list (← dataOfItems items))
  | .map tag entries => do
    if !tagFits "map" tag then .error .malformed
    let (taken, own) ← dataOfEntries entries
    .ok (.map (Dictionary.ofPairs (taken ++ own)))

def dataOfItems : List Node → Except ReadFailure (List Data)
  | [] => .ok []
  | item :: rest => do
    let data ← dataOf item
    .ok (data :: (← dataOfItems rest))

/-- The entries that a mapping takes over from others, and its own. -/
def dataOfEntries :
    List (Node × Node) → Except ReadFailure (List (Data × Data) × List (Data × Data))
  | [] => .ok ([], [])
  | (key, value) :: rest => do
    if isMergeKey key then
      let taken ← match value with
        | .map _ entries => do
          let (taken, own) ← dataOfEntries entries
          .ok (taken ++ own)
        | .list _ items => dataOfMerged items
        | .scalar _ _ _ => .error .malformed
      let (more, own) ← dataOfEntries rest
      .ok (taken ++ more, own)
    else
      let key ← keyOf key
      if !key.isKey then .error .malformed
      let value ← dataOf value
      let (taken, own) ← dataOfEntries rest
      .ok (taken, (key, value) :: own)

/-- A key; the mark of a default value is a text there. -/
def keyOf : Node → Except ReadFailure Data
  | .scalar tag text isPlain =>
    match spelling? tag text isPlain with
    | some .default => .ok (.ofString text)
    | some spelling => scalarAs spelling text
    | none => .error .malformed
  | .list _ _ => .error .malformed
  | .map _ _ => .error .malformed

/-- The entries of mappings, of which earlier ones count more. -/
def dataOfMerged : List Node → Except ReadFailure (List (Data × Data))
  | [] => .ok []
  | .map _ entries :: rest => do
    let (taken, own) ← dataOfEntries entries
    .ok ((← dataOfMerged rest) ++ (taken ++ own))
  | _ => .error .malformed

end

/-- The data that a text holds; nothing if it is empty. -/
def read (text : List Char) : Except ReadFailure Data :=
  match (tokens? text).bind Node.ofTokens? with
  | none => .error .malformed
  | some none => .ok .null
  | some (some node) => dataOf node

end Phrasebook.Yaml

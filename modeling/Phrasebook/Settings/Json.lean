import Phrasebook.Data
import Phrasebook.Json.Basic

set_option autoImplicit false

/-!
Settings data from JSON, which has texts alone for keys.
-/
namespace Phrasebook.Data

mutual

def ofJson : Json → Data
  | .null => null
  | .bool b => bool b
  | .int i => int i
  | .double d => double d
  | .string points => text points
  | .array items => list (ofJsonItems items)
  | .object entries => map (ofJsonEntries entries)

def ofJsonItems : List Json → List Data
  | [] => []
  | item :: rest => ofJson item :: ofJsonItems rest

def ofJsonEntries : List (Text.CodePoints × Json) → List (Data × Data)
  | [] => []
  | (key, value) :: rest => (text key, ofJson value) :: ofJsonEntries rest

end

end Phrasebook.Data

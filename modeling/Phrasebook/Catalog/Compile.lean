import Phrasebook.Catalog.Entry
import Phrasebook.Json.Basic
import Phrasebook.Message.Identifier
import Phrasebook.Number.Double

set_option autoImplicit false

/-!
What an application uses of a catalog, the translations by their ids, and how much of a catalog is
translated. Translations that are in doubt do not count.
-/
namespace Phrasebook.Catalog

/-- The translation of an entry that an application uses. -/
def usable? (entry : Entry) : Option (String × String) :=
  match entry.id, entry.translation with
  | .single message, .single translation =>
    if message.isEmpty || entry.isFuzzy || translation.isEmpty then none
    else some (Message.identifier message entry.context, translation)
  | _, _ => none

/-- The translations by the ids of their messages. -/
def compile (catalog : Catalog) : Dictionary String String :=
  Dictionary.ofPairs (catalog.all.filterMap usable?)

/-- The text of a compiled catalog, ids in order. -/
def compiledText (compiled : Dictionary String String) : Text.CodePoints :=
  let inOrder := compiled.mergeSort fun a b => a.1 ≤ b.1
  Json.write (.ofEntries (inOrder.map fun (id, text) => (id, .ofString text)))

structure Statistics where
  total : Nat
  translated : Nat
  fuzzy : Nat
  obsolete : Nat
  deriving DecidableEq, Repr

namespace Statistics

def missing (statistics : Statistics) : Nat := statistics.total - statistics.translated

/-- The share of what is translated, in tenths of a percent: the quotient and its hundredfold are
rounded as doubles are, then the tenths to the nearest, a half to the even one. -/
def coverage (statistics : Statistics) : Nat :=
  match Number.Double.ofQuotient false statistics.translated statistics.total with
  | .finite _ m e =>
    let (n, d) := Number.Double.fraction m e
    match Number.Double.ofQuotient false (100 * n) d with
    | .finite _ m e =>
      let (n, d) := Number.Double.fraction m e
      Number.divideNearest (10 * n) d
    | _ => 0
  | _ => 0

/-- Tenths with a point before the last digit. -/
def coverageText (statistics : Statistics) : String :=
  if statistics.total = 0 then "0.0"
  else toString (statistics.coverage / 10) ++ "." ++ toString (statistics.coverage % 10)

end Statistics

/-- How much of a catalog is translated. -/
def statistics (catalog : Catalog) : Statistics :=
  let entries := catalog.all
  ⟨entries.length, entries.countP fun entry => !entry.translation.isEmpty && !entry.isFuzzy,
    entries.countP (·.isFuzzy), catalog.obsolete.length⟩

end Phrasebook.Catalog

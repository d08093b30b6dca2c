import Phrasebook.Locale.Name
import Phrasebook.Plural.Rule

set_option autoImplicit false

/-!
The plural rules of the known locales, for counts and for ranks. The languages that share a rule are
named beside it; a known language that is not named has the last category only.
-/
namespace Phrasebook.Plural

/-- The rule of a language in a table of languages with their rule. -/
def ruleIn (table : List (List String × Rule)) (language : String) : Rule :=
  ((table.find? fun entry => entry.1.contains language).map (·.2)).getD []

theorem isCoarse_ruleIn {table : List (List String × Rule)}
    (coarse : table.all (·.2.isCoarse) = true) (language : String) :
    (ruleIn table language).isCoarse = true := by
  rw [ruleIn]
  cases found : table.find? fun entry => entry.1.contains language with
  | none => rfl
  | some entry => exact List.all_eq_true.mp coarse entry (List.mem_of_find?_eq_some found)

end Phrasebook.Plural

/-! ### Counts -/

namespace Phrasebook.Plural.Cardinal

def english : Rule := [
  (.one, [
    [⟨.i, none, false, [(1, 1)]⟩, ⟨.v, none, false, [(0, 0)]⟩]])]

def afrikaans : Rule := [
  (.one, [
    [⟨.n, none, false, [(1, 1)]⟩]])]

def hindi : Rule := [
  (.one, [
    [⟨.i, none, false, [(0, 0)]⟩],
    [⟨.n, none, false, [(1, 1)]⟩]])]

def armenian : Rule := [
  (.one, [
    [⟨.i, none, false, [(0, 0), (1, 1)]⟩]])]

def akan : Rule := [
  (.one, [
    [⟨.n, none, false, [(0, 1)]⟩]])]

def sinhala : Rule := [
  (.one, [
    [⟨.n, none, false, [(0, 0), (1, 1)]⟩],
    [⟨.i, none, false, [(0, 0)]⟩, ⟨.f, none, false, [(1, 1)]⟩]])]

def tamazight : Rule := [
  (.one, [
    [⟨.n, none, false, [(0, 1)]⟩],
    [⟨.n, none, false, [(11, 99)]⟩]])]

def danish : Rule := [
  (.one, [
    [⟨.n, none, false, [(1, 1)]⟩],
    [⟨.t, none, true, [(0, 0)]⟩, ⟨.i, none, false, [(0, 0), (1, 1)]⟩]])]

def icelandic : Rule := [
  (.one, [
    [⟨.t, none, false, [(0, 0)]⟩, ⟨.i, some 10, false, [(1, 1)]⟩,
      ⟨.i, some 100, true, [(11, 11)]⟩],
    [⟨.t, some 10, false, [(1, 1)]⟩, ⟨.t, some 100, true, [(11, 11)]⟩]])]

def macedonian : Rule := [
  (.one, [
    [⟨.v, none, false, [(0, 0)]⟩, ⟨.i, some 10, false, [(1, 1)]⟩,
      ⟨.i, some 100, true, [(11, 11)]⟩],
    [⟨.f, some 10, false, [(1, 1)]⟩, ⟨.f, some 100, true, [(11, 11)]⟩]])]

def filipino : Rule := [
  (.one, [
    [⟨.v, none, false, [(0, 0)]⟩, ⟨.i, none, false, [(1, 1), (2, 2), (3, 3)]⟩],
    [⟨.v, none, false, [(0, 0)]⟩, ⟨.i, some 10, true, [(4, 4), (6, 6), (9, 9)]⟩],
    [⟨.v, none, true, [(0, 0)]⟩, ⟨.f, some 10, true, [(4, 4), (6, 6), (9, 9)]⟩]])]

def latvian : Rule := [
  (.one, [
    [⟨.n, some 10, false, [(1, 1)]⟩, ⟨.n, some 100, true, [(11, 11)]⟩],
    [⟨.v, none, false, [(2, 2)]⟩, ⟨.f, some 10, false, [(1, 1)]⟩,
      ⟨.f, some 100, true, [(11, 11)]⟩],
    [⟨.v, none, true, [(2, 2)]⟩, ⟨.f, some 10, false, [(1, 1)]⟩]]),
  (.zero, [
    [⟨.n, some 10, false, [(0, 0)]⟩],
    [⟨.n, some 100, false, [(11, 19)]⟩],
    [⟨.v, none, false, [(2, 2)]⟩, ⟨.f, some 100, false, [(11, 19)]⟩]])]

def langi : Rule := [
  (.one, [
    [⟨.i, none, false, [(0, 0), (1, 1)]⟩, ⟨.n, none, true, [(0, 0)]⟩]]),
  (.zero, [
    [⟨.n, none, false, [(0, 0)]⟩]])]

def colognian : Rule := [
  (.one, [
    [⟨.n, none, false, [(1, 1)]⟩]]),
  (.zero, [
    [⟨.n, none, false, [(0, 0)]⟩]])]

def hebrew : Rule := [
  (.one, [
    [⟨.i, none, false, [(1, 1)]⟩, ⟨.v, none, false, [(0, 0)]⟩],
    [⟨.i, none, false, [(0, 0)]⟩, ⟨.v, none, true, [(0, 0)]⟩]]),
  (.two, [
    [⟨.i, none, false, [(2, 2)]⟩, ⟨.v, none, false, [(0, 0)]⟩]])]

def inuktitut : Rule := [
  (.one, [
    [⟨.n, none, false, [(1, 1)]⟩]]),
  (.two, [
    [⟨.n, none, false, [(2, 2)]⟩]])]

def tachelhit : Rule := [
  (.few, [
    [⟨.n, none, false, [(2, 10)]⟩]]),
  (.one, [
    [⟨.i, none, false, [(0, 0)]⟩],
    [⟨.n, none, false, [(1, 1)]⟩]])]

def romanian : Rule := [
  (.few, [
    [⟨.v, none, true, [(0, 0)]⟩],
    [⟨.n, none, false, [(0, 0)]⟩],
    [⟨.n, none, true, [(1, 1)]⟩, ⟨.n, some 100, false, [(1, 19)]⟩]]),
  (.one, [
    [⟨.i, none, false, [(1, 1)]⟩, ⟨.v, none, false, [(0, 0)]⟩]])]

def serbian : Rule := [
  (.few, [
    [⟨.v, none, false, [(0, 0)]⟩, ⟨.i, some 10, false, [(2, 4)]⟩,
      ⟨.i, some 100, true, [(12, 14)]⟩],
    [⟨.f, some 10, false, [(2, 4)]⟩, ⟨.f, some 100, true, [(12, 14)]⟩]]),
  (.one, [
    [⟨.v, none, false, [(0, 0)]⟩, ⟨.i, some 10, false, [(1, 1)]⟩,
      ⟨.i, some 100, true, [(11, 11)]⟩],
    [⟨.f, some 10, false, [(1, 1)]⟩, ⟨.f, some 100, true, [(11, 11)]⟩]])]

def french : Rule := [
  (.many, [
    [⟨.e, none, false, [(0, 0)]⟩, ⟨.i, none, true, [(0, 0)]⟩, ⟨.i, some 1000000, false, [(0, 0)]⟩,
      ⟨.v, none, false, [(0, 0)]⟩],
    [⟨.e, none, true, [(0, 5)]⟩]]),
  (.one, [
    [⟨.i, none, false, [(0, 0), (1, 1)]⟩]])]

def portuguese : Rule := [
  (.many, [
    [⟨.e, none, false, [(0, 0)]⟩, ⟨.i, none, true, [(0, 0)]⟩, ⟨.i, some 1000000, false, [(0, 0)]⟩,
      ⟨.v, none, false, [(0, 0)]⟩],
    [⟨.e, none, true, [(0, 5)]⟩]]),
  (.one, [
    [⟨.i, none, false, [(0, 1)]⟩]])]

def italian : Rule := [
  (.many, [
    [⟨.e, none, false, [(0, 0)]⟩, ⟨.i, none, true, [(0, 0)]⟩, ⟨.i, some 1000000, false, [(0, 0)]⟩,
      ⟨.v, none, false, [(0, 0)]⟩],
    [⟨.e, none, true, [(0, 5)]⟩]]),
  (.one, [
    [⟨.i, none, false, [(1, 1)]⟩, ⟨.v, none, false, [(0, 0)]⟩]])]

def spanish : Rule := [
  (.many, [
    [⟨.e, none, false, [(0, 0)]⟩, ⟨.i, none, true, [(0, 0)]⟩, ⟨.i, some 1000000, false, [(0, 0)]⟩,
      ⟨.v, none, false, [(0, 0)]⟩],
    [⟨.e, none, true, [(0, 5)]⟩]]),
  (.one, [
    [⟨.n, none, false, [(1, 1)]⟩]])]

def gaelic : Rule := [
  (.few, [
    [⟨.n, none, false, [(3, 10), (13, 19)]⟩]]),
  (.one, [
    [⟨.n, none, false, [(1, 1), (11, 11)]⟩]]),
  (.two, [
    [⟨.n, none, false, [(2, 2), (12, 12)]⟩]])]

def slovenian : Rule := [
  (.few, [
    [⟨.v, none, false, [(0, 0)]⟩, ⟨.i, some 100, false, [(3, 4)]⟩],
    [⟨.v, none, true, [(0, 0)]⟩]]),
  (.one, [
    [⟨.v, none, false, [(0, 0)]⟩, ⟨.i, some 100, false, [(1, 1)]⟩]]),
  (.two, [
    [⟨.v, none, false, [(0, 0)]⟩, ⟨.i, some 100, false, [(2, 2)]⟩]])]

def sorbian : Rule := [
  (.few, [
    [⟨.v, none, false, [(0, 0)]⟩, ⟨.i, some 100, false, [(3, 4)]⟩],
    [⟨.f, some 100, false, [(3, 4)]⟩]]),
  (.one, [
    [⟨.v, none, false, [(0, 0)]⟩, ⟨.i, some 100, false, [(1, 1)]⟩],
    [⟨.f, some 100, false, [(1, 1)]⟩]]),
  (.two, [
    [⟨.v, none, false, [(0, 0)]⟩, ⟨.i, some 100, false, [(2, 2)]⟩],
    [⟨.f, some 100, false, [(2, 2)]⟩]])]

def czech : Rule := [
  (.few, [
    [⟨.i, none, false, [(2, 4)]⟩, ⟨.v, none, false, [(0, 0)]⟩]]),
  (.many, [
    [⟨.v, none, true, [(0, 0)]⟩]]),
  (.one, [
    [⟨.i, none, false, [(1, 1)]⟩, ⟨.v, none, false, [(0, 0)]⟩]])]

def polish : Rule := [
  (.few, [
    [⟨.v, none, false, [(0, 0)]⟩, ⟨.i, some 10, false, [(2, 4)]⟩,
      ⟨.i, some 100, true, [(12, 14)]⟩]]),
  (.many, [
    [⟨.v, none, false, [(0, 0)]⟩, ⟨.i, none, true, [(1, 1)]⟩, ⟨.i, some 10, false, [(0, 1)]⟩],
    [⟨.v, none, false, [(0, 0)]⟩, ⟨.i, some 10, false, [(5, 9)]⟩],
    [⟨.v, none, false, [(0, 0)]⟩, ⟨.i, some 100, false, [(12, 14)]⟩]]),
  (.one, [
    [⟨.i, none, false, [(1, 1)]⟩, ⟨.v, none, false, [(0, 0)]⟩]])]

def belarusian : Rule := [
  (.few, [
    [⟨.n, some 10, false, [(2, 4)]⟩, ⟨.n, some 100, true, [(12, 14)]⟩]]),
  (.many, [
    [⟨.n, some 10, false, [(0, 0)]⟩],
    [⟨.n, some 10, false, [(5, 9)]⟩],
    [⟨.n, some 100, false, [(11, 14)]⟩]]),
  (.one, [
    [⟨.n, some 10, false, [(1, 1)]⟩, ⟨.n, some 100, true, [(11, 11)]⟩]])]

def lithuanian : Rule := [
  (.few, [
    [⟨.n, some 10, false, [(2, 9)]⟩, ⟨.n, some 100, true, [(11, 19)]⟩]]),
  (.many, [
    [⟨.f, none, true, [(0, 0)]⟩]]),
  (.one, [
    [⟨.n, some 10, false, [(1, 1)]⟩, ⟨.n, some 100, true, [(11, 19)]⟩]])]

def russian : Rule := [
  (.few, [
    [⟨.v, none, false, [(0, 0)]⟩, ⟨.i, some 10, false, [(2, 4)]⟩,
      ⟨.i, some 100, true, [(12, 14)]⟩]]),
  (.many, [
    [⟨.v, none, false, [(0, 0)]⟩, ⟨.i, some 10, false, [(0, 0)]⟩],
    [⟨.v, none, false, [(0, 0)]⟩, ⟨.i, some 10, false, [(5, 9)]⟩],
    [⟨.v, none, false, [(0, 0)]⟩, ⟨.i, some 100, false, [(11, 14)]⟩]]),
  (.one, [
    [⟨.v, none, false, [(0, 0)]⟩, ⟨.i, some 10, false, [(1, 1)]⟩,
      ⟨.i, some 100, true, [(11, 11)]⟩]])]

def samogitian : Rule := [
  (.few, [
    [⟨.n, none, true, [(2, 2)]⟩, ⟨.n, some 10, false, [(2, 9)]⟩, ⟨.n, some 100, true, [(11, 19)]⟩]]),
  (.many, [
    [⟨.f, none, true, [(0, 0)]⟩]]),
  (.one, [
    [⟨.n, some 10, false, [(1, 1)]⟩, ⟨.n, some 100, true, [(11, 11)]⟩]]),
  (.two, [
    [⟨.n, none, false, [(2, 2)]⟩]])]

def breton : Rule := [
  (.few, [
    [⟨.n, some 10, false, [(3, 4), (9, 9)]⟩, ⟨.n, some 100, true, [(10, 19), (70, 79), (90, 99)]⟩]]),
  (.many, [
    [⟨.n, none, true, [(0, 0)]⟩, ⟨.n, some 1000000, false, [(0, 0)]⟩]]),
  (.one, [
    [⟨.n, some 10, false, [(1, 1)]⟩, ⟨.n, some 100, true, [(11, 11), (71, 71), (91, 91)]⟩]]),
  (.two, [
    [⟨.n, some 10, false, [(2, 2)]⟩, ⟨.n, some 100, true, [(12, 12), (72, 72), (92, 92)]⟩]])]

def maltese : Rule := [
  (.few, [
    [⟨.n, none, false, [(0, 0)]⟩],
    [⟨.n, some 100, false, [(3, 10)]⟩]]),
  (.many, [
    [⟨.n, some 100, false, [(11, 19)]⟩]]),
  (.one, [
    [⟨.n, none, false, [(1, 1)]⟩]]),
  (.two, [
    [⟨.n, none, false, [(2, 2)]⟩]])]

def irish : Rule := [
  (.few, [
    [⟨.n, none, false, [(3, 6)]⟩]]),
  (.many, [
    [⟨.n, none, false, [(7, 10)]⟩]]),
  (.one, [
    [⟨.n, none, false, [(1, 1)]⟩]]),
  (.two, [
    [⟨.n, none, false, [(2, 2)]⟩]])]

def manx : Rule := [
  (.few, [
    [⟨.v, none, false, [(0, 0)]⟩,
      ⟨.i, some 100, false, [(0, 0), (20, 20), (40, 40), (60, 60), (80, 80)]⟩]]),
  (.many, [
    [⟨.v, none, true, [(0, 0)]⟩]]),
  (.one, [
    [⟨.v, none, false, [(0, 0)]⟩, ⟨.i, some 10, false, [(1, 1)]⟩]]),
  (.two, [
    [⟨.v, none, false, [(0, 0)]⟩, ⟨.i, some 10, false, [(2, 2)]⟩]])]

def cornish : Rule := [
  (.few, [
    [⟨.n, some 100, false, [(3, 3), (23, 23), (43, 43), (63, 63), (83, 83)]⟩]]),
  (.many, [
    [⟨.n, none, true, [(1, 1)]⟩,
      ⟨.n, some 100, false, [(1, 1), (21, 21), (41, 41), (61, 61), (81, 81)]⟩]]),
  (.one, [
    [⟨.n, none, false, [(1, 1)]⟩]]),
  (.two, [
    [⟨.n, some 100, false, [(2, 2), (22, 22), (42, 42), (62, 62), (82, 82)]⟩],
    [⟨.n, some 1000, false, [(0, 0)]⟩,
      ⟨.n, some 100000, false, [(1000, 20000), (40000, 40000), (60000, 60000), (80000, 80000)]⟩],
    [⟨.n, none, true, [(0, 0)]⟩, ⟨.n, some 1000000, false, [(100000, 100000)]⟩]]),
  (.zero, [
    [⟨.n, none, false, [(0, 0)]⟩]])]

def arabic : Rule := [
  (.few, [
    [⟨.n, some 100, false, [(3, 10)]⟩]]),
  (.many, [
    [⟨.n, some 100, false, [(11, 99)]⟩]]),
  (.one, [
    [⟨.n, none, false, [(1, 1)]⟩]]),
  (.two, [
    [⟨.n, none, false, [(2, 2)]⟩]]),
  (.zero, [
    [⟨.n, none, false, [(0, 0)]⟩]])]

def welsh : Rule := [
  (.few, [
    [⟨.n, none, false, [(3, 3)]⟩]]),
  (.many, [
    [⟨.n, none, false, [(6, 6)]⟩]]),
  (.one, [
    [⟨.n, none, false, [(1, 1)]⟩]]),
  (.two, [
    [⟨.n, none, false, [(2, 2)]⟩]]),
  (.zero, [
    [⟨.n, none, false, [(0, 0)]⟩]])]

/-- Languages with their rule for counts. -/
def table : List (List String × Rule) := [
  (["ast", "de", "en", "et", "fi", "fy", "gl", "ia", "ie", "io", "lij", "nl", "sc", "sv", "sw",
    "ur", "yi"], english),
  (["af", "an", "asa", "az", "bal", "bem", "bez", "bg", "brx", "ce", "cgg", "chr", "ckb", "dv",
    "ee", "el", "eo", "eu", "fo", "fur", "gsw", "ha", "haw", "hu", "jgo", "jmc", "ka", "kaj",
    "kcg", "kk", "kkj", "kl", "ks", "ksb", "ku", "ky", "lb", "lg", "mas", "mgo", "ml", "mn", "mr",
    "nb", "nd", "ne", "nn", "nnh", "no", "nr", "ny", "nyn", "om", "or", "os", "pap", "ps", "rm",
    "rof", "rwk", "saq", "sd", "sdh", "seh", "sn", "so", "sq", "ss", "ssy", "st", "syr", "ta",
    "te", "teo", "tig", "tk", "tn", "tr", "ts", "ug", "uz", "ve", "vo", "vun", "wae", "xh",
    "xog"], afrikaans),
  (["am", "as", "bn", "doi", "fa", "gu", "hi", "kn", "kok", "pcm", "zu"], hindi),
  (["ff", "hy", "kab"], armenian),
  (["ak", "bho", "csw", "ln", "mg", "nso", "pa", "ti", "wa"], akan),
  (["si"], sinhala),
  (["tzm"], tamazight),
  (["da"], danish),
  (["is"], icelandic),
  (["mk"], macedonian),
  (["ceb", "fil"], filipino),
  (["lv", "prg"], latvian),
  (["lag"], langi),
  (["blo", "ksh"], colognian),
  (["he"], hebrew),
  (["iu", "naq", "sat", "se", "sma", "smj", "smn", "sms"], inuktitut),
  (["shi"], tachelhit),
  (["ro"], romanian),
  (["bs", "hr", "sr"], serbian),
  (["fr"], french),
  (["pt"], portuguese),
  (["ca", "it", "lld", "scn", "vec"], italian),
  (["es"], spanish),
  (["gd"], gaelic),
  (["sl"], slovenian),
  (["dsb", "hsb"], sorbian),
  (["cs", "sk"], czech),
  (["pl"], polish),
  (["be"], belarusian),
  (["lt"], lithuanian),
  (["ru", "uk"], russian),
  (["sgs"], samogitian),
  (["br"], breton),
  (["mt"], maltese),
  (["ga"], irish),
  (["gv"], manx),
  (["kw"], cornish),
  (["ar"], arabic),
  (["cy"], welsh)]

/-- The rule of a locale for counts. Portuguese counts as in Brazil where no territory is named, and as
Italian in the others. -/
def ofName (name : Locale.Name) : Rule :=
  if name.language = "pt" && name.territory.any (· ≠ "BR") then italian
  else ruleIn table name.language

end Phrasebook.Plural.Cardinal

/-! ### Ranks -/

namespace Phrasebook.Plural.Ordinal

def filipino : Rule := [
  (.one, [
    [⟨.n, none, false, [(1, 1)]⟩]])]

def swedish : Rule := [
  (.one, [
    [⟨.n, some 10, false, [(1, 1), (2, 2)]⟩, ⟨.n, some 100, true, [(11, 11), (12, 12)]⟩]])]

def hungarian : Rule := [
  (.one, [
    [⟨.n, none, false, [(1, 1), (5, 5)]⟩]])]

def nepali : Rule := [
  (.one, [
    [⟨.n, none, false, [(1, 4)]⟩]])]

def belarusian : Rule := [
  (.few, [
    [⟨.n, some 10, false, [(2, 2), (3, 3)]⟩, ⟨.n, some 100, true, [(12, 12), (13, 13)]⟩]])]

def ukrainian : Rule := [
  (.few, [
    [⟨.n, some 10, false, [(3, 3)]⟩, ⟨.n, some 100, true, [(13, 13)]⟩]])]

def turkmen : Rule := [
  (.few, [
    [⟨.n, some 10, false, [(6, 6), (9, 9)]⟩],
    [⟨.n, none, false, [(10, 10)]⟩]])]

def kazakh : Rule := [
  (.many, [
    [⟨.n, some 10, false, [(6, 6)]⟩],
    [⟨.n, some 10, false, [(9, 9)]⟩],
    [⟨.n, some 10, false, [(0, 0)]⟩, ⟨.n, none, true, [(0, 0)]⟩]])]

def italian : Rule := [
  (.many, [
    [⟨.n, none, false, [(11, 11), (8, 8), (80, 80), (800, 800)]⟩]])]

def ligurian : Rule := [
  (.many, [
    [⟨.n, none, false, [(11, 11), (8, 8), (80, 89), (800, 899)]⟩]])]

def georgian : Rule := [
  (.many, [
    [⟨.i, none, false, [(0, 0)]⟩],
    [⟨.i, some 100, false, [(2, 20), (40, 40), (60, 60), (80, 80)]⟩]]),
  (.one, [
    [⟨.i, none, false, [(1, 1)]⟩]])]

def albanian : Rule := [
  (.many, [
    [⟨.n, some 10, false, [(4, 4)]⟩, ⟨.n, some 100, true, [(14, 14)]⟩]]),
  (.one, [
    [⟨.n, none, false, [(1, 1)]⟩]])]

def cornish : Rule := [
  (.many, [
    [⟨.n, none, false, [(5, 5)]⟩],
    [⟨.n, some 100, false, [(5, 5)]⟩]]),
  (.one, [
    [⟨.n, none, false, [(1, 4)]⟩],
    [⟨.n, some 100, false, [(1, 4), (21, 24), (41, 44), (61, 64), (81, 84)]⟩]])]

def anii : Rule := [
  (.few, [
    [⟨.i, none, false, [(2, 2), (3, 3), (4, 4), (5, 5), (6, 6)]⟩]]),
  (.one, [
    [⟨.i, none, false, [(1, 1)]⟩]]),
  (.zero, [
    [⟨.i, none, false, [(0, 0)]⟩]])]

def english : Rule := [
  (.few, [
    [⟨.n, some 10, false, [(3, 3)]⟩, ⟨.n, some 100, true, [(13, 13)]⟩]]),
  (.one, [
    [⟨.n, some 10, false, [(1, 1)]⟩, ⟨.n, some 100, true, [(11, 11)]⟩]]),
  (.two, [
    [⟨.n, some 10, false, [(2, 2)]⟩, ⟨.n, some 100, true, [(12, 12)]⟩]])]

def marathi : Rule := [
  (.few, [
    [⟨.n, none, false, [(4, 4)]⟩]]),
  (.one, [
    [⟨.n, none, false, [(1, 1)]⟩]]),
  (.two, [
    [⟨.n, none, false, [(2, 2), (3, 3)]⟩]])]

def gaelic : Rule := [
  (.few, [
    [⟨.n, none, false, [(3, 3), (13, 13)]⟩]]),
  (.one, [
    [⟨.n, none, false, [(1, 1), (11, 11)]⟩]]),
  (.two, [
    [⟨.n, none, false, [(2, 2), (12, 12)]⟩]])]

def catalan : Rule := [
  (.few, [
    [⟨.n, none, false, [(4, 4)]⟩]]),
  (.one, [
    [⟨.n, none, false, [(1, 1), (3, 3)]⟩]]),
  (.two, [
    [⟨.n, none, false, [(2, 2)]⟩]])]

def macedonian : Rule := [
  (.many, [
    [⟨.i, some 10, false, [(7, 7), (8, 8)]⟩, ⟨.i, some 100, true, [(17, 17), (18, 18)]⟩]]),
  (.one, [
    [⟨.i, some 10, false, [(1, 1)]⟩, ⟨.i, some 100, true, [(11, 11)]⟩]]),
  (.two, [
    [⟨.i, some 10, false, [(2, 2)]⟩, ⟨.i, some 100, true, [(12, 12)]⟩]])]

def azerbaijani : Rule := [
  (.few, [
    [⟨.i, some 10, false, [(3, 3), (4, 4)]⟩],
    [
      ⟨.i, some 1000, false, [(100, 100), (200, 200), (300, 300), (400, 400), (500, 500), (600, 600),
        (700, 700), (800, 800), (900, 900)]⟩]]),
  (.many, [
    [⟨.i, none, false, [(0, 0)]⟩],
    [⟨.i, some 10, false, [(6, 6)]⟩],
    [⟨.i, some 100, false, [(40, 40), (60, 60), (90, 90)]⟩]]),
  (.one, [
    [⟨.i, some 10, false, [(1, 1), (2, 2), (5, 5), (7, 7), (8, 8)]⟩],
    [⟨.i, some 100, false, [(20, 20), (50, 50), (70, 70), (80, 80)]⟩]])]

def hindi : Rule := [
  (.few, [
    [⟨.n, none, false, [(4, 4)]⟩]]),
  (.many, [
    [⟨.n, none, false, [(6, 6)]⟩]]),
  (.one, [
    [⟨.n, none, false, [(1, 1)]⟩]]),
  (.two, [
    [⟨.n, none, false, [(2, 2), (3, 3)]⟩]])]

def bengali : Rule := [
  (.few, [
    [⟨.n, none, false, [(4, 4)]⟩]]),
  (.many, [
    [⟨.n, none, false, [(6, 6)]⟩]]),
  (.one, [
    [⟨.n, none, false, [(1, 1), (5, 5), (7, 7), (8, 8), (9, 9), (10, 10)]⟩]]),
  (.two, [
    [⟨.n, none, false, [(2, 2), (3, 3)]⟩]])]

def odia : Rule := [
  (.few, [
    [⟨.n, none, false, [(4, 4)]⟩]]),
  (.many, [
    [⟨.n, none, false, [(6, 6)]⟩]]),
  (.one, [
    [⟨.n, none, false, [(1, 1), (5, 5), (7, 9)]⟩]]),
  (.two, [
    [⟨.n, none, false, [(2, 2), (3, 3)]⟩]])]

def welsh : Rule := [
  (.few, [
    [⟨.n, none, false, [(3, 3), (4, 4)]⟩]]),
  (.many, [
    [⟨.n, none, false, [(5, 5), (6, 6)]⟩]]),
  (.one, [
    [⟨.n, none, false, [(1, 1)]⟩]]),
  (.two, [
    [⟨.n, none, false, [(2, 2)]⟩]]),
  (.zero, [
    [⟨.n, none, false, [(0, 0), (7, 7), (8, 8), (9, 9)]⟩]])]

/-- Languages with their rule for ranks. -/
def table : List (List String × Rule) := [
  (["bal", "fil", "fr", "ga", "hy", "lo", "ms", "ro", "vi"], filipino),
  (["sv"], swedish),
  (["hu"], hungarian),
  (["ne"], nepali),
  (["be"], belarusian),
  (["uk"], ukrainian),
  (["tk"], turkmen),
  (["kk"], kazakh),
  (["it", "lld", "sc", "vec"], italian),
  (["lij", "scn"], ligurian),
  (["ka"], georgian),
  (["sq"], albanian),
  (["kw"], cornish),
  (["blo"], anii),
  (["en"], english),
  (["kok", "mr"], marathi),
  (["gd"], gaelic),
  (["ca"], catalan),
  (["mk"], macedonian),
  (["az"], azerbaijani),
  (["gu", "hi"], hindi),
  (["as", "bn"], bengali),
  (["or"], odia),
  (["cy"], welsh)]

/-- The rule of a locale for ranks. -/
def ofName (name : Locale.Name) : Rule := ruleIn table name.language

end Phrasebook.Plural.Ordinal

/-! ### Known locales -/

namespace Phrasebook.Plural

/-- The rules of the known locales. -/
instance known : Rules where
  rule? name ordinal :=
    ((Locale.Name.read? name).bind Locale.Name.known?).map
      (if ordinal then Ordinal.ofName else Cardinal.ofName)

theorem isCoarse_count (name : Locale.Name) : (Cardinal.ofName name).isCoarse = true := by
  rw [Cardinal.ofName]
  split
  · decide
  · exact isCoarse_ruleIn (by decide) name.language

theorem isCoarse_rank (name : Locale.Name) : (Ordinal.ofName name).isCoarse = true :=
  isCoarse_ruleIn (by decide) name.language

/-- The rules of the known locales take remainders by ten and more only. -/
theorem known_areCoarse : Rules.AreCoarse := by
  intro name ordinal rule given
  obtain ⟨known, -, rfl⟩ := Option.map_eq_some_iff.mp given
  cases ordinal with
  | false => exact isCoarse_count known
  | true => exact isCoarse_rank known

end Phrasebook.Plural

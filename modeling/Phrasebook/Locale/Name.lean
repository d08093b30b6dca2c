import Phrasebook.Text.Split
import Phrasebook.Text.Upper

set_option autoImplicit false

/-!
The names of locales. A name has a language, and a script, a territory and a variant at most. Which
languages are known, and in which territories, is as in the Unicode locale data; script and variant do
not matter for it.
-/
namespace Phrasebook.Locale

/-! ### Reading a name -/

def isLetter (c : Char) : Bool := Text.isWord c && !Text.isDigit c && c ≠ '_'

def isLetters (text : List Char) : Bool := text ≠ [] && text.all isLetter

/-- Removes the script after the language. -/
def dropScript : List (List Char) → List (List Char)
  | part :: rest => if part.length = 4 && isLetters part then rest else part :: rest
  | [] => []

/-- Takes the territory in front: two letters or three digits. -/
def takeTerritory : List (List Char) → Option (List Char) × List (List Char)
  | part :: rest =>
    if (part.length = 2 && isLetters part) || (part.length = 3 && part.all Text.isDigit) then
      (some part, rest)
    else (none, part :: rest)
  | [] => (none, [])

/-- What may be left after the territory: a variant at most. -/
def isVariant : List (List Char) → Bool
  | [] => true
  | [part] =>
    (part.length = 4 && part.head?.any Text.isDigit) || (5 ≤ part.length && part.head?.any isLetter)
  | _ => false

/-- The parts of a name, without what follows a point or an at sign. -/
def nameParts (name : String) : List (List Char) :=
  Text.pieces '_' (Text.cutFirst '.' (Text.cutFirst '@' name.toList).1).1

/-- The language of a locale in small letters, and its territory, if it has one, in capitals. -/
structure Name where
  language : String
  territory : Option String
  deriving DecidableEq, Repr

/-- Reads a name: a language of letters, then a script, a territory and a variant at most, parted by
underscores. -/
def Name.read? (name : String) : Option Name :=
  match nameParts name with
  | language :: rest =>
    let (territory, rest) := takeTerritory (dropScript rest)
    if isLetters language && isVariant rest then
      some ⟨Text.lower (String.ofList language), territory.map (Text.upper ∘ String.ofList)⟩
    else none
  | [] => none

theorem Name.isLetters_of_read? {name : String} (named : (Name.read? name).isSome = true)
    {language : List Char} {rest : List (List Char)} (parts : nameParts name = language :: rest) :
    isLetters language = true := by
  simp only [Name.read?, parts] at named
  split at named
  · rename_i spelled
    exact (Bool.and_eq_true_iff.mp spelled).1
  · cases named

/-! ### Locale data -/

/-- The known languages, each with the territories in which it is known. -/
def languages : List (String × List String) := [
    ("aa", ["DJ", "ER", "ET"]), ("ab", ["GE"]), ("af", ["NA", "ZA"]), ("agq", ["CM"]),
    ("ak", ["GH"]), ("am", ["ET"]), ("an", ["ES"]), ("ann", ["NG"]), ("apc", ["SY"]),
    ("ar", ["001", "AE", "BH", "DJ", "DZ", "EG", "EH", "ER", "IL", "IQ", "JO", "KM", "KW", "LB",
      "LY", "MA", "MR", "OM", "PS", "QA", "SA", "SD", "SO", "SS", "SY", "TD", "TN", "YE"]),
    ("arn", ["CL"]), ("as", ["IN"]), ("asa", ["TZ"]), ("ast", ["ES"]),
    ("az", ["AZ", "IQ", "IR", "TR"]), ("ba", ["RU"]), ("bal", ["PK"]), ("bas", ["CM"]),
    ("be", ["BY"]), ("bem", ["ZM"]), ("bew", ["ID"]), ("bez", ["TZ"]), ("bg", ["BG"]),
    ("bgc", ["IN"]), ("bgn", ["AE", "AF", "IR", "OM", "PK"]), ("bho", ["IN"]), ("blo", ["BJ"]),
    ("blt", ["VN"]), ("bm", ["ML"]), ("bn", ["BD", "IN"]), ("bo", ["CN", "IN"]), ("br", ["FR"]),
    ("brx", ["IN"]), ("bs", ["BA"]), ("bss", ["CM"]), ("byn", ["ER"]),
    ("ca", ["AD", "ES", "FR", "IT"]), ("cad", ["US"]), ("cch", ["NG"]), ("ccp", ["BD", "IN"]),
    ("ce", ["RU"]), ("ceb", ["PH"]), ("cgg", ["UG"]), ("cho", ["US"]), ("chr", ["US"]),
    ("cic", ["US"]), ("ckb", ["IQ", "IR"]), ("co", ["FR"]), ("cs", ["CZ"]), ("csw", ["CA"]),
    ("cu", ["RU"]), ("cv", ["RU"]), ("cy", ["GB"]), ("da", ["DK", "GL"]), ("dav", ["KE"]),
    ("de", ["AT", "BE", "CH", "DE", "IT", "LI", "LU"]), ("dje", ["NE"]), ("doi", ["IN"]),
    ("dsb", ["DE"]), ("dua", ["CM"]), ("dv", ["MV"]), ("dyo", ["SN"]), ("dz", ["BT"]),
    ("ebu", ["KE"]), ("ee", ["GH", "TG"]), ("el", ["CY", "GR"]),
    ("en", ["001", "150", "AE", "AG", "AI", "AS", "AT", "AU", "BB", "BE", "BI", "BM", "BS", "BW",
      "BZ", "CA", "CC", "CH", "CK", "CM", "CX", "CY", "CZ", "DE", "DG", "DK", "DM", "ER", "ES",
      "FI", "FJ", "FK", "FM", "FR", "GB", "GD", "GG", "GH", "GI", "GM", "GS", "GU", "GY", "HK",
      "HU", "ID", "IE", "IL", "IM", "IN", "IO", "IT", "JE", "JM", "KE", "KI", "KN", "KY", "LC",
      "LR", "LS", "MG", "MH", "MO", "MP", "MS", "MT", "MU", "MV", "MW", "MY", "NA", "NF", "NG",
      "NL", "NO", "NR", "NU", "NZ", "PG", "PH", "PK", "PL", "PN", "PR", "PT", "PW", "RO", "RW",
      "SB", "SC", "SD", "SE", "SG", "SH", "SI", "SK", "SL", "SS", "SX", "SZ", "TC", "TK", "TO",
      "TT", "TV", "TZ", "UG", "UM", "US", "VC", "VG", "VI", "VU", "WS", "ZA", "ZM", "ZW"]),
    ("eo", ["001"]),
    ("es", ["419", "AR", "BO", "BR", "BZ", "CL", "CO", "CR", "CU", "DO", "EA", "EC", "ES", "GQ",
      "GT", "HN", "IC", "MX", "NI", "PA", "PE", "PH", "PR", "PY", "SV", "US", "UY", "VE"]),
    ("et", ["EE"]), ("eu", ["ES"]), ("ewo", ["CM"]), ("fa", ["AF", "IR"]),
    ("ff", ["BF", "CM", "GH", "GM", "GN", "GW", "LR", "MR", "NE", "NG", "SL", "SN"]),
    ("fi", ["FI"]), ("fil", ["PH"]), ("fo", ["DK", "FO"]),
    ("fr", ["BE", "BF", "BI", "BJ", "BL", "CA", "CD", "CF", "CG", "CH", "CI", "CM", "DJ", "DZ",
      "FR", "GA", "GF", "GN", "GP", "GQ", "HT", "KM", "LU", "MA", "MC", "MF", "MG", "ML", "MQ",
      "MR", "MU", "NC", "NE", "PF", "PM", "RE", "RW", "SC", "SN", "SY", "TD", "TG", "TN", "VU",
      "WF", "YT"]), ("frr", ["DE"]), ("fur", ["IT"]), ("fy", ["NL"]), ("ga", ["GB", "IE"]),
    ("gaa", ["GH"]), ("gd", ["GB"]), ("gez", ["ER", "ET"]), ("gl", ["ES"]), ("gn", ["PY"]),
    ("gsw", ["CH", "FR", "LI"]), ("gu", ["IN"]), ("guz", ["KE"]), ("gv", ["IM"]),
    ("ha", ["GH", "NE", "NG", "SD"]), ("haw", ["US"]), ("he", ["IL"]), ("hi", ["IN"]),
    ("hnj", ["US"]), ("hr", ["BA", "HR"]), ("hsb", ["DE"]), ("ht", ["HT"]), ("hu", ["HU"]),
    ("hy", ["AM"]), ("ia", ["001"]), ("id", ["ID"]), ("ie", ["EE"]), ("ig", ["NG"]),
    ("ii", ["CN"]), ("io", ["001"]), ("is", ["IS"]), ("it", ["CH", "IT", "SM", "VA"]),
    ("iu", ["CA"]), ("ja", ["JP"]), ("jbo", ["001"]), ("jgo", ["CM"]), ("jmc", ["TZ"]),
    ("jv", ["ID"]), ("ka", ["GE"]), ("kaa", ["UZ"]), ("kab", ["DZ"]), ("kaj", ["NG"]),
    ("kam", ["KE"]), ("kcg", ["NG"]), ("kde", ["TZ"]), ("kea", ["CV"]), ("ken", ["CM"]),
    ("kgp", ["BR"]), ("khq", ["ML"]), ("ki", ["KE"]), ("kk", ["CN", "KZ"]), ("kkj", ["CM"]),
    ("kl", ["GL"]), ("kln", ["KE"]), ("km", ["KH"]), ("kn", ["IN"]), ("ko", ["CN", "KP", "KR"]),
    ("kok", ["IN"]), ("kpe", ["GN", "LR"]), ("ks", ["IN"]), ("ksb", ["TZ"]), ("ksf", ["CM"]),
    ("ksh", ["DE"]), ("ku", ["IQ", "IR", "TR"]), ("kw", ["GB"]), ("kxv", ["IN"]), ("ky", ["KG"]),
    ("la", ["VA"]), ("lag", ["TZ"]), ("lb", ["LU"]), ("lg", ["UG"]), ("lij", ["IT"]),
    ("lkt", ["US"]), ("lld", ["IT"]), ("lmo", ["IT"]), ("ln", ["AO", "CD", "CF", "CG"]),
    ("lo", ["LA"]), ("lrc", ["IQ", "IR"]), ("lt", ["LT"]), ("ltg", ["LV"]), ("lu", ["CD"]),
    ("luo", ["KE"]), ("luy", ["KE"]), ("lv", ["LV"]), ("mai", ["IN"]), ("mas", ["KE", "TZ"]),
    ("mdf", ["RU"]), ("mer", ["KE"]), ("mfe", ["MU"]), ("mg", ["MG"]), ("mgh", ["MZ"]),
    ("mgo", ["CM"]), ("mhn", ["IT"]), ("mi", ["NZ"]), ("mic", ["CA"]), ("mk", ["MK"]),
    ("ml", ["IN"]), ("mn", ["CN", "MN"]), ("mni", ["IN"]), ("moh", ["CA"]), ("mr", ["IN"]),
    ("ms", ["BN", "ID", "MY", "SG"]), ("mt", ["MT"]), ("mua", ["CM"]), ("mus", ["US"]),
    ("my", ["MM"]), ("myv", ["RU"]), ("mzn", ["IR"]), ("naq", ["NA"]), ("nb", ["NO", "SJ"]),
    ("nd", ["ZW"]), ("nds", ["DE", "NL"]), ("ne", ["IN", "NP"]),
    ("nl", ["AW", "BE", "BQ", "CW", "NL", "SR", "SX"]), ("nmg", ["CM"]), ("nn", ["NO"]),
    ("nnh", ["CM"]), ("no", []), ("nqo", ["GN"]), ("nr", ["ZA"]), ("nso", ["ZA"]), ("nus", ["SS"]),
    ("nv", ["US"]), ("ny", ["MW"]), ("nyn", ["UG"]), ("oc", ["ES", "FR"]), ("om", ["ET", "KE"]),
    ("or", ["IN"]), ("os", ["GE", "RU"]), ("osa", ["US"]), ("pa", ["IN", "PK"]),
    ("pap", ["AW", "CW"]), ("pcm", ["NG"]), ("pis", ["SB"]), ("pl", ["PL"]), ("prg", ["PL"]),
    ("ps", ["AF", "PK"]),
    ("pt", ["AO", "BR", "CH", "CV", "GQ", "GW", "LU", "MO", "MZ", "PT", "ST", "TL"]),
    ("qu", ["BO", "EC", "PE"]), ("quc", ["GT"]), ("raj", ["IN"]), ("rhg", ["BD", "MM"]),
    ("rif", ["MA"]), ("rm", ["CH"]), ("rn", ["BI"]), ("ro", ["MD", "RO"]), ("rof", ["TZ"]),
    ("root", []), ("ru", ["BY", "KG", "KZ", "MD", "RU", "UA"]), ("rw", ["RW"]), ("rwk", ["TZ"]),
    ("sa", ["IN"]), ("sah", ["RU"]), ("saq", ["KE"]), ("sat", ["IN"]), ("sbp", ["TZ"]),
    ("sc", ["IT"]), ("scn", ["IT"]), ("sd", ["IN", "PK"]), ("sdh", ["IQ", "IR"]),
    ("se", ["FI", "NO", "SE"]), ("seh", ["MZ"]), ("ses", ["ML"]), ("sg", ["CF"]), ("sgs", ["LT"]),
    ("shi", ["MA"]), ("shn", ["MM", "TH"]), ("si", ["LK"]), ("sid", ["ET"]), ("sk", ["SK"]),
    ("skr", ["PK"]), ("sl", ["SI"]), ("sma", ["NO", "SE"]), ("smj", ["NO", "SE"]), ("smn", ["FI"]),
    ("sms", ["FI"]), ("sn", ["ZW"]), ("so", ["DJ", "ET", "KE", "SO"]), ("sq", ["AL", "MK", "XK"]),
    ("sr", ["BA", "ME", "RS", "XK"]), ("ss", ["SZ", "ZA"]), ("ssy", ["ER"]), ("st", ["LS", "ZA"]),
    ("su", ["ID"]), ("sv", ["AX", "FI", "SE"]), ("sw", ["CD", "KE", "TZ", "UG"]),
    ("syr", ["IQ", "SY"]), ("szl", ["PL"]), ("ta", ["IN", "LK", "MY", "SG"]), ("te", ["IN"]),
    ("teo", ["KE", "UG"]), ("tg", ["TJ"]), ("th", ["TH"]), ("ti", ["ER", "ET"]), ("tig", ["ER"]),
    ("tk", ["TM"]), ("tn", ["BW", "ZA"]), ("to", ["TO"]), ("tok", ["001"]), ("tpi", ["PG"]),
    ("tr", ["CY", "TR"]), ("trv", ["TW"]), ("trw", ["PK"]), ("ts", ["ZA"]), ("tt", ["RU"]),
    ("twq", ["NE"]), ("tyv", ["RU"]), ("tzm", ["MA"]), ("ug", ["CN"]), ("uk", ["UA"]),
    ("ur", ["IN", "PK"]), ("uz", ["AF", "UZ"]), ("vai", ["LR"]), ("ve", ["ZA"]), ("vec", ["IT"]),
    ("vi", ["VN"]), ("vmw", ["MZ"]), ("vo", ["001"]), ("vun", ["TZ"]), ("wa", ["BE"]),
    ("wae", ["CH"]), ("wal", ["ET"]), ("wbp", ["AU"]), ("wo", ["SN"]), ("xh", ["ZA"]),
    ("xnr", ["IN"]), ("xog", ["UG"]), ("yav", ["CM"]), ("yi", ["UA"]), ("yo", ["BJ", "NG"]),
    ("yrl", ["BR", "CO", "VE"]), ("yue", ["CN", "HK", "MO"]), ("za", ["CN"]), ("zgh", ["MA"]),
    ("zh", ["CN", "HK", "MO", "MY", "SG", "TW"]), ("zu", ["ZA"])]

/-- Codes that stand for the language of another code. -/
def languageAliases : List (String × String) := [
    ("iw", "he"), ("in", "id"), ("ji", "yi"), ("jw", "jv"), ("mo", "ro"), ("tl", "fil"),
    ("und", "en"), ("tw", "ak"), ("aar", "aa"), ("abk", "ab"), ("afr", "af"), ("aka", "ak"),
    ("amh", "am"), ("ara", "ar"), ("arg", "an"), ("asm", "as"), ("aze", "az"), ("bak", "ba"),
    ("bam", "bm"), ("bel", "be"), ("ben", "bn"), ("bod", "bo"), ("bos", "bs"), ("bre", "br"),
    ("bul", "bg"), ("cat", "ca"), ("ces", "cs"), ("che", "ce"), ("chu", "cu"), ("chv", "cv"),
    ("cor", "kw"), ("cos", "co"), ("cym", "cy"), ("dan", "da"), ("deu", "de"), ("div", "dv"),
    ("dzo", "dz"), ("ell", "el"), ("eng", "en"), ("epo", "eo"), ("est", "et"), ("eus", "eu"),
    ("ewe", "ee"), ("fao", "fo"), ("fas", "fa"), ("fin", "fi"), ("fra", "fr"), ("fry", "fy"),
    ("ful", "ff"), ("gla", "gd"), ("gle", "ga"), ("glg", "gl"), ("glv", "gv"), ("grn", "gn"),
    ("guj", "gu"), ("hat", "ht"), ("hau", "ha"), ("heb", "he"), ("hin", "hi"), ("hrv", "hr"),
    ("hun", "hu"), ("hye", "hy"), ("ibo", "ig"), ("ido", "io"), ("iii", "ii"), ("iku", "iu"),
    ("ile", "ie"), ("ina", "ia"), ("ind", "id"), ("isl", "is"), ("ita", "it"), ("jav", "jv"),
    ("jpn", "ja"), ("kal", "kl"), ("kan", "kn"), ("kas", "ks"), ("kat", "ka"), ("kaz", "kk"),
    ("khm", "km"), ("kik", "ki"), ("kin", "rw"), ("kir", "ky"), ("kor", "ko"), ("kur", "ku"),
    ("lao", "lo"), ("lat", "la"), ("lav", "lv"), ("lin", "ln"), ("lit", "lt"), ("ltz", "lb"),
    ("lub", "lu"), ("lug", "lg"), ("mal", "ml"), ("mar", "mr"), ("mkd", "mk"), ("mlg", "mg"),
    ("mlt", "mt"), ("mon", "mn"), ("mri", "mi"), ("msa", "ms"), ("mya", "my"), ("nav", "nv"),
    ("nbl", "nr"), ("nde", "nd"), ("nep", "ne"), ("nld", "nl"), ("nno", "nn"), ("nob", "nb"),
    ("nor", "no"), ("nya", "ny"), ("oci", "oc"), ("ori", "or"), ("orm", "om"), ("oss", "os"),
    ("pan", "pa"), ("pol", "pl"), ("por", "pt"), ("pus", "ps"), ("que", "qu"), ("roh", "rm"),
    ("ron", "ro"), ("run", "rn"), ("rus", "ru"), ("sag", "sg"), ("san", "sa"), ("sin", "si"),
    ("slk", "sk"), ("slv", "sl"), ("sme", "se"), ("sna", "sn"), ("snd", "sd"), ("som", "so"),
    ("sot", "st"), ("spa", "es"), ("sqi", "sq"), ("srd", "sc"), ("srp", "sr"), ("ssw", "ss"),
    ("sun", "su"), ("swa", "sw"), ("swe", "sv"), ("tam", "ta"), ("tat", "tt"), ("tel", "te"),
    ("tgk", "tg"), ("tgl", "fil"), ("tha", "th"), ("tir", "ti"), ("ton", "to"), ("tsn", "tn"),
    ("tso", "ts"), ("tuk", "tk"), ("tur", "tr"), ("twi", "ak"), ("uig", "ug"), ("ukr", "uk"),
    ("urd", "ur"), ("uzb", "uz"), ("ven", "ve"), ("vie", "vi"), ("vol", "vo"), ("wln", "wa"),
    ("wol", "wo"), ("xho", "xh"), ("yid", "yi"), ("yor", "yo"), ("zha", "za"), ("zho", "zh"),
    ("zul", "zu"), ("alb", "sq"), ("arm", "hy"), ("baq", "eu"), ("bur", "my"), ("chi", "zh"),
    ("cze", "cs"), ("dut", "nl"), ("fre", "fr"), ("geo", "ka"), ("ger", "de"), ("gre", "el"),
    ("ice", "is"), ("mac", "mk"), ("mao", "mi"), ("may", "ms"), ("per", "fa"), ("rum", "ro"),
    ("slo", "sk"), ("tib", "bo"), ("wel", "cy"), ("arb", "ar"), ("azj", "az"), ("cmn", "zh"),
    ("ekk", "et"), ("gug", "gn"), ("khk", "mn"), ("kmr", "ku"), ("lvs", "lv"), ("npi", "ne"),
    ("ory", "or"), ("pes", "fa"), ("plt", "mg"), ("swh", "sw"), ("uzn", "uz"), ("ydd", "yi"),
    ("zsm", "ms")]

/-- Codes that stand for the territory of another code. -/
def territoryAliases : List (String × String) := [
    ("BU", "MM"), ("CS", "RS"), ("DD", "DE"), ("DY", "BJ"), ("FX", "FR"), ("HV", "BF"),
    ("NH", "VU"), ("NT", "SA"), ("RH", "ZW"), ("SU", "RU"), ("TP", "TL"), ("UK", "GB"),
    ("VD", "VN"), ("YD", "YE"), ("YU", "RS"), ("ZR", "CD")]

/-- The name with the codes that are in use, if its language is known, and in its territory. -/
def Name.known? (name : Name) : Option Name :=
  let language := (languageAliases.lookup name.language).getD name.language
  let territory := name.territory.map fun code => (territoryAliases.lookup code).getD code
  match languages.lookup language with
  | none => none
  | some territories =>
    if territory.all territories.contains then some ⟨language, territory⟩ else none

end Phrasebook.Locale

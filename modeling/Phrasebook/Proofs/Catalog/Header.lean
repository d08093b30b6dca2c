import Phrasebook.Proofs.Catalog.Loaded
import Phrasebook.Proofs.Number.Digits
import Phrasebook.Proofs.Text.Pieces
import Phrasebook.Proofs.Text.Trim

set_option autoImplicit false

/-!
The text of a header says what the header says, if the name of its locale is one that a field can
hold.
-/
namespace Phrasebook

open Outcome (bind_eq_ok)

/-! ### Numbers -/

namespace Number

theorem digits_trim (n : Nat) : Text.Trim Text.isBlank (digits n) :=
  .of_all fun _ member => not_blank_of_plain (plain_of_mem_digits member)

theorem asciiForm_digits (n : Nat) : Double.asciiForm (digits n) = digits n := by
  have plain : ∀ form : Char → Char, (∀ c, c.toNat < 0x80 → form c = c) →
      (digits n).map form = digits n := by
    intro form ascii
    have same : ∀ c ∈ digits n, form c = c := by
      intro c member
      have bounds := Text.isDigit_iff.mp (plain_of_mem_digits member)
      exact ascii c (by omega)
    rw [List.map_congr_left same, List.map_id']
  rw [Double.asciiForm, plain _ fun c small => if_pos small]
  exact (digits_trim n).ends

theorem dropUnderscores_digits {digits : List Char} (plain : ∀ c ∈ digits, c.isDigit = true)
    (previous : Option Char) : Double.dropUnderscores previous digits = some digits := by
  induction digits generalizing previous with
  | nil => rfl
  | cons c rest ih =>
    have apart : c ≠ '_' := by
      rintro rfl
      exact absurd (plain '_' List.mem_cons_self) (by decide)
    have later := ih (fun d member => plain d (List.mem_cons_of_mem _ member)) (some c)
    unfold Double.dropUnderscores
    split
    · contradiction
    · rename_i same
      cases same
      exact absurd rfl apart
    · rename_i same
      cases same
      rw [later]
      rfl

theorem splitSign_digits {digits : List Char} (plain : ∀ c ∈ digits, c.isDigit = true) :
    Decimal.splitSign digits = (false, digits) := by
  unfold Decimal.splitSign
  split
  · exact absurd (plain '-' List.mem_cons_self) (by decide)
  · exact absurd (plain '+' List.mem_cons_self) (by decide)
  · rfl

/-- The digits of a number that is not too long are read as the number. -/
theorem readInt?_digits {n : Nat} (fits : digitCount n ≤ digitLimit) :
    readInt? (digits n) = some n := by
  have plain : ∀ c ∈ digits n, c.isDigit = true := fun _ => plain_of_mem_digits
  have whole : digits n ≠ [] ∧ (digits n).all Char.isDigit = true ∧
      (digits n).length ≤ digitLimit :=
    ⟨digits_ne_nil n, List.all_eq_true.mpr plain, fits⟩
  rw [readInt?, asciiForm_digits, dropUnderscores_digits plain]
  dsimp only [Option.bind_eq_bind, Option.bind_some]
  rw [splitSign_digits plain]
  dsimp only
  rw [if_pos whole, ofDigits_digits]
  rfl

/-- A number that is read is not too long. -/
theorem digitCount_of_readInt? {text : List Char} {n : Int} (read : readInt? text = some n) :
    digitCount n.toNat ≤ digitLimit := by
  rw [readInt?] at read
  obtain ⟨plain, -, split⟩ := Option.bind_eq_some_iff.mp read
  dsimp only at split
  by_cases whole : (Decimal.splitSign plain).2 ≠ [] ∧
      (Decimal.splitSign plain).2.all Char.isDigit = true ∧
      (Decimal.splitSign plain).2.length ≤ digitLimit
  · rw [if_pos whole] at split
    cases split
    have below := ofDigits_lt (List.all_eq_true.mp whole.2.1)
    have value : (Decimal.signed (Decimal.splitSign plain).1
        (ofDigits (Decimal.splitSign plain).2)).toNat ≤ ofDigits (Decimal.splitSign plain).2 := by
      rw [Decimal.signed]
      split <;> omega
    rw [digitCount_le_iff (by decide)]
    calc _ ≤ ofDigits (Decimal.splitSign plain).2 := value
      _ < 10 ^ (Decimal.splitSign plain).2.length := below
      _ ≤ 10 ^ digitLimit := Nat.pow_le_pow_right (by decide) whole.2.2
  · rw [if_neg whole] at split
    cases split

end Number

namespace Catalog

/-! ### Fields -/

/-- The name of a locale as a field gives it: without hyphens. -/
def underscored (name : String) : String :=
  String.ofList (name.toList.map fun c => if c = '-' then '_' else c)

theorem toList_underscored (name : String) :
    (underscored name).toList = name.toList.map fun c => if c = '-' then '_' else c :=
  String.toList_ofList

theorem underscored_underscored (name : String) : underscored (underscored name) = underscored name := by
  have same : ∀ c ∈ (underscored name).toList, (if c = '-' then '_' else c) = c := by
    intro c member
    rw [toList_underscored] at member
    obtain ⟨d, -, rfl⟩ := List.mem_map.mp member
    by_cases hyphen : d = '-'
    · rw [if_pos hyphen]
      rfl
    · rw [if_neg hyphen, if_neg hyphen]
  rw [underscored, List.map_congr_left same, List.map_id', String.ofList_toList]

theorem lineFeed_underscored {name : String} (oneLine : '\n' ∉ name.toList) :
    '\n' ∉ (underscored name).toList := by
  rw [toList_underscored]
  intro member
  obtain ⟨c, known, same⟩ := List.mem_map.mp member
  split at same
  · exact absurd same (by decide)
  · exact oneLine (same ▸ known)

namespace Header

/-- A header that can be written and read again. -/
structure IsSteady (header : Header) : Prop where
  oneLine : '\n' ∉ header.locale.toList
  named : isLocaleName (underscored header.locale) = true
  counted : Number.digitCount header.formCount ≤ Number.digitLimit

/-- A header as it is read after it has been written. -/
def asRead (header : Header) : Header where
  locale := underscored header.locale
  forms := some header.formCount
  charset := header.charset

theorem cutFirst_begins (mark : Char) (text : List Char) :
    (Text.cutFirst mark text).1 <+: text := by
  induction text with
  | nil => exact List.prefix_refl _
  | cons c rest ih =>
    rw [Text.cutFirst]
    split
    · exact List.nil_prefix
    · exact List.cons_prefix_cons.mpr ⟨rfl, ih⟩

theorem mem_of_mem_cutFirst {mark : Char} {text before after : List Char} {c : Char}
    (cut : Text.cutFirst mark text = (before, some after)) (member : c ∈ after) : c ∈ text := by
  induction text generalizing before with
  | nil => cases cut
  | cons d rest ih =>
    rw [Text.cutFirst] at cut
    split at cut
    · cases cut
      exact List.mem_cons_of_mem _ member
    · obtain ⟨-, same⟩ := Prod.mk.inj cut
      exact List.mem_cons_of_mem _ (ih (Prod.ext rfl same))

theorem pieces_begins (mark : Char) (text : List Char) :
    ∃ first more, Text.pieces mark text = first :: more ∧ first <+: text := by
  induction text with
  | nil => exact ⟨[], [], rfl, List.prefix_refl _⟩
  | cons c rest ih =>
    obtain ⟨first, more, cut, start⟩ := ih
    rw [Text.pieces]
    split
    · exact ⟨[], _, rfl, List.nil_prefix⟩
    · rw [cut]
      exact ⟨c :: first, more, rfl, List.cons_prefix_cons.mpr ⟨rfl, start⟩⟩

/-- A name starts with a letter. -/
theorem head_of_isLocaleName {name : String} (named : isLocaleName name = true) :
    ∃ c rest, name.toList = c :: rest ∧ Locale.isLetter c = true := by
  obtain ⟨language, more, cut, start⟩ :=
    pieces_begins '_' (Text.cutFirst '.' (Text.cutFirst '@' name.toList).1).1
  obtain ⟨rest, whole⟩ : language <+: name.toList :=
    (start.trans (cutFirst_begins _ _)).trans (cutFirst_begins _ _)
  have parts : Locale.nameParts name = language :: more := cut
  have letters := Locale.Name.isLetters_of_read? named parts
  cases language with
  | nil => simp [Locale.isLetters] at letters
  | cons c language =>
    refine ⟨c, language ++ rest, whole.symm, ?_⟩
    rw [Locale.isLetters, Bool.and_eq_true] at letters
    exact List.all_eq_true.mp letters.2 c List.mem_cons_self

/-- The name of a locale stands in a field without blanks before it. -/
theorem IsSteady.skips {header : Header} (steady : header.IsSteady) :
    (' ' :: header.locale.toList).dropWhile (fun c => c = ' ' || c = '\t') =
      header.locale.toList := by
  obtain ⟨c, rest, whole, letter⟩ := head_of_isLocaleName steady.named
  rw [List.dropWhile_cons_of_pos (by decide)]
  apply Text.dropWhile_of_head
  intro d first
  -- the letter is none that replaces another one
  rw [toList_underscored] at whole
  cases chars : header.locale.toList with
  | nil =>
    rw [chars] at whole
    cases whole
  | cons e more =>
    rw [chars] at whole first
    cases first
    have same : (if d = '-' then '_' else d) = c := (List.cons.inj whole).1
    have space : d ≠ ' ' := by
      rintro rfl
      rw [← same] at letter
      exact absurd letter (by decide)
    have tab : d ≠ '\t' := by
      rintro rfl
      rw [← same] at letter
      exact absurd letter (by decide)
    simp [space, tab]

/-! ### The three fields -/

theorem field?_colon {name : List Char} (some : name ≠ []) (plain : name.all isNameChar = true)
    (value : List Char) : field? (name ++ ':' :: value) =
      .some (name.map Char.toLower, value.dropWhile fun c => c = ' ' || c = '\t') := by
  have whole : ':' ∉ name := by
    intro member
    exact absurd (List.all_eq_true.mp plain _ member) (by decide)
  rw [field?, Text.cutFirst_append whole]
  exact if_pos ⟨some, plain⟩

/-- The field of the first line. -/
theorem fieldsOf_line {name value : List Char} (some : name ≠ [])
    (plain : name.all isNameChar = true) (oneLine : '\n' ∉ value)
    (skips : (' ' :: value).dropWhile (fun c => c = ' ' || c = '\t') = value) (more : List Char) :
    fieldsOf (Text.pieces '\n' (name ++ ':' :: ' ' :: value ++ '\n' :: more)) =
      (name.map Char.toLower, value) :: fieldsOf (Text.pieces '\n' more) := by
  have line : '\n' ∉ name ++ ':' :: ' ' :: value := by
    simp only [List.mem_append, List.mem_cons, not_or]
    refine ⟨fun member => ?_, by decide, by decide, oneLine⟩
    exact absurd (List.all_eq_true.mp plain _ member) (by decide)
  rw [Text.pieces_append line, fieldsOf, field?_colon some plain, skips]

theorem parameter?_first {name value : List Char} (whole : '=' ∉ name) (word : ';' ∉ name)
    (last : ';' ∉ value) (nameTrim : Text.Trim Text.isBlank name)
    (trim : Text.Trim Text.isBlank value) (bare : Text.Trim (· = '"') value) (key : String)
    (same : name.map Char.toLower = key.toList) :
    parameter? key (name ++ '=' :: value ++ [';']) = some value := by
  have part : ';' ∉ name ++ '=' :: value := by
    simp only [List.mem_append, List.mem_cons, not_or]
    exact ⟨word, by decide, last⟩
  have strippedName : Text.stripped name = name := nameTrim.trimmed_eq
  have strippedValue : Text.stripped value = value := trim.trimmed_eq
  have meant : Text.trimmed (fun c => decide (c = '"')) value = value := bare.trimmed_eq
  rw [parameter?, parameters, Text.pieces_append part, List.map_cons, Text.cutFirst_append whole]
  dsimp only
  rw [strippedName, strippedValue, meant, same, List.lookup_cons_self]

/-- The lines of a header's text. -/
theorem toList_text (header : Header) :
    header.text.toList =
      ("Language".toList ++ ':' :: ' ' :: header.locale.toList) ++ '\n' ::
        (("Plural-Forms".toList ++ ':' :: ' ' ::
          ("nplurals".toList ++ '=' :: Number.digits header.formCount ++ [';'])) ++ '\n' ::
        (("Content-Type".toList ++ ':' :: ' ' ::
          ("text/plain; charset=".toList ++ header.charset.name.toList)) ++ '\n' :: [])) := by
  have label : "Language: ".toList = "Language".toList ++ [':', ' '] := rfl
  have count : "Plural-Forms: nplurals=".toList =
    "Plural-Forms".toList ++ [':', ' '] ++ "nplurals".toList ++ ['='] := rfl
  have kind : "Content-Type: text/plain; charset=".toList =
    "Content-Type".toList ++ [':', ' '] ++ "text/plain; charset=".toList := rfl
  have ends : ";\n".toList = [';', '\n'] := rfl
  have last : "\n".toList = ['\n'] := rfl
  delta text
  simp only [String.toList_append, Number.toString_toList, label, count, kind, ends, last,
    List.append_assoc, List.cons_append, List.nil_append]

theorem digits_without {c : Char} (other : c.isDigit = false) (n : Nat) : c ∉ Number.digits n := by
  intro member
  rw [Number.plain_of_mem_digits member] at other
  cases other

theorem parameter?_count (n : Nat) :
    parameter? "nplurals" ("nplurals".toList ++ '=' :: Number.digits n ++ [';']) =
      some (Number.digits n) := by
  have quote : ∀ c ∈ Number.digits n, decide (c = '"') = false := by
    intro c member
    rw [decide_eq_false_iff_not]
    rintro rfl
    exact digits_without (by decide) n member
  exact parameter?_first (by decide) (by decide) (digits_without (by decide) n)
    (by decide) (Number.digits_trim n) (.of_all quote) _ (by decide)

/-- A field that names UTF-8 is read as its name, and the name as the encoding. -/
theorem charset_name [Codecs] {charset : Charset} (unicode : charset.isUtf8 = true) :
    '\n' ∉ charset.name.toList ∧
      parameter? "charset" ("text/plain; charset=".toList ++ charset.name.toList) =
        some charset.name.toList ∧
      Charset.ofName? (String.ofList (charset.name.toList.map Char.toLower)) = some charset := by
  cases charset with
  | other name codec => cases unicode
  | utf8 name known =>
    have plain : '\n' ∉ name.toList ∧
        parameter? "charset" ("text/plain; charset=".toList ++ name.toList) = some name.toList ∧
        String.ofList (name.toList.map Char.toLower) = name := by
      simp only [utf8Names, List.mem_cons, List.not_mem_nil, or_false] at known
      rcases known with rfl | rfl | rfl <;> exact ⟨by decide, by decide, by decide⟩
    refine ⟨plain.1, plain.2.1, ?_⟩
    rw [Charset.name, plain.2.2, Charset.ofName?, dif_pos known]

theorem withField_language [Codecs] (header : Header) {locale : String}
    (named : isLocaleName (underscored locale) = true) :
    header.withField "language" locale.toList =
      .ok { header with locale := underscored locale } := by
  rw [withField, if_pos rfl]
  exact if_pos named

theorem withField_forms [Codecs] (header : Header) {count : Nat}
    (counted : Number.digitCount count ≤ Number.digitLimit) :
    header.withField "plural-forms" ("nplurals".toList ++ '=' :: Number.digits count ++ [';']) =
      .ok { header with forms := some count } := by
  rw [withField, if_neg (by decide), if_neg (by decide), if_pos rfl, parameter?_count]
  dsimp only
  rw [Number.readInt?_digits counted]
  rfl

theorem withField_charset [Codecs] (header : Header) {charset : Charset}
    (unicode : charset.isUtf8 = true) :
    header.withField "content-type" ("text/plain; charset=".toList ++ charset.name.toList) =
      .ok { header with charset := charset } := by
  obtain ⟨-, parameter, known⟩ := charset_name unicode
  rw [withField, if_neg (by decide), if_pos rfl, parameter]
  dsimp only
  rw [known]

/-- The text of a header in UTF-8 is read as the header. -/
theorem read_text [Codecs] (locale : String) {header : Header} (steady : header.IsSteady)
    (unicode : header.charset.isUtf8 = true) :
    (ofLocale locale).read header.text = .ok header.asRead := by
  have counted : '\n' ∉ "nplurals".toList ++ '=' :: Number.digits header.formCount ++ [';'] := by
    simp only [List.mem_append, List.mem_cons, not_or]
    exact ⟨⟨by decide, by decide, digits_without (by decide) _⟩, by decide, List.not_mem_nil⟩
  have typed : '\n' ∉ "text/plain; charset=".toList ++ header.charset.name.toList := by
    rw [List.mem_append, not_or]
    exact ⟨by decide, (charset_name unicode).1⟩
  have language : String.ofList ("Language".toList.map Char.toLower) = "language" := rfl
  have forms : String.ofList ("Plural-Forms".toList.map Char.toLower) = "plural-forms" := rfl
  have kind : String.ofList ("Content-Type".toList.map Char.toLower) = "content-type" := rfl
  have nothing : fieldsOf (Text.pieces '\n' []) = [] := rfl
  rw [read, toList_text header,
    fieldsOf_line (by decide) (by decide) steady.oneLine steady.skips,
    fieldsOf_line (by decide) (by decide) counted rfl,
    fieldsOf_line (by decide) (by decide) typed rfl, nothing]
  simp only [List.foldlM_cons, language, forms, kind, withField_language _ steady.named,
    withField_forms _ steady.counted, withField_charset _ unicode, Outcome.ok_bind]
  rfl

/-- A header that is read again is the same. -/
theorem asRead_asRead (header : Header) : header.asRead.asRead = header.asRead := by
  rw [asRead, asRead]
  simp only [underscored_underscored, formCount, Option.getD_some]

/-! ### Headers that are read -/

/-- The number of forms that a locale has is small. -/
theorem digitCount_formCount (name : String) :
    Number.digitCount (Catalog.formCount name) ≤ Number.digitLimit := by
  have small : ∀ entry ∈ formCounts, entry.1 ≤ 6 := by
    decide
  have few : Catalog.formCount name ≤ 6 := by
    rw [Catalog.formCount]
    split
    · cases found : formCounts.find? _ with
      | none => decide
      | some entry => exact small entry (List.mem_of_find?_eq_some found)
    · decide
  rw [Number.digitCount_le_iff (by decide)]
  calc Catalog.formCount name ≤ 6 := few
    _ < 10 ^ 1 := by decide
    _ ≤ 10 ^ Number.digitLimit := Nat.pow_le_pow_right (by decide) (by decide)

/-- Forms that a header names can be written. -/
theorem digitCount_forms {header : Header}
    (fits : ∀ n, header.forms = some n → Number.digitCount n ≤ Number.digitLimit) :
    Number.digitCount header.formCount ≤ Number.digitLimit := by
  rw [formCount]
  cases known : header.forms with
  | none =>
    rw [Option.getD_none]
    exact digitCount_formCount header.locale
  | some n =>
    rw [Option.getD_some]
    exact fits n known

/-- A name of a locale that a header can hold. -/
def IsFieldName (name : String) : Prop :=
  '\n' ∉ name.toList ∧ isLocaleName (underscored name) = true

/-- What is so of every header that is read for a locale that a header can hold. -/
structure IsSound (header : Header) : Prop where
  named : IsFieldName header.locale
  counted : ∀ n, header.forms = some n → Number.digitCount n ≤ Number.digitLimit

theorem IsSound.steady {header : Header} (sound : header.IsSound) : header.IsSteady :=
  ⟨sound.named.1, sound.named.2, digitCount_forms sound.counted⟩

/-- What one field can change: the locale, the encoding or the number of forms. -/
theorem withField_cases [Codecs] {header last : Header} {name : String} {value : List Char}
    (passed : header.withField name value = .ok last) :
    last = header ∨
      (isLocaleName (underscored (String.ofList value)) = true ∧
        last = { header with locale := underscored (String.ofList value) }) ∨
      (∃ charset, last = { header with charset := charset }) ∨
      ∃ n, Number.digitCount n ≤ Number.digitLimit ∧ last = { header with forms := some n } := by
  have spelled : String.ofList (value.map fun c => if c = '-' then '_' else c) =
      underscored (String.ofList value) := by
    rw [underscored, String.toList_ofList]
  rw [withField, spelled] at passed
  split at passed
  · dsimp only at passed
    split at passed
    · rename_i named
      cases passed
      exact .inr (.inl ⟨named, rfl⟩)
    · cases passed
  split at passed
  · split at passed
    · cases passed
      exact .inl rfl
    · split at passed
      · cases passed
        exact .inr (.inr (.inl ⟨_, rfl⟩))
      · cases passed
  split at passed
  · split at passed
    · cases passed
      exact .inr (.inr (.inr ⟨2, by decide, rfl⟩))
    · split at passed
      · rename_i read
        cases passed
        exact .inr (.inr (.inr ⟨_, Number.digitCount_of_readInt? read, rfl⟩))
      · cases passed
  -- the other fields are only checked
  have same : last = header := by
    split at passed
    · split at passed <;> cases passed
      rfl
    · split at passed
      · split at passed <;> cases passed
        rfl
      · cases passed
        rfl
  exact .inl same

theorem withField_sound [Codecs] {header last : Header} (sound : header.IsSound) {name : String}
    {value : List Char} (oneLine : '\n' ∉ value) (passed : header.withField name value = .ok last) :
    last.IsSound := by
  rcases withField_cases passed with rfl | ⟨named, rfl⟩ | ⟨charset, rfl⟩ | ⟨n, fits, rfl⟩
  · exact sound
  · refine ⟨⟨lineFeed_underscored (by rwa [String.toList_ofList]), ?_⟩, sound.counted⟩
    rw [underscored_underscored]
    exact named
  · exact ⟨sound.named, sound.counted⟩
  · refine ⟨sound.named, fun m known => ?_⟩
    cases known
    exact fits

theorem mem_fieldsOf {lines : List (List Char)} {field : List Char × List Char}
    (member : field ∈ fieldsOf lines) : ∃ line ∈ lines, ∀ c ∈ field.2, c ∈ line := by
  induction lines with
  | nil => cases member
  | cons line rest ih =>
    rw [fieldsOf] at member
    split at member
    · rename_i own read
      rcases List.mem_cons.mp member with rfl | later
      · refine ⟨line, List.mem_cons_self, fun c known => ?_⟩
        rw [field?] at read
        split at read
        · rename_i name value cut
          split at read
          · cases read
            exact mem_of_mem_cutFirst cut ((List.dropWhile_sublist _).subset known)
          · cases read
        · cases read
      · obtain ⟨other, listed, within⟩ := ih later
        exact ⟨other, List.mem_cons_of_mem _ listed, within⟩
    · cases member

theorem read_sound [Codecs] {header last : Header} (sound : header.IsSound) {text : String}
    (passed : header.read text = .ok last) : last.IsSound := by
  have oneLine : ∀ field ∈ fieldsOf (Text.pieces '\n' text.toList), '\n' ∉ field.2 := by
    intro field member present
    obtain ⟨line, listed, within⟩ := mem_fieldsOf member
    exact Text.pieces_noMark '\n' text.toList line listed (within _ present)
  rw [read] at passed
  generalize fieldsOf (Text.pieces '\n' text.toList) = fields at passed oneLine
  induction fields generalizing header with
  | nil =>
    cases passed
    exact sound
  | cons field fields ih =>
    rw [List.foldlM_cons] at passed
    obtain ⟨next, first, later⟩ := bind_eq_ok.mp passed
    exact ih (withField_sound sound (oneLine field List.mem_cons_self) first) later
      fun other member => oneLine other (List.mem_cons_of_mem _ member)

end Header

/-- A header that is read can be written and read again. -/
theorem read_sound [Codecs] {locale : String} (named : Header.IsFieldName locale)
    {bytes : List UInt8} {header : Header} {catalog : Catalog}
    (loaded : read locale bytes = .ok (header, catalog)) :
    header.IsSound := by
  have ends : IsKept fun _ header => header.IsSound := by
    intro reader last before finished
    rw [Reader.finish] at finished
    split at finished
    · cases finished
      exact before
    · obtain ⟨entry, -, placed⟩ := bind_eq_ok.mp finished
      split at placed
      · cases placed
        exact before
      · split at placed
        · obtain ⟨header, stated, done⟩ := bind_eq_ok.mp placed
          cases done
          cases passed : reader.header.read entry.translation.first with
          | error fault =>
            rw [passed] at stated
            cases stated
          | ok read =>
            rw [passed] at stated
            cases stated
            exact Header.read_sound before passed
        · cases placed
          exact before
  exact read_keeps ends ⟨named, fun n known => by cases known⟩ loaded

end Catalog

end Phrasebook

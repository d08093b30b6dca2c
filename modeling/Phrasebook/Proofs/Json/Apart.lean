import Phrasebook.Proofs.Json.Texts
import Phrasebook.Proofs.Number.Digits
import Phrasebook.Proofs.Text.Balanced

set_option autoImplicit false

/-!
Written values are told apart. Where a value ends can be told from its text, so that a text without
doubles is that of one value only, as far as its characters show the texts in it: a code point above
those of Unicode has no character of its own.
-/
namespace Phrasebook

namespace Json

open Text (CodePoints)

/-! ### Telling written values apart -/

mutual

/-- No number in a value is a double. -/
def isWhole : Json → Bool
  | double _ => false
  | array items => areWhole items
  | object entries => haveWhole entries
  | _ => true

def areWhole : List Json → Bool
  | [] => true
  | item :: items => item.isWhole && areWhole items

def haveWhole : List (CodePoints × Json) → Bool
  | [] => true
  | (_, value) :: entries => value.isWhole && haveWhole entries

end

mutual

/-- A value whose texts are those that their characters are. -/
def shown : Json → Json
  | string text => ofString text.shown
  | array items => array (shownItems items)
  | object entries => object (shownEntries entries)
  | value => value

def shownItems : List Json → List Json
  | [] => []
  | item :: items => item.shown :: shownItems items

def shownEntries : List (CodePoints × Json) → List (CodePoints × Json)
  | [] => []
  | (key, value) :: entries => (CodePoints.ofString key.shown, value.shown) :: shownEntries entries

end

theorem areWhole_eq (items : List Json) : areWhole items = items.all isWhole := by
  induction items with
  | nil => rfl
  | cons item items ih => rw [areWhole, ih, List.all_cons]

theorem haveWhole_eq (entries : List (CodePoints × Json)) :
    haveWhole entries = entries.all fun entry => entry.2.isWhole := by
  induction entries with
  | nil => rfl
  | cons entry entries ih => rw [haveWhole, ih, List.all_cons]

theorem shownItems_eq (items : List Json) : shownItems items = items.map shown := by
  induction items with
  | nil => rfl
  | cons item items ih => rw [shownItems, ih, List.map_cons]

@[simp] theorem shown_ofString (text : String) : (ofString text).shown = ofString text :=
  congrArg ofString (CodePoints.shown_ofString text)

/-- What is written of a value, in characters. -/
def chars (level : Nat) (value : Json) : List Char := (written level value).map Char.ofNat

/-- A line end and the indent of a level. -/
def indent (level : Nat) : List Char := '\n' :: List.replicate (2 * level) ' '

theorem map_newLine (level : Nat) : (newLine level).map Char.ofNat = indent level := by
  rw [newLine, List.map_cons, List.map_replicate]
  rfl

/-- After a value comes a comma, a line end, or nothing. -/
def Ends (rest : List Char) : Prop := ∀ c ∈ rest.head?, c = ',' ∨ c = '\n'

/-- What kind of value begins with a character. -/
def kindOf (c : Char) : Nat :=
  if c = 'n' then 0 else if c = 't' ∨ c = 'f' then 1 else if c = '"' then 2 else if c = '[' then 3
  else if c = '{' then 4 else 5

def kind : Json → Nat
  | null => 0
  | bool _ => 1
  | string _ => 2
  | array _ => 3
  | object _ => 4
  | int _ | double _ => 5

theorem exists_head_chars (level : Nat) {value : Json} (whole : value.isWhole = true) :
    ∃ c rest, chars level value = c :: rest ∧ kindOf c = value.kind := by
  cases value with
  | null => exact ⟨_, _, rfl, rfl⟩
  | bool b => cases b <;> exact ⟨_, _, rfl, rfl⟩
  | double d => cases whole
  | string text => exact ⟨_, _, rfl, rfl⟩
  | array items => cases items <;> exact ⟨_, _, rfl, rfl⟩
  | object entries => cases entries <;> exact ⟨_, _, rfl, rfl⟩
  | int i =>
    have spelled : chars level (int i) = (Number.intText i).toList := by
      rw [chars, written, CodePoints.map_ofNat_ofString]
    obtain ⟨c, rest, shape⟩ := List.exists_cons_of_ne_nil (Number.intText_ne_nil i)
    refine ⟨c, rest, spelled.trans shape, ?_⟩
    have shaped : c = '-' ∨ c.isDigit = true := Number.mem_intText (shape ▸ List.mem_cons_self)
    have apart : ∀ other : Char, other ≠ '-' → other.isDigit = false → c ≠ other := by
      rintro other notSign notDigit rfl
      rcases shaped with sign | digit
      · exact notSign sign
      · rw [notDigit] at digit
        cases digit
    simp [kindOf, kind, apart 'n', apart 't', apart 'f', apart '"', apart '[', apart '{']

/-! ### Texts -/

theorem ofNat_ne {code : Nat} {c : Char} (apart : code ≠ c.toNat) (notNull : c ≠ '\x00') :
    Char.ofNat code ≠ c := by
  intro same
  by_cases valid : code.isValidChar
  · rw [Char.ofNat, dif_pos valid] at same
    exact apart (congrArg Char.toNat same)
  · rw [Char.ofNat, dif_neg valid] at same
    exact notNull same.symm

/-- The characters by which a code point stands inside a string. -/
theorem map_writtenPoint (code : Nat) :
    (∃ letter, escapeOf? letter = some code ∧ letter ≠ 'u' ∧
      (writtenPoint code).map Char.ofNat = ['\\', letter]) ∨
    (code < 0x20 ∧
      (writtenPoint code).map Char.ofNat = '\\' :: 'u' :: Text.hexDigits 4 code) ∨
    (Char.ofNat code ≠ '"' ∧ Char.ofNat code ≠ '\\' ∧
      (writtenPoint code).map Char.ofNat = [Char.ofNat code]) := by
  rcases writtenPoint_cases code with ⟨letter, member, written⟩ | ⟨control, written⟩ |
    ⟨-, mark, slash, written⟩
  · obtain ⟨escape, apart⟩ := escapeOf?_letter member
    refine .inl ⟨letter, escape, apart, ?_⟩
    rw [written]
    exact CodePoints.map_ofNat_ofChars ['\\', letter]
  · refine .inr (.inl ⟨control, ?_⟩)
    rw [written]
    exact CodePoints.map_ofNat_ofChars ('\\' :: 'u' :: Text.hexDigits 4 code)
  · refine .inr (.inr ⟨ofNat_ne mark (by decide), ofNat_ne slash (by decide), ?_⟩)
    rw [written]
    rfl

/-- Where a code point ends inside a string can be told from the string. -/
theorem point_cancel {code other : Nat} {rest more : List Char}
    (same : (writtenPoint code).map Char.ofNat ++ rest =
      (writtenPoint other).map Char.ofNat ++ more) :
    Char.ofNat code = Char.ofNat other ∧ rest = more := by
  rcases map_writtenPoint code with ⟨letter, escape, apart, written⟩ | ⟨control, written⟩ |
    ⟨-, slash, written⟩ <;>
  rcases map_writtenPoint other with ⟨letter', escape', apart', written'⟩ | ⟨control', written'⟩ |
    ⟨-, slash', written'⟩ <;>
  rw [written, written'] at same <;>
  simp only [List.cons_append, List.nil_append, List.cons.injEq, true_and] at same
  · obtain ⟨rfl, rfl⟩ := same
    obtain rfl := Option.some.inj (escape.symm.trans escape')
    exact ⟨rfl, rfl⟩
  · exact absurd same.1 apart
  · exact absurd same.1.symm slash'
  · exact absurd same.1.symm apart'
  · have read := readHex4?_hexDigits control rest
    rw [same, readHex4?_hexDigits control'] at read
    obtain ⟨rfl, rfl⟩ := Prod.mk.inj (Option.some.inj read)
    exact ⟨rfl, rfl⟩
  · exact absurd same.1.symm slash'
  · exact absurd same.1 slash
  · exact absurd same.1 slash
  · exact same

theorem exists_head_point (code : Nat) :
    ∃ c rest, (writtenPoint code).map Char.ofNat = c :: rest ∧ c ≠ '"' := by
  rcases map_writtenPoint code with ⟨letter, -, -, written⟩ | ⟨-, written⟩ | ⟨mark, -, written⟩
  · exact ⟨_, _, written, by decide⟩
  · exact ⟨_, _, written, by decide⟩
  · exact ⟨_, _, written, mark⟩

theorem points_cancel {text other : CodePoints} {rest more : List Char}
    (same : (text.flatMap writtenPoint).map Char.ofNat ++ '"' :: rest =
      (other.flatMap writtenPoint).map Char.ofNat ++ '"' :: more) :
    text.map Char.ofNat = other.map Char.ofNat ∧ rest = more := by
  induction text generalizing other with
  | nil =>
    cases other with
    | nil => exact ⟨rfl, (List.cons.inj same).2⟩
    | cons code other =>
      obtain ⟨c, tail, shape, apart⟩ := exists_head_point code
      rw [List.flatMap_cons, List.map_append, shape] at same
      exact absurd (List.cons.inj same).1.symm apart
  | cons code text ih =>
    cases other with
    | nil =>
      obtain ⟨c, tail, shape, apart⟩ := exists_head_point code
      rw [List.flatMap_cons, List.map_append, shape] at same
      exact absurd (List.cons.inj same).1 apart
    | cons code' other =>
      simp only [List.flatMap_cons, List.map_append, List.append_assoc] at same
      obtain ⟨first, later⟩ := point_cancel same
      obtain ⟨others, rfl⟩ := ih later
      exact ⟨by rw [List.map_cons, List.map_cons, first, others], rfl⟩

/-- Where a string ends can be told from its text. -/
theorem string_cancel {text other : CodePoints} {rest more : List Char}
    (same : (writtenString text).map Char.ofNat ++ rest =
      (writtenString other).map Char.ofNat ++ more) : text.shown = other.shown ∧ rest = more := by
  have mark : Char.ofNat 0x22 = '"' := rfl
  simp only [writtenString, List.cons_append, List.map_cons, List.map_append, List.map_nil, mark,
    List.append_assoc, List.nil_append, List.cons.injEq, true_and] at same
  obtain ⟨alike, rest⟩ := points_cancel same
  exact ⟨congrArg String.ofList alike, rest⟩

/-! ### Values -/

theorem int_cancel {i j : Int} {rest more : List Char} (ends : Ends rest) (endsMore : Ends more)
    (same : (Number.intText i).toList ++ rest = (Number.intText j).toList ++ more) :
    i = j ∧ rest = more := by
  have free : ∀ i, ∀ c ∈ (Number.intText i).toList, ¬(c = ',' ∨ c = '\n') := by
    rintro i c member (rfl | rfl) <;> rcases Number.mem_intText member with sign | digit
    · cases sign
    · cases digit
    · cases sign
    · cases digit
  obtain ⟨alike, rest⟩ := Text.append_stop_injective (free i) (free j) ends endsMore same
  exact ⟨Number.intText_injective alike, rest⟩


theorem ends_items (level : Nat) (items : List Json) (rest : List Char) :
    Ends ((writtenItems level items).map Char.ofNat ++ '\n' :: rest) := by
  cases items with
  | nil => simp [Ends, writtenItems]
  | cons item items => simp [Ends, writtenItems]

theorem ends_entries (level : Nat) (entries : List (CodePoints × Json)) (rest : List Char) :
    Ends ((writtenEntries level entries).map Char.ofNat ++ '\n' :: rest) := by
  cases entries with
  | nil => simp [Ends, writtenEntries]
  | cons entry entries => simp [Ends, writtenEntries]

theorem chars_array (level : Nat) (item : Json) (items : List Json) (rest : List Char) :
    chars level (array (item :: items)) ++ rest =
      '[' :: (indent (level + 1) ++ (chars (level + 1) item ++
        ((writtenItems (level + 1) items).map Char.ofNat ++ (indent level ++ ']' :: rest)))) := by
  simp [chars, written, ← map_newLine]

theorem chars_object (level : Nat) (key : CodePoints) (value : Json)
    (entries : List (CodePoints × Json)) (rest : List Char) :
    chars level (object ((key, value) :: entries)) ++ rest =
      '{' :: (indent (level + 1) ++ ((writtenString key).map Char.ofNat ++ ':' :: ' ' ::
        (chars (level + 1) value ++ ((writtenEntries (level + 1) entries).map Char.ofNat ++
          (indent level ++ '}' :: rest))))) := by
  simp [chars, written, ← map_newLine]

theorem chars_items (level : Nat) (item : Json) (items : List Json) (rest : List Char) :
    (writtenItems level (item :: items)).map Char.ofNat ++ rest =
      ',' :: (indent level ++ (chars level item ++
        ((writtenItems level items).map Char.ofNat ++ rest))) := by
  simp [chars, writtenItems, ← map_newLine]

theorem chars_entries (level : Nat) (key : CodePoints) (value : Json)
    (entries : List (CodePoints × Json)) (rest : List Char) :
    (writtenEntries level ((key, value) :: entries)).map Char.ofNat ++ rest =
      ',' :: (indent level ++ ((writtenString key).map Char.ofNat ++ ':' :: ' ' ::
        (chars level value ++ ((writtenEntries level entries).map Char.ofNat ++ rest)))) := by
  simp [chars, writtenEntries, ← map_newLine]

theorem kind_eq {value other : Json} {level : Nat} {rest more : List Char}
    (whole : value.isWhole = true) (wholeOther : other.isWhole = true)
    (same : chars level value ++ rest = chars level other ++ more) : value.kind = other.kind := by
  obtain ⟨c, tail, shape, kind⟩ := exists_head_chars level whole
  obtain ⟨c', tail', shape', kind'⟩ := exists_head_chars level wholeOther
  rw [shape, shape'] at same
  rw [← kind, ← kind', (List.cons.inj same).1]

theorem empty_array_ne (level : Nat) (item : Json) (items : List Json) (rest more : List Char) :
    chars level (array []) ++ rest ≠ chars level (array (item :: items)) ++ more := by
  rw [chars_array]
  intro same
  exact absurd (List.cons.inj (List.cons.inj same).2).1 (by decide : ']' ≠ '\n')

theorem empty_object_ne (level : Nat) (entry : CodePoints × Json)
    (entries : List (CodePoints × Json)) (rest more : List Char) :
    chars level (object []) ++ rest ≠ chars level (object (entry :: entries)) ++ more := by
  rw [chars_object]
  intro same
  exact absurd (List.cons.inj (List.cons.inj same).2).1 (by decide : '}' ≠ '\n')

mutual

/-- Where a value ends can be told from its text, and which value it is. -/
theorem chars_cancel (level : Nat) {rest more : List Char} (ends : Ends rest)
    (endsMore : Ends more) : (value other : Json) → value.isWhole = true → other.isWhole = true →
      chars level value ++ rest = chars level other ++ more →
        value.shown = other.shown ∧ rest = more
  | .null, other, whole, wholeOther, same => by
    have kind := kind_eq whole wholeOther same
    cases other with
    | null => exact ⟨rfl, List.append_cancel_left same⟩
    | _ => cases kind
  | .bool b, other, whole, wholeOther, same => by
    have kind := kind_eq whole wholeOther same
    cases other with
    | bool b' =>
      cases b <;> cases b'
      · exact ⟨rfl, List.append_cancel_left same⟩
      · exact absurd (List.cons.inj same).1 (by decide : 'f' ≠ 't')
      · exact absurd (List.cons.inj same).1 (by decide : 't' ≠ 'f')
      · exact ⟨rfl, List.append_cancel_left same⟩
    | _ => cases kind
  | .int i, other, whole, wholeOther, same => by
    have kind := kind_eq whole wholeOther same
    cases other with
    | int j =>
      simp only [chars, written, CodePoints.map_ofNat_ofString] at same
      obtain ⟨rfl, later⟩ := int_cancel ends endsMore same
      exact ⟨rfl, later⟩
    | double d => cases wholeOther
    | _ => cases kind
  | .double d, other, whole, wholeOther, same => by cases whole
  | .string text, other, whole, wholeOther, same => by
    have kind := kind_eq whole wholeOther same
    cases other with
    | string text' =>
      obtain ⟨alike, later⟩ := string_cancel same
      exact ⟨congrArg ofString alike, later⟩
    | _ => cases kind
  | .array [], other, whole, wholeOther, same => by
    have kind := kind_eq whole wholeOther same
    cases other with
    | array others =>
      cases others with
      | nil => exact ⟨rfl, List.append_cancel_left same⟩
      | cons item others => exact absurd same (empty_array_ne level item others rest more)
    | _ => cases kind
  | .array (item :: items), other, whole, wholeOther, same => by
    have kind := kind_eq whole wholeOther same
    cases other with
    | array others =>
      cases others with
      | nil => exact absurd same.symm (empty_array_ne level item items more rest)
      | cons item' others =>
        rw [chars_array, chars_array] at same
        have inner := List.append_cancel_left (List.cons.inj same).2
        rw [isWhole, areWhole, Bool.and_eq_true] at whole wholeOther
        obtain ⟨first, inner⟩ := chars_cancel (level + 1) (ends_items _ _ _) (ends_items _ _ _)
          item item' whole.1 wholeOther.1 inner
        obtain ⟨others, later⟩ := items_cancel level items others whole.2 wholeOther.2 inner
        refine ⟨?_, later⟩
        rw [shown, shown, shownItems, shownItems, first, others]
    | _ => cases kind
  | .object [], other, whole, wholeOther, same => by
    have kind := kind_eq whole wholeOther same
    cases other with
    | object others =>
      cases others with
      | nil => exact ⟨rfl, List.append_cancel_left same⟩
      | cons entry others => exact absurd same (empty_object_ne level entry others rest more)
    | _ => cases kind
  | .object ((key, value) :: entries), other, whole, wholeOther, same => by
    have kind := kind_eq whole wholeOther same
    cases other with
    | object others =>
      cases others with
      | nil => exact absurd same.symm (empty_object_ne level (key, value) entries more rest)
      | cons entry others =>
        obtain ⟨key', value'⟩ := entry
        rw [chars_object, chars_object] at same
        have inner := List.append_cancel_left (List.cons.inj same).2
        rw [isWhole, haveWhole, Bool.and_eq_true] at whole wholeOther
        obtain ⟨keys, inner⟩ := string_cancel inner
        obtain ⟨first, inner⟩ := chars_cancel (level + 1) (ends_entries _ _ _) (ends_entries _ _ _)
          value value' whole.1 wholeOther.1 (List.cons.inj (List.cons.inj inner).2).2
        obtain ⟨others, later⟩ := entries_cancel level entries others whole.2 wholeOther.2 inner
        refine ⟨?_, later⟩
        rw [shown, shown, shownEntries, shownEntries, keys, first, others]
    | _ => cases kind

theorem items_cancel (level : Nat) {rest more : List Char} :
    (items others : List Json) → areWhole items = true → areWhole others = true →
      (writtenItems (level + 1) items).map Char.ofNat ++ (indent level ++ ']' :: rest) =
        (writtenItems (level + 1) others).map Char.ofNat ++ (indent level ++ ']' :: more) →
        shownItems items = shownItems others ∧ rest = more
  | [], [], _, _, same => by
    have inner : indent level ++ ']' :: rest = indent level ++ ']' :: more := same
    exact ⟨rfl, (List.cons.inj (List.append_cancel_left inner)).2⟩
  | [], item :: others, _, _, same => by
    rw [chars_items] at same
    exact absurd (List.cons.inj same).1 (by decide : '\n' ≠ ',')
  | item :: items, [], _, _, same => by
    rw [chars_items] at same
    exact absurd (List.cons.inj same).1 (by decide : ',' ≠ '\n')
  | item :: items, item' :: others, whole, wholeOther, same => by
    rw [chars_items, chars_items] at same
    have inner := List.append_cancel_left (List.cons.inj same).2
    rw [areWhole, Bool.and_eq_true] at whole wholeOther
    obtain ⟨first, inner⟩ := chars_cancel (level + 1) (ends_items _ _ _) (ends_items _ _ _)
      item item' whole.1 wholeOther.1 inner
    obtain ⟨others, later⟩ := items_cancel level items others whole.2 wholeOther.2 inner
    exact ⟨by rw [shownItems, shownItems, first, others], later⟩

theorem entries_cancel (level : Nat) {rest more : List Char} :
    (entries others : List (CodePoints × Json)) →
      haveWhole entries = true → haveWhole others = true →
      (writtenEntries (level + 1) entries).map Char.ofNat ++ (indent level ++ '}' :: rest) =
        (writtenEntries (level + 1) others).map Char.ofNat ++ (indent level ++ '}' :: more) →
        shownEntries entries = shownEntries others ∧ rest = more
  | [], [], _, _, same => by
    have inner : indent level ++ '}' :: rest = indent level ++ '}' :: more := same
    exact ⟨rfl, (List.cons.inj (List.append_cancel_left inner)).2⟩
  | [], (key, value) :: others, _, _, same => by
    rw [chars_entries] at same
    exact absurd (List.cons.inj same).1 (by decide : '\n' ≠ ',')
  | (key, value) :: entries, [], _, _, same => by
    rw [chars_entries] at same
    exact absurd (List.cons.inj same).1 (by decide : ',' ≠ '\n')
  | (key, value) :: entries, (key', value') :: others, whole, wholeOther, same => by
    rw [chars_entries, chars_entries] at same
    have inner := List.append_cancel_left (List.cons.inj same).2
    rw [haveWhole, Bool.and_eq_true] at whole wholeOther
    obtain ⟨keys, inner⟩ := string_cancel inner
    obtain ⟨first, inner⟩ := chars_cancel (level + 1) (ends_entries _ _ _) (ends_entries _ _ _)
      value value' whole.1 wholeOther.1 (List.cons.inj (List.cons.inj inner).2).2
    obtain ⟨others, later⟩ := entries_cancel level entries others whole.2 wholeOther.2 inner
    exact ⟨by rw [shownEntries, shownEntries, keys, first, others], later⟩

end

/-- The characters that are written of a value tell which one it is. -/
theorem shown_eq_of_write {value other : Json} (whole : value.isWhole = true)
    (wholeOther : other.isWhole = true) {text : List Char}
    (written : (write value).toChars? = some text)
    (writtenOther : (write other).toChars? = some text) : value.shown = other.shown := by
  have read : ∀ {value : Json}, (write value).toChars? = some text → chars 0 value = text := by
    intro value written
    rw [CodePoints.toChars?] at written
    split at written
    · cases written
    · exact Option.some.inj written
  have same : chars 0 value ++ [] = chars 0 other ++ [] := by
    rw [read written, read writtenOther]
  exact (chars_cancel 0 (by simp [Ends]) (by simp [Ends]) value other whole wholeOther same).1

end Json
end Phrasebook

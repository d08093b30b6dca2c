import Mathlib.Data.List.TakeWhile
import Phrasebook.Proofs.Text.Utf8

set_option autoImplicit false

/-!
Text without surrogates: the code points of characters are such text, and it is the characters back.
It is the text that has bytes, and these tell it from any other.
-/
namespace Phrasebook.Text.CodePoints

@[simp] theorem ofChars_nil : ofChars [] = [] := rfl

@[simp] theorem ofChars_cons (c : Char) (rest : List Char) :
    ofChars (c :: rest) = c.toNat :: ofChars rest := rfl

@[simp] theorem ofChars_append (first rest : List Char) :
    ofChars (first ++ rest) = ofChars first ++ ofChars rest := List.map_append

theorem not_isSurrogate (c : Char) : isSurrogate c.toNat = false := by
  have character : c.toNat < 0xD800 ∨ 0xDFFF < c.toNat ∧ c.toNat < 0x110000 := c.valid
  simp only [isSurrogate, Bool.and_eq_false_iff, decide_eq_false_iff_not]
  omega

theorem map_ofNat_ofChars (chars : List Char) : (ofChars chars).map Char.ofNat = chars := by
  rw [ofChars, List.map_map]
  exact (List.map_congr_left fun c _ => Char.ofNat_toNat c).trans (List.map_id chars)

theorem map_ofNat_ofString (text : String) : (ofString text).map Char.ofNat = text.toList :=
  map_ofNat_ofChars text.toList

/-- Text in which no surrogate stands alone. -/
def IsWhole (text : CodePoints) : Prop := ∀ code ∈ text, isSurrogate code = false

instance (text : CodePoints) : Decidable text.IsWhole := inferInstanceAs (Decidable (∀ _ ∈ _, _))

theorem isWhole_append {first rest : CodePoints} (front : first.IsWhole) (back : rest.IsWhole) :
    (first ++ rest).IsWhole := by
  intro code member
  rcases List.mem_append.mp member with early | late
  · exact front code early
  · exact back code late

theorem isWhole_ofChars (chars : List Char) : (ofChars chars).IsWhole := by
  intro code member
  obtain ⟨c, -, rfl⟩ := List.mem_map.mp member
  exact not_isSurrogate c

theorem isWhole_ofString (text : String) : (ofString text).IsWhole := isWhole_ofChars text.toList

/-- The string of a text in which no surrogate stands alone. -/
def shown (text : CodePoints) : String := String.ofList (text.map Char.ofNat)

@[simp] theorem shown_ofString (text : String) : (ofString text).shown = text := by
  rw [shown, map_ofNat_ofString, String.ofList_toList]

theorem toChars?_of_isWhole {text : CodePoints} (whole : text.IsWhole) :
    text.toChars? = some (text.map Char.ofNat) := by
  have none : text.any isSurrogate = false := by
    rw [List.any_eq_false]
    intro code member
    simp [whole code member]
  rw [toChars?, none]
  rfl

theorem toString?_of_isWhole {text : CodePoints} (whole : text.IsWhole) :
    text.toString? = some text.shown := by
  rw [toString?, toChars?_of_isWhole whole, Option.map_some, shown]

/-- The code points of characters are those characters. -/
theorem toChars?_ofChars (chars : List Char) : (ofChars chars).toChars? = some chars := by
  rw [toChars?_of_isWhole (isWhole_ofChars chars), map_ofNat_ofChars]

@[simp] theorem toString?_ofString (text : String) : (ofString text).toString? = some text := by
  rw [toString?, ofString, toChars?_ofChars, Option.map_some, String.ofList_toList]

theorem ofString_injective {text other : String} (same : ofString text = ofString other) :
    text = other := by
  have read := congrArg toString? same
  rw [toString?_ofString, toString?_ofString] at read
  exact Option.some.inj read

/-! ### Unicode -/

theorem toNat_le (c : Char) : c.toNat ≤ 0x10FFFF := by
  have character : c.toNat < 0xD800 ∨ 0xDFFF < c.toNat ∧ c.toNat < 0x110000 := c.valid
  omega

/-- Every code point is one of Unicode. -/
def InUnicode (text : CodePoints) : Prop := ∀ code ∈ text, code ≤ 0x10FFFF

theorem inUnicode_cons {code : Nat} {rest : CodePoints} :
    InUnicode (code :: rest) ↔ code ≤ 0x10FFFF ∧ InUnicode rest := List.forall_mem_cons

theorem inUnicode_append {first rest : CodePoints} (front : first.InUnicode) (back : rest.InUnicode) :
    (first ++ rest).InUnicode := by
  intro code member
  rcases List.mem_append.mp member with early | late
  · exact front code early
  · exact back code late

theorem inUnicode_ofChars (chars : List Char) : (ofChars chars).InUnicode := by
  intro code member
  obtain ⟨c, -, rfl⟩ := List.mem_map.mp member
  exact toNat_le c

/-- Surrogates that are joined make a character. -/
theorem inUnicode_joinPairs {text joined : CodePoints} (inside : text.InUnicode)
    (join : text.joinPairs = some joined) : joined.InUnicode := by
  fun_induction joinPairs text generalizing joined with
  | case1 =>
    cases join
    exact inside
  | case2 high low rest pair ih =>
    obtain ⟨others, later, rfl⟩ := Option.map_eq_some_iff.mp join
    have tail := (inUnicode_cons.mp (inUnicode_cons.mp inside).2).2
    refine inUnicode_cons.mpr ⟨?_, ih tail later⟩
    simp only [isHighSurrogate, isLowSurrogate, Bool.and_eq_true, decide_eq_true_eq] at pair
    omega
  | case3 => cases join
  | case4 high low rest _ _ ih =>
    obtain ⟨others, later, rfl⟩ := Option.map_eq_some_iff.mp join
    obtain ⟨first, tail⟩ := inUnicode_cons.mp inside
    exact inUnicode_cons.mpr ⟨first, ih tail later⟩
  | case5 => cases join
  | case6 =>
    cases join
    exact inside

/-- The string of a text has the code points of the text. -/
theorem ofString_shown {text : CodePoints} (whole : text.IsWhole) (inside : text.InUnicode) :
    ofString text.shown = text := by
  have same : ∀ code ∈ text, (Char.toNat ∘ Char.ofNat) code = code := by
    intro code member
    have alone := whole code member
    have most := inside code member
    simp only [isSurrogate, Bool.and_eq_false_iff, decide_eq_false_iff_not] at alone
    have valid : code.isValidChar := by
      rw [Nat.isValidChar]
      omega
    rw [Function.comp_apply, Char.ofNat, dif_pos valid]
    rfl
  rw [ofString, shown, String.toList_ofList, ofChars, List.map_map]
  exact (List.map_congr_left same).trans (List.map_id text)

/-! ### Bytes -/

theorem loneRun?_eq_none_iff {text : CodePoints} : loneRun? text = none ↔ text.IsWhole := by
  have passed : text.dropWhile (!isSurrogate ·) = [] ↔ text.IsWhole := by
    simp [List.dropWhile_eq_nil_iff, IsWhole]
  rw [← passed, loneRun?]
  cases text.dropWhile (!isSurrogate ·) with
  | nil => simp
  | cons first rest => simp

theorem encode_of_isWhole {text : CodePoints} (whole : text.IsWhole) :
    text.encode = .ok (Text.encode (text.map Char.ofNat)) := by
  rw [encode, loneRun?_eq_none_iff.mpr whole]

/-- Text has bytes unless a surrogate stands alone in it. -/
theorem encode_error_iff {text : CodePoints} :
    (∃ run, text.encode = .error run) ↔ ¬ text.IsWhole := by
  rw [← loneRun?_eq_none_iff, encode]
  cases loneRun? text <;> simp

theorem isWhole_of_encode {text : CodePoints} {bytes : List UInt8}
    (encoded : text.encode = .ok bytes) : text.IsWhole := by
  rw [encode] at encoded
  cases lone : loneRun? text with
  | none => exact loneRun?_eq_none_iff.mp lone
  | some run =>
    rw [lone] at encoded
    cases encoded

/-- Two texts do not have the same bytes. -/
theorem encode_injective {text other : CodePoints} {bytes : List UInt8} (inside : text.InUnicode)
    (insideOther : other.InUnicode) (own : text.encode = .ok bytes)
    (same : other.encode = .ok bytes) : text = other := by
  have whole := isWhole_of_encode own
  have wholeOther := isWhole_of_encode same
  rw [encode_of_isWhole whole] at own
  rw [encode_of_isWhole wholeOther] at same
  have read := congrArg decode (Except.ok.inj (own.trans same.symm))
  rw [decode_encode, decode_encode] at read
  have shown : text.shown = other.shown := congrArg String.ofList (Except.ok.inj read)
  rw [← ofString_shown whole inside, shown, ofString_shown wholeOther insideOther]

end Phrasebook.Text.CodePoints

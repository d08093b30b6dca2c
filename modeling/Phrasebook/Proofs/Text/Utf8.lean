import Phrasebook.Text.Utf8

set_option autoImplicit false

/-!
Text survives its encoding: what is encoded is decoded again, whatever its characters are.
-/
namespace Phrasebook.Text

/-! ### Single bytes -/

section Bytes

variable {position : Nat} {pending : Pending} {byte : UInt8} {rest : List UInt8}

theorem decodeFrom_small (small : byte.toNat < 0x80) :
    decodeFrom position none (byte :: rest) =
      (decodeFrom (position + 1) none rest).map (Char.ofNat byte.toNat :: ·) := by
  rw [decodeFrom, if_pos small]

theorem decodeFrom_first (large : 0x80 ≤ byte.toNat) (first : pending? byte = some pending) :
    decodeFrom position none (byte :: rest) = decodeFrom (position + 1) (some pending) rest := by
  rw [decodeFrom, if_neg (by omega), first]

theorem decodeFrom_last (low : pending.low ≤ byte.toNat) (high : byte.toNat ≤ pending.high)
    (owed : pending.owed = 1) :
    decodeFrom position (some pending) (byte :: rest) =
      (decodeFrom (position + 1) none rest).map
        (Char.ofNat (64 * pending.value + (byte.toNat - 0x80)) :: ·) := by
  rw [decodeFrom, if_pos ⟨low, high⟩]
  dsimp only
  rw [if_pos owed]

theorem decodeFrom_later (low : pending.low ≤ byte.toNat) (high : byte.toNat ≤ pending.high)
    (owed : pending.owed ≠ 1) :
    decodeFrom position (some pending) (byte :: rest) =
      decodeFrom (position + 1) (some ⟨pending.first, pending.taken + 1,
        64 * pending.value + (byte.toNat - 0x80), pending.owed - 1, 0x80, 0xBF⟩) rest := by
  rw [decodeFrom, if_pos ⟨low, high⟩]
  dsimp only
  rw [if_neg owed]

end Bytes

/-! ### Characters -/

theorem toNat_ofNat_of_lt {n : Nat} (small : n < 256) : (UInt8.ofNat n).toNat = n :=
  UInt8.toNat_ofNat_of_lt' small

/-- A character of two bytes. -/
theorem decodeFrom_two (position : Nat) (rest : List UInt8) {v : Nat} (least : 0x80 ≤ v)
    (most : v ≤ 0x7FF) :
    decodeFrom position none
        (UInt8.ofNat (v / 64 % 32 + 192) :: UInt8.ofNat (v % 64 + 128) :: rest) =
      (decodeFrom (position + 2) none rest).map (Char.ofNat v :: ·) := by
  have first : (UInt8.ofNat (v / 64 % 32 + 192)).toNat = v / 64 + 192 := by
    rw [toNat_ofNat_of_lt (by omega)]
    omega
  have second : (UInt8.ofNat (v % 64 + 128)).toNat = v % 64 + 128 := toNat_ofNat_of_lt (by omega)
  have owes : pending? (UInt8.ofNat (v / 64 % 32 + 192)) =
      some ⟨UInt8.ofNat (v / 64 % 32 + 192), 1, v / 64, 1, 0x80, 0xBF⟩ := by
    have value : v / 64 + 192 - 0xC0 = v / 64 := by omega
    simp only [pending?, first]
    rw [if_neg (by omega), if_pos (by omega), value]
  have value : 64 * (v / 64) + (v % 64 + 128 - 0x80) = v := by omega
  rw [decodeFrom_first (by omega) owes, decodeFrom_last (by simp only [second]; omega)
    (by simp only [second]; omega) rfl]
  simp only [second, value]

/-- A character of three bytes. Values for which two bytes are enough, and surrogates, have none. -/
theorem decodeFrom_three (position : Nat) (rest : List UInt8) {v : Nat} (least : 0x800 ≤ v)
    (most : v ≤ 0xFFFF) (character : v < 0xD800 ∨ 0xDFFF < v) :
    decodeFrom position none
        (UInt8.ofNat (v / 4096 % 16 + 224) :: UInt8.ofNat (v / 64 % 64 + 128) ::
          UInt8.ofNat (v % 64 + 128) :: rest) =
      (decodeFrom (position + 3) none rest).map (Char.ofNat v :: ·) := by
  have first : (UInt8.ofNat (v / 4096 % 16 + 224)).toNat = v / 4096 + 224 := by
    rw [toNat_ofNat_of_lt (by omega)]
    omega
  have second : (UInt8.ofNat (v / 64 % 64 + 128)).toNat = v / 64 % 64 + 128 :=
    toNat_ofNat_of_lt (by omega)
  have third : (UInt8.ofNat (v % 64 + 128)).toNat = v % 64 + 128 := toNat_ofNat_of_lt (by omega)
  have owes : pending? (UInt8.ofNat (v / 4096 % 16 + 224)) =
      some ⟨UInt8.ofNat (v / 4096 % 16 + 224), 1, v / 4096, 2,
        if v / 4096 = 0 then 0xA0 else 0x80, if v / 4096 = 13 then 0x9F else 0xBF⟩ := by
    have lowest : v / 4096 + 224 = 0xE0 ↔ v / 4096 = 0 := by omega
    have surrogate : v / 4096 + 224 = 0xED ↔ v / 4096 = 13 := by omega
    have value : v / 4096 + 224 - 0xE0 = v / 4096 := by omega
    simp only [pending?, first, lowest, surrogate]
    rw [if_neg (by omega), if_neg (by omega), if_pos (by omega), value]
  have low : (if v / 4096 = 0 then 0xA0 else 0x80) ≤ v / 64 % 64 + 128 := by split <;> omega
  have high : v / 64 % 64 + 128 ≤ if v / 4096 = 13 then 0x9F else 0xBF := by split <;> omega
  have value : 64 * (64 * (v / 4096) + (v / 64 % 64 + 128 - 0x80)) + (v % 64 + 128 - 0x80) = v := by
    omega
  rw [decodeFrom_first (by omega) owes, decodeFrom_later (by simp only [second]; exact low)
    (by simp only [second]; exact high) (by simp), decodeFrom_last (by simp only [third]; omega)
    (by simp only [third]; omega) rfl]
  simp only [second, third, value]

/-- A character of four bytes. Values for which three bytes are enough have none. -/
theorem decodeFrom_four (position : Nat) (rest : List UInt8) {v : Nat} (least : 0x10000 ≤ v)
    (most : v < 0x110000) :
    decodeFrom position none
        (UInt8.ofNat (v / 262144 % 8 + 240) :: UInt8.ofNat (v / 4096 % 64 + 128) ::
          UInt8.ofNat (v / 64 % 64 + 128) :: UInt8.ofNat (v % 64 + 128) :: rest) =
      (decodeFrom (position + 4) none rest).map (Char.ofNat v :: ·) := by
  have first : (UInt8.ofNat (v / 262144 % 8 + 240)).toNat = v / 262144 + 240 := by
    rw [toNat_ofNat_of_lt (by omega)]
    omega
  have second : (UInt8.ofNat (v / 4096 % 64 + 128)).toNat = v / 4096 % 64 + 128 :=
    toNat_ofNat_of_lt (by omega)
  have third : (UInt8.ofNat (v / 64 % 64 + 128)).toNat = v / 64 % 64 + 128 :=
    toNat_ofNat_of_lt (by omega)
  have fourth : (UInt8.ofNat (v % 64 + 128)).toNat = v % 64 + 128 := toNat_ofNat_of_lt (by omega)
  have owes : pending? (UInt8.ofNat (v / 262144 % 8 + 240)) =
      some ⟨UInt8.ofNat (v / 262144 % 8 + 240), 1, v / 262144, 3,
        if v / 262144 = 0 then 0x90 else 0x80, if v / 262144 = 4 then 0x8F else 0xBF⟩ := by
    have lowest : v / 262144 + 240 = 0xF0 ↔ v / 262144 = 0 := by omega
    have highest : v / 262144 + 240 = 0xF4 ↔ v / 262144 = 4 := by omega
    have value : v / 262144 + 240 - 0xF0 = v / 262144 := by omega
    simp only [pending?, first, lowest, highest]
    rw [if_neg (by omega), if_neg (by omega), if_neg (by omega), if_pos (by omega), value]
  have low : (if v / 262144 = 0 then 0x90 else 0x80) ≤ v / 4096 % 64 + 128 := by
    split <;> omega
  have high : v / 4096 % 64 + 128 ≤ if v / 262144 = 4 then 0x8F else 0xBF := by
    split <;> omega
  have value : 64 * (64 * (64 * (v / 262144) + (v / 4096 % 64 + 128 - 0x80)) +
      (v / 64 % 64 + 128 - 0x80)) + (v % 64 + 128 - 0x80) = v := by omega
  rw [decodeFrom_first (by omega) owes, decodeFrom_later (by simp only [second]; exact low)
    (by simp only [second]; exact high) (by simp),
    decodeFrom_later (by simp only [third]; omega) (by simp only [third]; omega) (by simp),
    decodeFrom_last (by simp only [fourth]; omega) (by simp only [fourth]; omega) rfl]
  simp only [second, third, fourth, value]

/-- The bytes of a character are read as that character. -/
theorem decodeFrom_encodeChar (position : Nat) (c : Char) (rest : List UInt8) :
    ∃ after, decodeFrom position none (String.utf8EncodeChar c ++ rest) =
      (decodeFrom after none rest).map (c :: ·) := by
  have character : c.toNat < 0xD800 ∨ 0xDFFF < c.toNat ∧ c.toNat < 0x110000 := c.valid
  have same : Char.ofNat c.toNat = c := Char.ofNat_toNat c
  have value : c.val.toNat = c.toNat := rfl
  unfold String.utf8EncodeChar
  rw [value]
  by_cases one : c.toNat ≤ 127
  · have byte : (UInt8.ofNat c.toNat).toNat = c.toNat := toNat_ofNat_of_lt (by omega)
    have small : (UInt8.ofNat c.toNat).toNat < 0x80 := by omega
    refine ⟨position + 1, ?_⟩
    rw [if_pos one, List.singleton_append, decodeFrom_small small, byte, same]
  rw [if_neg one]
  by_cases two : c.toNat ≤ 2047
  · have read := decodeFrom_two position rest (by omega) two
    rw [same] at read
    exact ⟨position + 2, by rw [if_pos two]; exact read⟩
  rw [if_neg two]
  by_cases three : c.toNat ≤ 65535
  · have read := decodeFrom_three position rest (by omega) three (by omega)
    rw [same] at read
    exact ⟨position + 3, by rw [if_pos three]; exact read⟩
  · have read := @decodeFrom_four position rest c.toNat (by omega) (by omega)
    rw [same] at read
    exact ⟨position + 4, by rw [if_neg three]; exact read⟩

/-- A byte below 0x80 is a character of its own. -/
theorem encodeChar_small {c : Char} {byte : UInt8} (member : byte ∈ String.utf8EncodeChar c)
    (small : byte.toNat < 0x80) : c.toNat = byte.toNat := by
  have value : c.val.toNat = c.toNat := rfl
  have large : ∀ n : Nat, 128 ≤ n % 256 → byte ≠ UInt8.ofNat n := by
    rintro n high rfl
    rw [UInt8.toNat_ofNat'] at small
    omega
  unfold String.utf8EncodeChar at member
  rw [value] at member
  by_cases one : c.toNat ≤ 127
  · rw [if_pos one, List.mem_singleton] at member
    rw [member, toNat_ofNat_of_lt (by omega)]
  rw [if_neg one] at member
  split at member
  · simp only [List.mem_cons, List.not_mem_nil, or_false] at member
    rcases member with first | second
    · exact absurd first (large _ (by omega))
    · exact absurd second (large _ (by omega))
  split at member
  · simp only [List.mem_cons, List.not_mem_nil, or_false] at member
    rcases member with first | second | third
    · exact absurd first (large _ (by omega))
    · exact absurd second (large _ (by omega))
    · exact absurd third (large _ (by omega))
  · simp only [List.mem_cons, List.not_mem_nil, or_false] at member
    rcases member with first | second | third | fourth
    · exact absurd first (large _ (by omega))
    · exact absurd second (large _ (by omega))
    · exact absurd third (large _ (by omega))
    · exact absurd fourth (large _ (by omega))

/-! ### Texts -/

theorem encode_append (text more : List Char) : encode (text ++ more) = encode text ++ encode more :=
  List.flatMap_append

/-- What is encoded is decoded again. -/
theorem decode_encode (text : List Char) : decode (encode text) = .ok text := by
  have anywhere : ∀ position, decodeFrom position none (encode text) = .ok text := by
    induction text with
    | nil =>
      intro position
      rfl
    | cons c rest ih =>
      intro position
      obtain ⟨after, read⟩ := decodeFrom_encodeChar position c (encode rest)
      rw [encode, List.flatMap_cons]
      exact read.trans (by rw [ih after]; rfl)
  exact anywhere 0

end Phrasebook.Text

import Phrasebook.Proofs.Source.Position
import Phrasebook.Proofs.Text.Utf8

set_option autoImplicit false

/-!
Fragments that are cut out of a file and read by themselves, as bytes. The byte at which a character
is encoded leads back to that character, to its position in the file, and to the text up to another
one.
-/
namespace Phrasebook.Source

open Text (encode decode encode_append decode_encode DecodeError)

/-! ### Bytes and characters -/

theorem byteLength_append (front rest : List Char) :
    byteLength (front ++ rest) = byteLength front + byteLength rest := by
  induction front with
  | nil => rw [List.nil_append, byteLength, Nat.zero_add]
  | cons c front ih => rw [List.cons_append, byteLength, byteLength, ih, Nat.add_assoc]

theorem length_encode (text : List Char) : (encode text).length = byteLength text := by
  induction text with
  | nil => rfl
  | cons c text ih =>
    rw [encode, List.flatMap_cons, List.length_append, String.length_utf8EncodeChar, byteLength]
    exact congrArg _ ih

theorem length_le_byteLength (text : List Char) : text.length ≤ byteLength text := by
  induction text with
  | nil => exact Nat.le_refl _
  | cons c text ih =>
    have some := c.utf8Size_pos
    rw [List.length_cons, byteLength]
    omega

theorem characterOf?_append (front rest : List Char) (byte : Nat) :
    characterOf? (front ++ rest) (byteLength front + byte) =
      (characterOf? rest byte).map (front.length + ·) := by
  induction front with
  | nil => simp [byteLength]
  | cons c front ih =>
    have behind : ¬ c.utf8Size + byteLength front + byte < c.utf8Size := by omega
    have left : c.utf8Size + byteLength front + byte - c.utf8Size = byteLength front + byte := by
      omega
    rw [List.cons_append, byteLength, characterOf?, if_neg behind, left, ih, Option.map_map]
    congr 1
    funext count
    rw [Function.comp_apply, List.length_cons]
    omega

/-- All bytes of a character lie in it. -/
theorem characterOf?_inside {c : Char} {byte : Nat} (inside : byte < c.utf8Size)
    (front rest : List Char) :
    characterOf? (front ++ c :: rest) (byteLength front + byte) = some front.length := by
  rw [characterOf?_append, characterOf?, if_pos inside, Option.map_some, Nat.add_zero]

theorem characterOf?_between (front rest : List Char) :
    characterOf? (front ++ rest) (byteLength front) = some front.length := by
  cases rest with
  | nil =>
    have end_ := characterOf?_append front [] 0
    rwa [Nat.add_zero] at end_
  | cons c rest =>
    have start := characterOf?_inside c.utf8Size_pos front rest
    rwa [Nat.add_zero] at start

/-- In a text of single bytes every offset is a character's. -/
theorem characterOf?_single {text : List Char} (single : byteLength text = text.length) {byte : Nat}
    (within : byte ≤ text.length) : characterOf? text byte = some byte := by
  -- the text before the offset has as many bytes as characters, as neither part has fewer
  have cut := List.take_append_drop byte text
  have lengths := byteLength_append (text.take byte) (text.drop byte)
  have front := length_le_byteLength (text.take byte)
  have rest := length_le_byteLength (text.drop byte)
  rw [cut, single] at lengths
  rw [List.length_take_of_le within] at front
  rw [List.length_drop] at rest
  have before : byteLength (text.take byte) = byte := by omega
  have found := characterOf?_between (text.take byte) (text.drop byte)
  rwa [cut, before, List.length_take_of_le within] at found

theorem characterAt?_eq {text : List Char} {byte : Nat} (within : byte ≤ byteLength text) :
    characterAt? text byte = characterOf? text byte := by
  rw [characterAt?]
  split
  · rename_i single
    rw [characterOf?_single single (single ▸ within)]
  · rfl

theorem characterAt?_between (front rest : List Char) :
    characterAt? (front ++ rest) (byteLength front) = some front.length := by
  have length := byteLength_append front rest
  rw [characterAt?_eq (by omega), characterOf?_between]

theorem characterAt?_inside {c : Char} {byte : Nat} (inside : byte < c.utf8Size)
    (front rest : List Char) :
    characterAt? (front ++ c :: rest) (byteLength front + byte) = some front.length := by
  have length := byteLength_append front (c :: rest)
  rw [byteLength] at length
  rw [characterAt?_eq (by omega), characterOf?_inside inside]

/-! ### Slices -/

/-- The text that the bytes of a text between two offsets encode. -/
def slice (text : List Char) (start stop : Nat) : Except DecodeError (List Char) :=
  decode (((encode text).take stop).drop start)

theorem slice_between (front middle rest : List Char) :
    slice (front ++ (middle ++ rest)) (byteLength front) (byteLength (front ++ middle)) =
      .ok middle := by
  have start : (encode front).length = byteLength front := length_encode front
  have stop : (encode (front ++ middle)).length = byteLength (front ++ middle) := length_encode _
  rw [slice, ← List.append_assoc, encode_append (front ++ middle), ← stop, List.take_left,
    encode_append, ← start, List.drop_left, decode_encode]

/-! ### Fragments -/

/-- Where a character of a file stands: one line more than there are line feeds before it, and as
far to the right as the last of them is to the left. -/
def filePosition (source : List Char) (offset : Nat) : Position :=
  ⟨1 + (source.take offset).count '\n', lastLineLength (source.take offset)⟩

theorem positionAt_eq_filePosition {source : List Char} {offset : Nat}
    (within : offset ≤ source.length) : positionAt source offset = filePosition source offset := by
  rw [positionAt_eq_past within, past_start, filePosition]

/-- The text of a file between two offsets, with something put before it and behind it. -/
def fragment (source : List Char) (start stop : Nat) (added behind : List Char) : List Char :=
  added ++ ((source.take stop).drop start ++ behind)

/-- The byte of a fragment at which the character so far behind its start is encoded. -/
def fragmentByte (source : List Char) (start : Nat) (added : List Char) (count : Nat) : Nat :=
  byteLength (added ++ (source.take (start + count)).drop start)

/-- The text between two offsets, cut once more. -/
theorem between_eq (source : List Char) (start count more : Nat) :
    (source.take (start + count + more)).drop start =
      (source.take (start + count)).drop start ++ (source.drop (start + count)).take more := by
  rw [List.take_add, List.drop_append]
  by_cases inside : start + count ≤ source.length
  · have none : start - (source.take (start + count)).length = 0 := by
      rw [List.length_take_of_le inside]
      omega
    rw [none, List.drop_zero]
  · rw [List.drop_eq_nil_of_le (by omega : source.length ≤ start + count), List.take_nil,
      List.drop_nil]

theorem length_between {source : List Char} {start count : Nat}
    (within : start + count ≤ source.length) :
    ((source.take (start + count)).drop start).length = count := by
  rw [List.length_drop, List.length_take_of_le within, Nat.add_sub_cancel_left]

/-- The cursor of the file goes over a fragment from where it starts. -/
theorem filePosition_between (source : List Char) (start count : Nat) :
    (filePosition source start).past ((source.take (start + count)).drop start) =
      filePosition source (start + count) := by
  have cut : source.take start ++ (source.take (start + count)).drop start =
      source.take (start + count) := by
    have front : (source.take (start + count)).take start = source.take start := by
      rw [List.take_take, Nat.min_eq_left (Nat.le_add_right _ _)]
    rw [← front, List.take_append_drop]
  rw [filePosition, ← past_start, ← Position.past_append, cut, past_start, filePosition]

section Cut

variable {source added : List Char} {start stop count : Nat}

theorem fragment_eq (behind : List Char) (inside : start + count ≤ stop) :
    fragment source start stop added behind =
      (added ++ (source.take (start + count)).drop start) ++
        ((source.drop (start + count)).take (stop - (start + count)) ++ behind) := by
  have whole := between_eq source start count (stop - (start + count))
  rw [Nat.add_sub_cancel' inside] at whole
  rw [fragment, whole, List.append_assoc, List.append_assoc]

/-- Cutting a fragment out of a file loses no position. The byte at which a character of the file is
encoded in the fragment leads to that character, and its position in the fragment, moved to where
the fragment starts, is the one in the file. So does every other byte of the character. The bytes
between two characters are the text between them. -/
theorem fragment_places (behind : List Char) (ordered : start + count ≤ stop) (within : stop ≤ source.length)
    (oneLine : '\n' ∉ added) :
    characterAt? (fragment source start stop added behind) (fragmentByte source start added count) =
        some (added.length + count) ∧
      ((characterAt? (fragment source start stop added behind)
          (fragmentByte source start added count)).map fun character =>
            shifted (filePosition source start) added.length
              (positionAt (fragment source start stop added behind) character)) =
        some (filePosition source (start + count)) ∧
      positionAt source (start + count) = filePosition source (start + count) ∧
      (∀ front c rest, fragment source start stop added behind = front ++ c :: rest →
        ∀ inner < c.utf8Size,
          characterAt? (fragment source start stop added behind) (byteLength front + inner) =
            some front.length) ∧
      ∀ more, start + count + more ≤ stop →
        slice (fragment source start stop added behind) (fragmentByte source start added count)
            (fragmentByte source start added (count + more)) =
          .ok ((source.drop (start + count)).take more) := by
  have length : (added ++ (source.take (start + count)).drop start).length = added.length + count := by
    rw [List.length_append, length_between (Nat.le_trans ordered within)]
  have character : characterAt? (fragment source start stop added behind)
      (fragmentByte source start added count) = some (added.length + count) := by
    rw [fragment_eq behind ordered, fragmentByte, characterAt?_between, length]
  refine ⟨character, ?_, positionAt_eq_filePosition (Nat.le_trans ordered within), ?_, ?_⟩
  · have counted : 1 ≤ (Position.past ⟨1, 0⟩ added).line := by
      rw [past_start]
      exact Nat.le_add_right _ _
    rw [character, Option.map_some, fragment_eq behind ordered, ← length, positionAt_append, Position.past_append,
      shifted_past _ _ counted, shifted_added _ oneLine, filePosition_between]
  · intro front c rest same inner inside
    rw [same, characterAt?_inside inside]
  · intro more enough
    have further := between_eq source start count more
    have split : fragment source start stop added behind = _ :=
      fragment_eq behind (Nat.add_assoc start count more ▸ enough : start + (count + more) ≤ stop)
    rw [← Nat.add_assoc, further, ← List.append_assoc added, List.append_assoc] at split
    rw [split, fragmentByte, fragmentByte, ← Nat.add_assoc, further, ← List.append_assoc added,
      slice_between]

end Cut

/-- An expression in braces that starts with a character of four bytes and goes on in the next
line, read in parentheses. -/
theorem fragment_places_smile :
    3 + 2 ≤ 6 ∧ 6 ≤ "é\n\x7b😀\nx\x7d".toList.length ∧ '\n' ∉ ['('] ∧
      fragment "é\n\x7b😀\nx\x7d".toList 3 6 ['('] ['\n', ')'] = "(😀\nx\n)".toList ∧
      filePosition "é\n\x7b😀\nx\x7d".toList 3 = ⟨2, 1⟩ ∧
      fragmentByte "é\n\x7b😀\nx\x7d".toList 3 ['('] 2 = 6 ∧
      ((characterAt? "(😀\nx\n)".toList 6).map fun character =>
        shifted ⟨2, 1⟩ 1 (positionAt "(😀\nx\n)".toList character)) = some ⟨3, 0⟩ ∧
      characterAt? "(😀\nx\n)".toList (1 + 3) = some 1 ∧
      slice "(😀\nx\n)".toList 1 6 = .ok ['😀', '\n'] := by
  have long : 6 ≤ "é\n\x7b😀\nx\x7d".toList.length := by decide
  have cut : fragment "é\n\x7b😀\nx\x7d".toList 3 6 ['('] ['\n', ')'] = "(😀\nx\n)".toList := by decide
  have start : filePosition "é\n\x7b😀\nx\x7d".toList 3 = ⟨2, 1⟩ := by decide
  have first : fragmentByte "é\n\x7b😀\nx\x7d".toList 3 ['('] 0 = 1 := by decide
  have last : fragmentByte "é\n\x7b😀\nx\x7d".toList 3 ['('] 2 = 6 := by decide
  obtain ⟨-, -, -, inside, slices⟩ := fragment_places ['\n', ')'] (by decide : 3 + 0 ≤ 6) long
    (by decide : '\n' ∉ ['('])
  obtain ⟨-, place, -⟩ := fragment_places ['\n', ')'] (by decide : 3 + 2 ≤ 6) long
    (by decide : '\n' ∉ ['('])
  rw [cut, last, start] at place
  rw [cut] at inside slices
  refine ⟨by decide, long, by decide, cut, start, last, place, ?_, ?_⟩
  · exact inside ['('] '😀' ['\n', 'x', '\n', ')'] (by decide) 3 (by decide)
  · have two := slices 2 (by decide)
    rw [first, last] at two
    exact two

end Phrasebook.Source

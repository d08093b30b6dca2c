import Phrasebook.Markup.Parse
import Phrasebook.Proofs.Outcome

set_option autoImplicit false

/-!
What the reading of markup does at each kind of character: text is passed, tags open and close
elements, and a tag ends its attributes.
-/
namespace Phrasebook.Markup.Component

theorem before_append (text rest : List Char) : before (text ++ rest) rest = text := by
  rw [before, List.length_append, Nat.add_sub_cancel, List.take_left]

variable (component : Component)

/-! ### The loop -/

theorem content_nil (fuel : Nat) (state : Open) : component.content fuel state [] = .ok state := by
  cases fuel <;> rfl

/-- Text between tags leaves no trace. -/
theorem content_text (fuel : Nat) (state : Open) {c : Char} (plain : c ≠ '<' ∧ c ≠ '{')
    (rest : List Char) :
    component.content (fuel + 1) state (c :: rest) = component.content fuel state rest := by
  rw [content.eq_def]
  dsimp only
  rw [if_neg plain.1, if_neg plain.2]

theorem tagName?_head {text name after : List Char} (named : tagName? text = some (name, after)) :
    ∃ c rest, text = c :: rest ∧ c ≠ '/' ∧ c ≠ '!' := by
  cases text with
  | nil => cases named
  | cons c rest =>
    rw [tagName?] at named
    split at named
    · rename_i letter
      refine ⟨c, rest, rfl, ?_, ?_⟩
      · rintro rfl
        exact absurd letter (by decide)
      · rintro rfl
        exact absurd letter (by decide)
    · cases named

theorem content_openTag (fuel : Nat) (state : Open) {text name after : List Char}
    (named : tagName? text = some (name, after)) :
    component.content (fuel + 1) state ('<' :: text) =
      (component.openTag state ('<' :: text) name after >>= fun read =>
        component.content fuel read.1 read.2) := by
  obtain ⟨c, rest, rfl, notSlash, notMark⟩ := tagName?_head named
  rw [content.eq_def]
  dsimp only
  rw [if_pos rfl]
  split
  · rename_i same
    exact absurd (List.cons.inj same).1 notSlash
  · rename_i same
    exact absurd (List.cons.inj same).1 notMark
  · rw [named]

theorem content_closeTag (fuel : Nat) (state : Open) (text : List Char) :
    component.content (fuel + 1) state ('<' :: '/' :: text) =
      (component.closeTag state ('<' :: '/' :: text) >>= fun read =>
        component.content fuel read.1 read.2) := by
  rw [content, if_pos rfl]

/-! ### Attributes and the end of a tag -/

theorem namedAttribute_value {text rest : List Char}
    (equals : text.dropWhile isAttributeNamePart = '=' :: rest) :
    component.namedAttribute text =
      (component.attributeValue rest >>= fun value =>
        .ok (.attr (component.position text)
          (String.ofList (text.takeWhile isAttributeNamePart)) (some value.1), value.2)) := by
  rw [namedAttribute, equals]
  rfl

theorem namedAttribute_bare {text rest : List Char}
    (ends : text.dropWhile isAttributeNamePart = rest) (noValue : rest.head? ≠ some '=') :
    component.namedAttribute text =
      .ok (.attr (component.position text)
        (String.ofList (text.takeWhile isAttributeNamePart)) none, rest) := by
  rw [namedAttribute, ends]
  split
  · exact absurd rfl noValue
  · rfl

theorem attributes_open (fuel : Nat) {text rest : List Char}
    (ends : text.dropWhile Text.isBlank = '>' :: rest) :
    component.attributes (fuel + 1) text = .ok (([], false), rest) := by
  rw [attributes, ends]
  rfl

theorem attributes_closed (fuel : Nat) {text rest : List Char}
    (ends : text.dropWhile Text.isBlank = '/' :: '>' :: rest) :
    component.attributes (fuel + 1) text = .ok (([], true), rest) := by
  rw [attributes, ends]
  rfl

/-- An attribute is read, and then those after it. -/
theorem attributes_named (fuel : Nat) {text rest : List Char} {c : Char}
    (starts : text.dropWhile Text.isBlank = c :: rest) (part : isAttributeNamePart c = true) :
    component.attributes (fuel + 1) text =
      (component.namedAttribute (c :: rest) >>= fun first =>
        component.attributes fuel first.2 >>= fun others =>
          .ok ((first.1 :: others.1.1, others.1.2), others.2)) := by
  have apart : c ≠ '/' ∧ c ≠ '>' ∧ c ≠ '{' := by
    refine ⟨?_, ?_, ?_⟩ <;> rintro rfl <;> exact absurd part (by decide)
  rw [attributes, starts]
  split
  · contradiction
  · rename_i same
    exact absurd (List.cons.inj same).1 apart.1
  · rename_i same
    exact absurd (List.cons.inj same).1 apart.2.1
  · rename_i same
    obtain ⟨rfl, rfl⟩ := List.cons.inj same
    rw [if_neg apart.2.2, if_pos part]
    cases component.namedAttribute (c :: rest) <;> rfl

end Phrasebook.Markup.Component

import Mathlib.Data.List.TakeWhile
import Phrasebook.Markup.Parse
import Phrasebook.Proofs.Markup.Steps
import Phrasebook.Proofs.Source.Position
import Phrasebook.Proofs.Text.Class

set_option autoImplicit false

/-!
Markup without tags in braces and scripts, as it is printed, the tree that it stands for, and reading
printed tags back. A cursor goes over what is printed, character by character, and every node of the
tree lies where it is printed. Names and attributes end where the next part of the tag begins, and
each node has the position of the cursor.
-/
namespace Phrasebook.Markup

open Outcome
open Source (Position positionAt)

/-! ### Tags -/

/-- The name of a tag that is not a script's. -/
structure TagName where
  letter : Char
  rest : List Char
  isLetter : Text.isAsciiLetter letter = true
  isPart : ∀ c ∈ rest, isTagNamePart c = true
  notScript : isScript (String.ofList (letter :: rest)) = false

namespace TagName

def chars (name : TagName) : List Char := name.letter :: name.rest

def text (name : TagName) : String := String.ofList name.chars

/-- An element that has no content. A component is none, however it is named. -/
def isVoidElement (name : TagName) : Bool := isVoid name.text && !isComponent name.text

end TagName

/-- The value of an attribute in quotes, which are not in it. -/
structure QuotedValue where
  quote : Char
  text : List Char
  isQuote : isQuote quote = true
  plain : ∀ c ∈ text, c ≠ quote ∧ c ≠ '{'

/-- An attribute with the blanks in front of it. -/
structure Attribute where
  space : List Char
  name : List Char
  value : Option QuotedValue
  spaced : space ≠ []
  isBlank : ∀ c ∈ space, Text.isBlank c = true
  named : name ≠ []
  isPart : ∀ c ∈ name, isAttributeNamePart c = true

def printedValue : Option QuotedValue → List Char
  | none => []
  | some value => '=' :: value.quote :: (value.text ++ [value.quote])

/-- The text of a value that starts at a position, unless it is empty. -/
def QuotedValue.nodes (value : QuotedValue) (start : Position) : List Tree :=
  if value.text = [] then [] else [.text start (String.ofList value.text)]

namespace Attribute

def printed (given : Attribute) : List Char :=
  given.space ++ (given.name ++ printedValue given.value)

/-- The node of an attribute that is printed from a position on. -/
def node (given : Attribute) (start : Position) : Tree :=
  let place := start.past given.space
  .attr place (String.ofList given.name) (given.value.map fun value =>
    value.nodes ((place.past given.name).past ['=', value.quote]))

def printedAll (attributes : List Attribute) : List Char := attributes.flatMap printed

def nodesAll : Position → List Attribute → List Tree
  | _, [] => []
  | start, given :: rest =>
    given.node start :: nodesAll (start.past given.printed) rest

end Attribute

def TagName.opening (name : TagName) (attributes : List Attribute) : List Char :=
  '<' :: (name.chars ++ Attribute.printedAll attributes)

/-- The end of an opening tag, which may close itself. -/
def ending (closed : Bool) : List Char := if closed then ['/', '>'] else ['>']

def TagName.closing (name : TagName) : List Char := '<' :: '/' :: (name.chars ++ ['>'])

/-- The nodes of the attributes of a tag that starts at a position. -/
def attributeNodes (start : Position) (name : TagName) (attributes : List Attribute) : List Tree :=
  Attribute.nodesAll (start.past ('<' :: name.chars)) attributes

/-! ### Pieces -/

/-- A text, or an element or component with what is in it. -/
inductive Piece where
  | text (chars : List Char) (plain : ∀ c ∈ chars, c ≠ '<' ∧ c ≠ '{')
  | paired (name : TagName) (attributes : List Attribute) (content : List Piece)
      (hasContent : name.isVoidElement = false)
  | closed (name : TagName) (attributes : List Attribute)
  | void (name : TagName) (attributes : List Attribute) (isVoid : name.isVoidElement = true)

namespace Piece

mutual

def printed : Piece → List Char
  | text chars _ => chars
  | paired name attributes content _ =>
    name.opening attributes ++ (ending false ++ (printedAll content ++ name.closing))
  | closed name attributes => name.opening attributes ++ ending true
  | void name attributes _ => name.opening attributes ++ ending false

def printedAll : List Piece → List Char
  | [] => []
  | piece :: rest => piece.printed ++ printedAll rest

end

mutual

/-- The node of a piece that is printed from a position on. Text has none. -/
def nodes (start : Position) : Piece → List Tree
  | text _ _ => []
  | paired name attributes content _ =>
    [Component.elementNode start name.text (attributeNodes start name attributes)
      (nodesAll ((start.past (name.opening attributes)).past (ending false)) content)]
  | closed name attributes =>
    [Component.elementNode start name.text (attributeNodes start name attributes) []]
  | void name attributes _ =>
    [Component.elementNode start name.text (attributeNodes start name attributes) []]

def nodesAll (start : Position) : List Piece → List Tree
  | [] => []
  | piece :: rest => piece.nodes start ++ nodesAll (start.past piece.printed) rest

end

mutual

/-- Some tags in a piece that open and close have the name of an element without content. As no such
element has a closing tag, they are those of a component. -/
def hasVoidPair : Piece → Bool
  | text _ _ => false
  | paired name _ content _ => isVoid name.text || anyVoidPair content
  | closed _ _ => false
  | void _ _ _ => false

def anyVoidPair : List Piece → Bool
  | [] => false
  | piece :: rest => piece.hasVoidPair || anyVoidPair rest

end

end Piece

/-! ### Runs of characters -/

/-- A text does not go on with a character of a class. -/
def Stops (part : Char → Bool) (text : List Char) : Prop := ∀ c ∈ text.head?, part c = false

theorem Stops.takeWhile {part : Char → Bool} {run rest : List Char} (stops : Stops part rest)
    (inside : ∀ c ∈ run, part c = true) : (run ++ rest).takeWhile part = run :=
  Text.takeWhile_run inside stops

theorem Stops.dropWhile {part : Char → Bool} {run rest : List Char} (stops : Stops part rest)
    (inside : ∀ c ∈ run, part c = true) : (run ++ rest).dropWhile part = rest :=
  Text.dropWhile_run inside stops

theorem isTagNamePart_of_isBlank {c : Char} (blank : Text.isBlank c = true) :
    isTagNamePart c = false := by
  have apart : c ≠ '.' ∧ c ≠ ':' ∧ c ≠ '-' := by
    refine ⟨?_, ?_, ?_⟩ <;> rintro rfl <;> exact absurd blank (by decide)
  simp [isTagNamePart, Text.isWord_of_isBlank blank, apart]

theorem isBlank_of_isTagNamePart {c : Char} (part : isTagNamePart c = true) :
    Text.isBlank c = false := by
  rw [Bool.eq_false_iff]
  intro blank
  rw [isTagNamePart_of_isBlank blank] at part
  cases part

theorem isBlank_of_isAttributeNamePart {c : Char} (part : isAttributeNamePart c = true) :
    Text.isBlank c = false := by
  rw [isAttributeNamePart, Bool.not_eq_true', Bool.or_eq_false_iff] at part
  exact part.1

theorem isAttributeNamePart_of_isBlank {c : Char} (blank : Text.isBlank c = true) :
    isAttributeNamePart c = false := by
  rw [isAttributeNamePart, blank, Bool.true_or, Bool.not_true]

theorem isTagNamePart_of_isAsciiLetter {c : Char} (letter : Text.isAsciiLetter c = true) :
    isTagNamePart c = true := by
  rw [isTagNamePart, Text.isWord_of_isAsciiLetter letter]
  rfl

theorem TagName.isPart_chars (name : TagName) : ∀ c ∈ name.chars, isTagNamePart c = true := by
  intro c member
  rcases List.mem_cons.mp member with rfl | later
  · exact isTagNamePart_of_isAsciiLetter name.isLetter
  · exact name.isPart c later

theorem tagName?_chars (name : TagName) {rest : List Char} (stops : Stops isTagNamePart rest) :
    tagName? (name.chars ++ rest) = some (name.chars, rest) := by
  rw [TagName.chars, List.cons_append, tagName?, if_pos name.isLetter, stops.takeWhile name.isPart,
    stops.dropWhile name.isPart]

/-! ### The cursor -/

namespace Component

variable {component : Component}

/-- The text that is left of a component, with the position where it starts. -/
def Reads (component : Component) (place : Position) (rest : List Char) : Prop :=
  ∃ before, component.source = before ++ rest ∧ Position.past ⟨1, 0⟩ before = place

theorem Reads.position {place : Position} {rest : List Char} (reads : component.Reads place rest) :
    component.position rest = place := by
  obtain ⟨before, source, stands⟩ := reads
  rw [Component.position, offset, source, List.length_append, Nat.add_sub_cancel,
    Source.positionAt_append, stands]

theorem Reads.past {place : Position} {text rest : List Char}
    (reads : component.Reads place (text ++ rest)) : component.Reads (place.past text) rest := by
  obtain ⟨before, source, stands⟩ := reads
  refine ⟨before ++ text, ?_, ?_⟩
  · rw [source, List.append_assoc]
  · rw [Position.past_append, stands]

/-! ### Attributes -/

theorem quotedValue_plain (quote : Char) (start : List Char) {text : List Char}
    (plain : ∀ c ∈ text, c ≠ quote ∧ c ≠ '{') {fuel : Nat} (enough : text.length < fuel)
    (rest : List Char) :
    component.quotedValue quote fuel start (text ++ quote :: rest) =
      .ok (component.textChunk start (quote :: rest), rest) := by
  induction text generalizing fuel with
  | nil =>
    cases fuel with
    | zero => exact absurd enough (Nat.not_lt_zero _)
    | succ fuel => rw [List.nil_append, quotedValue, if_pos rfl]
  | cons c text ih =>
    cases fuel with
    | zero => exact absurd enough (Nat.not_lt_zero _)
    | succ fuel =>
      obtain ⟨notQuote, notBrace⟩ := plain c List.mem_cons_self
      rw [List.cons_append, quotedValue, if_neg notQuote, if_neg notBrace]
      exact ih (fun d member => plain d (List.mem_cons_of_mem _ member)) (by simpa using enough)

theorem textChunk_plain (value : QuotedValue) {place : Position} {rest : List Char}
    (reads : component.Reads place (value.text ++ rest)) :
    component.textChunk (value.text ++ rest) rest = value.nodes place := by
  rw [textChunk, before_append, reads.position, QuotedValue.nodes]
  cases value.text <;> rfl

theorem attributeValue_quoted (value : QuotedValue) {place : Position} {rest : List Char}
    (reads : component.Reads place (value.text ++ value.quote :: rest)) :
    component.attributeValue (value.quote :: (value.text ++ value.quote :: rest)) =
      .ok (value.nodes place, rest) := by
  rw [attributeValue, if_pos value.isQuote, quotedValue_plain _ _ value.plain (by
      rw [List.length_append]
      omega), textChunk_plain value reads]

/-- An attribute is read up to its end, if what follows does not belong to it. -/
theorem namedAttribute_printed (given : Attribute) {start : Position} {rest : List Char}
    (reads : component.Reads start (given.printed ++ rest))
    (stops : Stops isAttributeNamePart rest) (noValue : rest.head? ≠ some '=') :
    component.namedAttribute (given.name ++ (printedValue given.value ++ rest)) =
      .ok (given.node start, rest) := by
  rw [Attribute.printed, List.append_assoc, List.append_assoc] at reads
  have named := reads.past
  have inside := named.past
  cases same : given.value with
  | none =>
    rw [same, printedValue, List.nil_append] at named
    rw [printedValue, List.nil_append,
      namedAttribute_bare component (stops.dropWhile given.isPart) noValue,
      stops.takeWhile given.isPart, named.position, Attribute.node, same]
    rfl
  | some value =>
    have shape : printedValue (some value) ++ rest =
        ['=', value.quote] ++ (value.text ++ value.quote :: rest) := by
      simp [printedValue]
    have ends : Stops isAttributeNamePart
        (['=', value.quote] ++ (value.text ++ value.quote :: rest)) := by
      intro c first
      cases first
      decide
    rw [same, shape] at named inside
    have valued : (given.name ++ (['=', value.quote] ++
        (value.text ++ value.quote :: rest))).dropWhile isAttributeNamePart =
        '=' :: value.quote :: (value.text ++ value.quote :: rest) := ends.dropWhile given.isPart
    rw [shape, namedAttribute_value component valued, named.position, ends.takeWhile given.isPart,
      attributeValue_quoted value inside.past, Attribute.node, same]
    rfl

/-- What can follow an attribute: a blank, or the end of the tag. -/
def EndsAttribute (text : List Char) : Prop :=
  ∃ c rest, text = c :: rest ∧ (Text.isBlank c = true ∨ c = '/' ∨ c = '>')

theorem EndsAttribute.stops {text : List Char} (ends : EndsAttribute text) :
    Stops isTagNamePart text ∧ Stops isAttributeNamePart text ∧ text.head? ≠ some '=' := by
  obtain ⟨c, rest, rfl, kind⟩ := ends
  have tag : isTagNamePart c = false := by
    rcases kind with blank | rfl | rfl
    · exact isTagNamePart_of_isBlank blank
    · decide
    · decide
  have name : isAttributeNamePart c = false := by
    rcases kind with blank | rfl | rfl
    · exact isAttributeNamePart_of_isBlank blank
    · decide
    · decide
  refine ⟨?_, ?_, ?_⟩
  · intro d first
    cases first
    exact tag
  · intro d first
    cases first
    exact name
  · intro same
    cases same
    rcases kind with blank | same | same
    · exact absurd blank (by decide)
    · cases same
    · cases same

theorem endsAttribute_ending (closed : Bool) (rest : List Char) :
    EndsAttribute (ending closed ++ rest) := by
  cases closed with
  | true => exact ⟨'/', '>' :: rest, rfl, .inr (.inl rfl)⟩
  | false => exact ⟨'>', rest, rfl, .inr (.inr rfl)⟩

theorem endsAttribute_attributes (attributes : List Attribute) (closed : Bool) (rest : List Char) :
    EndsAttribute (Attribute.printedAll attributes ++ (ending closed ++ rest)) := by
  cases attributes with
  | nil => exact endsAttribute_ending closed rest
  | cons given attributes =>
    obtain ⟨c, space, shape⟩ := List.exists_cons_of_ne_nil given.spaced
    have blank := given.isBlank c (by rw [shape]; exact List.mem_cons_self)
    refine ⟨c, space ++ (given.name ++ printedValue given.value) ++
      Attribute.printedAll attributes ++ (ending closed ++ rest), ?_, .inl blank⟩
    rw [Attribute.printedAll, List.flatMap_cons, Attribute.printed, shape]
    rfl

theorem attributes_ending (closed : Bool) (fuel : Nat) (rest : List Char) :
    component.attributes (fuel + 1) (ending closed ++ rest) = .ok (([], closed), rest) := by
  cases closed with
  | true => exact component.attributes_closed fuel (List.dropWhile_cons_of_neg (by decide))
  | false => exact component.attributes_open fuel (List.dropWhile_cons_of_neg (by decide))

theorem attributes_printed (attributes : List Attribute) (closed : Bool) {start : Position}
    {fuel : Nat} {rest : List Char} (enough : attributes.length < fuel)
    (reads : component.Reads start (Attribute.printedAll attributes ++ (ending closed ++ rest))) :
    component.attributes fuel (Attribute.printedAll attributes ++ (ending closed ++ rest)) =
      .ok ((Attribute.nodesAll start attributes, closed), rest) := by
  induction attributes generalizing start fuel with
  | nil =>
    obtain ⟨fuel, rfl⟩ := Nat.exists_eq_succ_of_ne_zero (Nat.ne_of_gt enough)
    exact attributes_ending closed fuel rest
  | cons given attributes ih =>
    obtain ⟨fuel, rfl⟩ := Nat.exists_eq_succ_of_ne_zero (Nat.ne_of_gt (Nat.zero_lt_of_lt enough))
    have follows := (endsAttribute_attributes attributes closed rest).stops
    rw [Attribute.printedAll, List.flatMap_cons, List.append_assoc, ← Attribute.printedAll] at reads ⊢
    obtain ⟨c, name, shape⟩ := List.exists_cons_of_ne_nil given.named
    have part : isAttributeNamePart c = true :=
      given.isPart c (by rw [shape]; exact List.mem_cons_self)
    have blanks : (given.printed ++ (Attribute.printedAll attributes ++ (ending closed ++ rest))).dropWhile
        Text.isBlank = given.name ++ (printedValue given.value ++
          (Attribute.printedAll attributes ++ (ending closed ++ rest))) := by
      rw [Attribute.printed, List.append_assoc, List.append_assoc]
      apply Stops.dropWhile _ given.isBlank
      rw [shape]
      intro d first
      cases first
      exact isBlank_of_isAttributeNamePart part
    have read := namedAttribute_printed given reads follows.2.1 follows.2.2
    rw [shape, List.cons_append] at blanks read
    rw [attributes_named component fuel blanks part, read, ok_bind,
      ih (Nat.lt_of_succ_lt_succ enough) reads.past, ok_bind]
    rfl

end Component

end Phrasebook.Markup

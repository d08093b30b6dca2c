import Phrasebook.Proofs.Markup.Nesting
import Phrasebook.Proofs.Markup.ReadTag
import Phrasebook.Proofs.Text.Trim

set_option autoImplicit false

/-!
Reading printed markup back. The pieces are read one after another: each adds its nodes to the
innermost element that is open and leaves the open elements as they were.
-/
namespace Phrasebook.Markup

open Outcome
open Source (Node Position)

namespace Component

/-! ### Open elements -/

/-- No open element has the name of one without content. -/
def Open.NoneVoid (state : Open) : Prop := ∀ name ∈ state.names, isVoid name = false

theorem Open.NoneVoid.appendAll {state : Open} (nonVoid : state.NoneVoid) (nodes : List Tree) :
    (state.appendAll nodes).NoneVoid := by
  rw [NoneVoid, names_appendAll]
  exact nonVoid

theorem Open.NoneVoid.open {state : Open} (nonVoid : state.NoneVoid) (place : Position)
    {name : String} (attributes : List Tree) (notVoid : isVoid name = false) :
    (state.open place name attributes).NoneVoid := by
  intro other listed
  rcases List.mem_cons.mp listed with rfl | outer
  · exact notVoid
  · exact nonVoid other outer

/-! ### Single tags -/

variable {component : Component}

/-- What an opening tag leaves open. -/
def Open.opened (state : Open) (place : Position) (name : TagName) (attributes : List Attribute)
    (closed : Bool) : Open :=
  if closed || isVoid name.text then
    state.append (elementNode place name.text (attributeNodes place name attributes) [])
  else
    ⟨⟨place, name.text, attributeNodes place name attributes, []⟩ :: state.frames, state.outside⟩

theorem length_printedAll (attributes : List Attribute) :
    attributes.length ≤ (Attribute.printedAll attributes).length := by
  induction attributes with
  | nil => exact Nat.zero_le _
  | cons given attributes ih =>
    have some := List.length_pos_iff.mpr given.spaced
    rw [Attribute.printedAll, List.flatMap_cons, ← Attribute.printedAll, Attribute.printed,
      List.length_append, List.length_append, List.length_cons]
    omega

theorem openTag_printed (state : Open) (name : TagName) (attributes : List Attribute)
    (closed : Bool) {place : Position} {rest : List Char}
    (reads : component.Reads place (name.opening attributes ++ (ending closed ++ rest))) :
    component.openTag state (name.opening attributes ++ (ending closed ++ rest)) name.chars
        (Attribute.printedAll attributes ++ (ending closed ++ rest)) =
      .ok (Open.opened state place name attributes closed, rest) := by
  have inside : component.Reads (place.past ('<' :: name.chars))
      (Attribute.printedAll attributes ++ (ending closed ++ rest)) := by
    have whole := reads
    rw [TagName.opening, List.cons_append, List.append_assoc] at whole
    exact whole.past
  have script : isScript (String.ofList name.chars) = false := name.notScript
  have enough := length_printedAll attributes
  rw [openTag, attributes_printed attributes closed (by rw [List.length_append]; omega) inside,
    ok_bind, reads.position]
  dsimp only
  rw [script, if_neg Bool.false_ne_true, ← TagName.text, Open.opened, attributeNodes]
  by_cases shut : (closed || isVoid name.text) = true
  · rw [if_pos shut, if_pos shut]
    rfl
  · rw [if_neg shut, if_neg shut]
    rfl

theorem content_opening (state : Open) (name : TagName) (attributes : List Attribute)
    (closed : Bool) {place : Position} (fuel : Nat) {rest : List Char}
    (reads : component.Reads place (name.opening attributes ++ (ending closed ++ rest))) :
    component.content (fuel + 1) state (name.opening attributes ++ (ending closed ++ rest)) =
      component.content fuel (Open.opened state place name attributes closed) rest := by
  have named := tagName?_chars name (endsAttribute_attributes attributes closed rest).stops.1
  have step := content_openTag component fuel state named
  have opens := openTag_printed state name attributes closed reads
  rw [← List.append_assoc, ← List.cons_append, ← TagName.opening, opens] at step
  exact step

theorem stripped_chars (name : TagName) : Text.stripped name.chars = name.chars :=
  Text.stripped_of_shown fun c member => isBlank_of_isTagNamePart (name.isPart_chars c member)

theorem closeTag_printed (state : Open) (name : TagName) (rest : List Char) :
    component.closeTag state (name.closing ++ rest) =
      match state.frames.findIdx? (·.name = name.text) with
      | some depth => .ok (state.closeMany (depth + 1), rest)
      | none => component.fail (.notOpened name.text) (name.closing ++ rest) := by
  have shape : name.closing ++ rest = ('<' :: '/' :: name.chars) ++ '>' :: rest := by
    simp [TagName.closing]
  have inside : ∀ c ∈ '<' :: '/' :: name.chars, decide (c ≠ '>') = true := by
    intro c member
    rw [decide_eq_true_eq]
    rintro rfl
    rcases List.mem_cons.mp member with same | member
    · exact absurd same (by decide)
    · rcases List.mem_cons.mp member with same | member
      · exact absurd same (by decide)
      · exact absurd (name.isPart_chars _ member) (by decide)
  have close : (name.closing ++ rest).dropWhile (· ≠ '>') = '>' :: rest := by
    rw [shape]
    exact Stops.dropWhile (fun c first => by cases first; decide) inside
  have text : before (name.closing ++ rest) ('>' :: rest) = '<' :: '/' :: name.chars := by
    rw [shape, before_append]
  rw [closeTag, close]
  dsimp only
  rw [text, List.drop_succ_cons, List.drop_succ_cons, List.drop_zero, stripped_chars]
  rfl

/-! ### Pieces -/

/-- What reading comes to after some pieces: it goes on with their nodes added, or, if a component
among them with a closing tag has the name of an element without content, it stops at such a tag. -/
inductive Reading (component : Component) (state : Open) (nodes : List Tree) (rest : List Char)
    (hasVoid : Bool) (result : Except ParseError Open) : Prop where
  | passed (fuel : Nat) (enough : rest.length < fuel) (whole : hasVoid = false)
    (same : result = component.content fuel (state.appendAll nodes) rest)
  | stopped (name : String) (place : Position) (isVoid : isVoid name = true)
    (broken : hasVoid = true) (same : result = .error ⟨.notOpened name, some place⟩)

/-- The pieces after others are read in the state that those leave. -/
theorem Reading.append {state : Open} {first later : List Tree} {between rest : List Char}
    {firstVoid laterVoid : Bool} {result : Except ParseError Open}
    (reading : Reading component state first between firstVoid result)
    (next : ∀ fuel, between.length < fuel → Reading component (state.appendAll first) later rest
      laterVoid (component.content fuel (state.appendAll first) between)) :
    Reading component state (first ++ later) rest (firstVoid || laterVoid) result := by
  cases reading with
  | passed fuel enough whole same =>
    rw [whole, Bool.false_or, same]
    cases next fuel enough with
    | passed fuel enough whole same =>
      exact .passed fuel enough whole (by rw [same, Open.appendAll_append])
    | stopped name place isVoid broken same => exact .stopped name place isVoid broken same
  | stopped name place isVoid broken same =>
    exact .stopped name place isVoid (by rw [broken, Bool.true_or]) same

theorem reading_text (state : Open) {chars : List Char} (plain : ∀ c ∈ chars, c ≠ '<' ∧ c ≠ '{')
    {fuel : Nat} {rest : List Char} (enough : (chars ++ rest).length < fuel) :
    Reading component state [] rest false (component.content fuel state (chars ++ rest)) := by
  induction chars generalizing fuel with
  | nil => exact .passed fuel enough rfl rfl
  | cons c chars ih =>
    obtain ⟨fuel, rfl⟩ := Nat.exists_eq_succ_of_ne_zero (Nat.ne_of_gt (Nat.zero_lt_of_lt enough))
    rw [List.cons_append, content_text component fuel state (plain c List.mem_cons_self)]
    exact ih (fun d member => plain d (List.mem_cons_of_mem _ member)) (by simpa using enough)

theorem length_opening (name : TagName) (attributes : List Attribute) (rest : List Char) :
    rest.length < (name.opening attributes ++ rest).length := by
  rw [List.length_append, TagName.opening, List.length_cons]
  omega

/-- An element whose opening tag leaves nothing open. -/
theorem reading_single (state : Open) (name : TagName) (attributes : List Attribute) (closed : Bool)
    (shut : (closed || isVoid name.text) = true) {place : Position} {fuel : Nat} {rest : List Char}
    (reads : component.Reads place (name.opening attributes ++ (ending closed ++ rest)))
    (enough : (name.opening attributes ++ (ending closed ++ rest)).length < fuel) :
    Reading component state
      [elementNode place name.text (attributeNodes place name attributes) []] rest false
      (component.content fuel state (name.opening attributes ++ (ending closed ++ rest))) := by
  obtain ⟨fuel, rfl⟩ := Nat.exists_eq_succ_of_ne_zero (Nat.ne_of_gt (Nat.zero_lt_of_lt enough))
  refine .passed fuel ?_ rfl ?_
  · have shorter := length_opening name attributes (ending closed ++ rest)
    rw [List.length_append] at shorter
    omega
  · rw [content_opening state name attributes closed fuel reads, Open.opened, if_pos shut]
    rfl

theorem content_closing (state : Open) (name : TagName) (fuel : Nat) (rest : List Char) :
    component.content (fuel + 1) state (name.closing ++ rest) =
      match state.frames.findIdx? (·.name = name.text) with
      | some depth => component.content fuel (state.closeMany (depth + 1)) rest
      | none => component.fail (.notOpened name.text) (name.closing ++ rest) := by
  have step : component.content (fuel + 1) state (name.closing ++ rest) =
      (component.closeTag state (name.closing ++ rest) >>= fun read =>
        component.content fuel read.1 read.2) := content_closeTag component fuel state _
  rw [step, closeTag_printed]
  cases state.frames.findIdx? (·.name = name.text) <;> rfl

/-- The end of the innermost element, which becomes a node of what is around it. -/
theorem content_closing_open (state : Open) (name : TagName) (place : Position)
    (attributes nodes : List Tree) (fuel : Nat) (rest : List Char) :
    component.content (fuel + 1)
        (Open.appendAll ⟨⟨place, name.text, attributes, []⟩ :: state.frames, state.outside⟩ nodes)
        (name.closing ++ rest) =
      component.content fuel (state.append (elementNode place name.text attributes nodes)) rest := by
  have isFirst : (Open.appendAll (state.open place name.text attributes) nodes).names =
      [] ++ name.text :: state.names := Open.names_appendAll _ _
  have shut := Open.findIdx?_names isFirst List.not_mem_nil
  rw [← Open.open, content_closing, shut]
  dsimp only
  rw [List.length_nil, Open.closeMany, Open.closeMany, Open.close_opened]

/-- A closing tag with the name of an element without content closes nothing. -/
theorem content_closing_void {state : Open} (nonVoid : state.NoneVoid) {name : TagName}
    (void : isVoid name.text = true) (fuel : Nat) (rest : List Char) :
    component.content (fuel + 1) state (name.closing ++ rest) =
      .error ⟨.notOpened name.text, some (component.position (name.closing ++ rest))⟩ := by
  have absent : state.frames.findIdx? (·.name = name.text) = none := by
    rw [List.findIdx?_eq_none_iff]
    intro frame isOpen
    have other := nonVoid frame.name (List.mem_map_of_mem isOpen)
    rw [decide_eq_false_iff_not]
    intro same
    rw [same, void] at other
    cases other
  rw [content_closing, absent]
  rfl

/-- The closing tag behind the content of an element ends the element. -/
theorem Reading.closed {state : Open} {name : TagName} {place : Position}
    {attributes nodes : List Tree} {rest : List Char} {broken : Bool}
    {result : Except ParseError Open}
    (reading : Reading component (state.open place name.text attributes) nodes
      (name.closing ++ rest) broken result) :
    Reading component state [elementNode place name.text attributes nodes] rest broken result := by
  cases reading with
  | passed fuel enough whole same =>
    obtain ⟨fuel, rfl⟩ := Nat.exists_eq_succ_of_ne_zero (Nat.ne_of_gt (Nat.zero_lt_of_lt enough))
    have shorter : rest.length < (name.closing ++ rest).length := by
      rw [List.length_append, TagName.closing, List.length_cons]
      omega
    refine .passed fuel (by omega) whole ?_
    rw [same, Open.open, content_closing_open, Open.appendAll_singleton]
  | stopped other place isVoid broken same => exact .stopped other place isVoid broken same

/-- Where an element without content has left nothing open, its closing tag is one too many. -/
theorem Reading.unopened {state inner : Open} (nonVoid : inner.NoneVoid) {name : TagName}
    (void : isVoid name.text = true) {content nodes : List Tree} {rest : List Char} {broken : Bool}
    {result : Except ParseError Open}
    (reading : Reading component inner content (name.closing ++ rest) broken result) :
    Reading component state nodes rest true result := by
  cases reading with
  | passed fuel enough whole same =>
    obtain ⟨fuel, rfl⟩ := Nat.exists_eq_succ_of_ne_zero (Nat.ne_of_gt (Nat.zero_lt_of_lt enough))
    refine .stopped name.text (component.position (name.closing ++ rest)) void rfl ?_
    rw [same, content_closing_void (nonVoid.appendAll _) void]
  | stopped other place isVoid broken same => exact .stopped other place isVoid rfl same

open Piece

mutual

/-- A piece is read as its nodes. -/
theorem reading_piece (piece : Piece) {state : Open} (nonVoid : state.NoneVoid) {place : Position}
    {fuel : Nat} {rest : List Char} (reads : component.Reads place (piece.printed ++ rest))
    (enough : (piece.printed ++ rest).length < fuel) :
    Reading component state (piece.nodes place) rest piece.hasVoidPair
      (component.content fuel state (piece.printed ++ rest)) := by
  match piece with
  | .text chars plain =>
    rw [printed] at enough ⊢
    rw [nodes, hasVoidPair]
    exact reading_text state plain enough
  | .closed name attributes =>
    rw [printed, List.append_assoc] at reads enough ⊢
    rw [nodes, hasVoidPair]
    exact reading_single state name attributes true (Bool.true_or _) reads enough
  | .void name attributes isVoidElement =>
    have void : (false || isVoid name.text) = true := by
      rw [TagName.isVoidElement, Bool.and_eq_true] at isVoidElement
      rw [Bool.false_or, isVoidElement.1]
    rw [printed, List.append_assoc] at reads enough ⊢
    rw [nodes, hasVoidPair]
    exact reading_single state name attributes false void reads enough
  | .paired name attributes content _ =>
    rw [printed, List.append_assoc, List.append_assoc, List.append_assoc] at reads enough ⊢
    obtain ⟨fuel, rfl⟩ := Nat.exists_eq_succ_of_ne_zero (Nat.ne_of_gt (Nat.zero_lt_of_lt enough))
    have shorter := length_opening name attributes
      (ending false ++ (printedAll content ++ (name.closing ++ rest)))
    have within : (printedAll content ++ (name.closing ++ rest)).length < fuel := by
      simp only [List.length_append] at enough shorter ⊢
      omega
    rw [content_opening state name attributes false fuel reads, Open.opened, Bool.false_or, nodes,
      hasVoidPair]
    by_cases void : isVoid name.text = true
    · rw [if_pos void, void, Bool.true_or]
      have afterTag := nonVoid.appendAll
        [elementNode place name.text (attributeNodes place name attributes) []]
      exact (reading_pieces content afterTag reads.past.past within).unopened afterTag void
    · have notVoid : isVoid name.text = false := Bool.eq_false_iff.mpr void
      rw [if_neg void, notVoid, Bool.false_or]
      have afterTag := nonVoid.open place (attributeNodes place name attributes) notVoid
      exact (reading_pieces content afterTag reads.past.past within).closed

theorem reading_pieces (pieces : List Piece) {state : Open} (nonVoid : state.NoneVoid)
    {place : Position} {fuel : Nat} {rest : List Char}
    (reads : component.Reads place (printedAll pieces ++ rest))
    (enough : (printedAll pieces ++ rest).length < fuel) :
    Reading component state (nodesAll place pieces) rest (anyVoidPair pieces)
      (component.content fuel state (printedAll pieces ++ rest)) := by
  match pieces with
  | [] => exact .passed fuel enough rfl rfl
  | piece :: pieces =>
    rw [printedAll, List.append_assoc] at reads enough ⊢
    rw [nodesAll, anyVoidPair]
    apply (reading_piece piece nonVoid reads enough).append
    intro fuel enough
    exact reading_pieces pieces (nonVoid.appendAll _) reads.past enough

end

/-- A component of printed pieces is read to its end, or up to the first closing tag that has the
name of an element without content. -/
theorem reading_source (pieces : List Piece) (component : Component)
    (source : component.source = printedAll pieces) :
    Reading component ⟨[], []⟩ (nodesAll ⟨1, 0⟩ pieces) [] (anyVoidPair pieces)
      (component.content (component.source.length + 1) ⟨[], []⟩ component.source) := by
  have start : component.Reads ⟨1, 0⟩ (printedAll pieces ++ []) := by
    refine ⟨[], ?_, rfl⟩
    rw [source, List.append_nil, List.nil_append]
  have noneOpen : Open.NoneVoid ⟨[], []⟩ := by simp [Open.NoneVoid, Open.names]
  have reading := reading_pieces pieces noneOpen start (Nat.lt_succ_self _)
  rw [List.append_nil] at reading
  rw [source]
  exact reading

end Component

/-- Printed markup is read back as the tree that it was printed from, each node where it was
printed, exactly if no component in it has content and the name of an element without content.
Otherwise reading stops at the closing tag of such a component. -/
theorem parse_printedAll (pieces : List Piece) :
    (parse (Piece.printedAll pieces) = .ok (.fragment ⟨1, 0⟩ (Piece.nodesAll ⟨1, 0⟩ pieces)) ↔
        Piece.anyVoidPair pieces = false) ∧
      (Piece.anyVoidPair pieces = true → ∃ name place, isVoid name = true ∧
        parse (Piece.printedAll pieces) = .error ⟨.notOpened name, some place⟩) := by
  rw [parse, Component.tree]
  cases Component.reading_source pieces
    ⟨Piece.printedAll pieces, dialect (Piece.printedAll pieces)⟩ rfl with
  | passed fuel enough whole same =>
    rw [same, Component.Open.appendAll_outside, Component.content_nil, ok_bind, List.append_nil]
    dsimp only
    rw [List.reverse_reverse, whole]
    exact ⟨⟨fun _ => rfl, fun _ => rfl⟩, fun broken => Bool.noConfusion broken⟩
  | stopped name place isVoid broken same =>
    rw [same, error_bind, broken]
    exact ⟨⟨fun read => (nomatch read), fun whole => Bool.noConfusion whole⟩,
      fun _ => ⟨name, place, isVoid, rfl⟩⟩

/-- A component with content, whose name differs from that of an element without content by a
capital letter only. -/
def linkPiece : Piece :=
  .paired ⟨'L', ['i', 'n', 'k'], by decide, List.all_eq_true.mp (by decide), by decide⟩ []
    [.text ['x'] (by simp)] (by decide)

/-- The closing tag of such a component is taken for one too many. -/
theorem parse_link :
    Piece.printedAll [linkPiece] = "<Link>x</Link>".toList ∧
      Piece.nodesAll ⟨1, 0⟩ [linkPiece] = [.component ⟨1, 0⟩ "Link" [] []] ∧
      parse (Piece.printedAll [linkPiece]) = .error ⟨.notOpened "Link", some ⟨1, 7⟩⟩ ∧
      parse (Piece.printedAll [linkPiece]) ≠
        .ok (.fragment ⟨1, 0⟩ (Piece.nodesAll ⟨1, 0⟩ [linkPiece])) := by
  have stopped : parse (Piece.printedAll [linkPiece]) = .error ⟨.notOpened "Link", some ⟨1, 7⟩⟩ := by
    rfl
  refine ⟨by decide, rfl, stopped, ?_⟩
  rw [stopped]
  exact fun same => nomatch same

end Phrasebook.Markup

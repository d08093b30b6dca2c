import Phrasebook.Proofs.Markup.Nesting
import Phrasebook.Proofs.Markup.Order

set_option autoImplicit false

/-!
The outline of a component. The loop goes on in turns, each of which meets one tag at most. Where it
comes to the end, the tree holds all that was met, once and in its order; and it comes to the end
with nothing left open exactly if the elements nest.
-/
namespace Phrasebook.Markup

open Outcome
open Source (Node Position)

/-! ### The nodes between tags -/

mutual

/-- The nodes that stand between tags in a tree, from left to right, each without those in it. -/
def heads : Tree → List Tree
  | .element place name attributes children => .element place name attributes [] :: headsAll children
  | .component place name attributes children =>
    .component place name attributes [] :: headsAll children
  | node => [node]

def headsAll : List Tree → List Tree
  | [] => []
  | node :: rest => heads node ++ headsAll rest

end

namespace Component

variable {component : Component}

theorem heads_elementNode (place : Position) (name : String) (attributes children : List Tree) :
    heads (elementNode place name attributes children) =
      elementNode place name attributes [] :: headsAll children := by
  rw [elementNode, elementNode]
  split <;> rw [heads]

/-! ### Turns of the loop -/

/-- What an opening tag is: it opens an element, or it is a whole node, for which a script is read up
to its closing tag. -/
inductive Opens (component : Component) (place : Position) (name : String) (attributes : List Tree) :
    Bool → List Char → Event → List Char → Prop
  | element {after : List Char} (notScript : isScript name = false) (notVoid : isVoid name = false) :
      Opens component place name attributes false after (.opening place name attributes) after
  | whole {closed : Bool} {after : List Char} (notScript : isScript name = false)
      (shut : (closed || isVoid name) = true) :
      Opens component place name attributes closed after
        (.single (elementNode place name attributes [])) after
  | emptyScript {after : List Char} (script : isScript name = true) :
      Opens component place name attributes true after (.single (.script place attributes none)) after
  | script {after behind : List Char} {node : Tree} (script : isScript name = true)
      (read : component.scriptContent place attributes after = .ok (node, behind)) :
      Opens component place name attributes false after (.single node) behind

/-- One turn of the loop: what is met, and what is left after it. -/
inductive Turn (component : Component) : List Char → List Event → List Char → Prop
  | text {c : Char} {rest : List Char} (plain : c ≠ '<' ∧ c ≠ '{') : Turn component (c :: rest) [] rest
  /-- An angle bracket that begins no tag. -/
  | bracket {rest : List Char} (noSign : ∀ more, rest ≠ '/' :: more ∧ rest ≠ '!' :: more)
      (noName : tagName? rest = none) : Turn component ('<' :: rest) [] rest
  | declaration {rest : List Char} :
      Turn component ('<' :: '!' :: rest) [] (rest.dropWhile (· ≠ '>')).tail
  | braces {rest after : List Char} {node : Tree}
      (read : component.mustache ('{' :: rest) = .ok (node, after)) :
      Turn component ('{' :: rest) [.single node] after
  | closing {rest after : List Char} (ends : rest.dropWhile (· ≠ '>') = '>' :: after) :
      Turn component ('<' :: '/' :: rest)
        [.closing (component.position ('<' :: '/' :: rest))
          (String.ofList (Text.stripped (rest.takeWhile (· ≠ '>'))))] after
  | opening {rest name inside after behind : List Char} {attributes : List Tree} {closed : Bool}
      {event : Event} (named : tagName? rest = some (name, inside))
      (read : component.attributes (inside.length + 1) inside = .ok ((attributes, closed), after))
      (opens : Opens component (component.position ('<' :: rest)) (String.ofList name) attributes
        closed after event behind) : Turn component ('<' :: rest) [event] behind

/-- What the loop meets up to the end of a text. -/
inductive Meets (component : Component) : List Char → List Event → Prop
  | done : Meets component [] []
  | turn {text rest : List Char} {met later : List Event} (first : Turn component text met rest)
      (more : Meets component rest later) : Meets component text (met ++ later)

theorem tagName?_length {text name inside : List Char}
    (named : tagName? text = some (name, inside)) : inside.length ≤ text.length := by
  rw [tagName?.eq_def] at named
  split at named
  · split at named
    · cases named
      exact Nat.le_succ_of_le (List.dropWhile_suffix isTagNamePart).length_le
    · cases named
  · cases named

section Opens

variable {place : Position} {name : String} {attributes : List Tree} {closed : Bool}
  {after behind : List Char} {event : Event}

/-- The node of an opening tag stands at the tag, with its attributes. -/
theorem Opens.places (opens : Opens component place name attributes closed after event behind) :
    places event.node?.toList = place :: places attributes ∧ behind.length ≤ after.length := by
  have own : Markup.places [elementNode place name attributes []] =
      place :: Markup.places attributes := by
    rw [places_elementNode]
    exact congrArg _ (List.append_nil _)
  cases opens with
  | element => exact ⟨own, Nat.le_refl _⟩
  | whole => exact ⟨own, Nat.le_refl _⟩
  | emptyScript => exact ⟨places_script .., Nat.le_refl _⟩
  | script _ read =>
    obtain ⟨content, rfl, shorter⟩ := scriptContent_node read
    exact ⟨places_script .., shorter⟩

theorem Opens.openTag {tag rest : List Char} {chars : List Char}
    (read : component.attributes (rest.length + 1) rest = .ok ((attributes, closed), after))
    (opens : Opens component (component.position tag) (String.ofList chars) attributes closed after
      event behind) (state : Open) :
    component.openTag state tag chars rest =
      state.take event >>= fun next => .ok (next, behind) := by
  rw [Component.openTag, read, ok_bind]
  dsimp only
  cases opens with
  | element notScript notVoid =>
    rw [if_neg (by simp [notScript]), if_neg (by simp [notVoid])]
    rfl
  | whole notScript shut =>
    rw [if_neg (by simp [notScript]), if_pos shut]
    rfl
  | emptyScript script =>
    rw [if_pos script, if_pos rfl]
    rfl
  | script script read =>
    rw [if_pos script, if_neg Bool.false_ne_true, read]
    rfl

end Opens

theorem exists_opens {state next : Open} {tag chars rest behind : List Char}
    (read : component.openTag state tag chars rest = .ok (next, behind)) :
    ∃ attributes closed after event,
      component.attributes (rest.length + 1) rest = .ok ((attributes, closed), after) ∧
      Opens component (component.position tag) (String.ofList chars) attributes closed after event
        behind := by
  rw [openTag] at read
  obtain ⟨⟨⟨attributes, closed⟩, after⟩, isTag, read⟩ := bind_eq_ok.mp read
  refine ⟨attributes, closed, after, ?_⟩
  dsimp only at read
  split at read
  · rename_i script
    split at read
    · rename_i shut
      cases read
      subst shut
      exact ⟨_, isTag, .emptyScript script⟩
    · rename_i goesOn
      obtain ⟨⟨node, rest⟩, content, done⟩ := bind_eq_ok.mp read
      cases done
      rw [Bool.not_eq_true] at goesOn
      subst goesOn
      exact ⟨_, isTag, .script script content⟩
  · rename_i notScript
    rw [Bool.not_eq_true] at notScript
    split at read
    · rename_i shut
      cases read
      exact ⟨_, isTag, .whole notScript shut⟩
    · rename_i goesOn
      cases read
      rw [Bool.or_eq_true, not_or, Bool.not_eq_true, Bool.not_eq_true] at goesOn
      obtain ⟨rfl, notVoid⟩ := goesOn
      exact ⟨_, isTag, .element notScript notVoid⟩

theorem closeTag_eq {rest after : List Char} (ends : rest.dropWhile (· ≠ '>') = '>' :: after)
    (state : Open) :
    component.closeTag state ('<' :: '/' :: rest) =
      state.take (.closing (component.position ('<' :: '/' :: rest))
        (String.ofList (Text.stripped (rest.takeWhile (· ≠ '>'))))) >>= fun next =>
          .ok (next, after) := by
  have close : ('<' :: '/' :: rest).dropWhile (· ≠ '>') = '>' :: after := by
    rw [List.dropWhile_cons_of_pos (by decide), List.dropWhile_cons_of_pos (by decide), ends]
  have inner : before ('<' :: '/' :: rest) ('>' :: after) =
      '<' :: '/' :: rest.takeWhile (· ≠ '>') := by
    have cut := List.takeWhile_append_dropWhile (p := (· ≠ '>')) (l := rest)
    rw [ends] at cut
    have whole := before_append ('<' :: '/' :: rest.takeWhile (· ≠ '>')) ('>' :: after)
    rwa [List.cons_append, List.cons_append, cut] at whole
  rw [closeTag, close]
  dsimp only
  rw [inner, List.drop_succ_cons, List.drop_succ_cons, List.drop_zero, Open.take]
  cases state.frames.findIdx? _ <;> rfl

namespace Turn

variable {text rest : List Char} {events : List Event}

/-- The nodes that are met in a turn stand in the text that it passes. -/
theorem along (turn : Turn component text events rest) :
    component.Along text (places (Event.nodes events)) rest ∧ rest.length < text.length := by
  cases turn with
  | text => exact ⟨.passed (Nat.le_succ _), Nat.lt_succ_self _⟩
  | bracket => exact ⟨.passed (Nat.le_succ _), Nat.lt_succ_self _⟩
  | @declaration rest =>
    have shorter : (rest.dropWhile (· ≠ '>')).tail.length < ('<' :: '!' :: rest).length := by
      have passed := (List.dropWhile_suffix (· ≠ '>') (l := rest)).length_le
      rw [List.length_tail, List.length_cons, List.length_cons]
      omega
    exact ⟨.passed shorter.le, shorter⟩
  | braces read =>
    obtain ⟨kind, expression, rfl, shorter⟩ := mustache_node read
    exact ⟨mustache_along read, Nat.lt_succ_of_le shorter⟩
  | @closing inner _ ends =>
    have passed := (List.dropWhile_suffix (· ≠ '>') (l := inner)).length_le
    rw [ends, List.length_cons] at passed
    have shorter : rest.length < ('<' :: '/' :: inner).length := by
      rw [List.length_cons, List.length_cons]
      omega
    exact ⟨.passed shorter.le, shorter⟩
  | @opening rest name inside after behind attributes closed event named read opens =>
    obtain ⟨own, less⟩ := opens.places
    have nodes := attributes_along read
    have shorter : inside.length ≤ ('<' :: rest).length :=
      Nat.le_succ_of_le (tagName?_length named)
    have whole := ((nodes.append (.passed less)).skip shorter).head
    rw [List.append_nil, ← own] at whole
    have event : Event.nodes [event] = event.node?.toList := by
      cases event <;> rfl
    rw [event]
    refine ⟨whole, Nat.lt_succ_of_le ?_⟩
    exact Nat.le_trans less (Nat.le_trans nodes.length_le (tagName?_length named))

/-- A node that is met is whole. -/
theorem heads_single (turn : Turn component text events rest) {node : Tree}
    (met : .single node ∈ events) : heads node = [node] := by
  cases turn with
  | text => cases met
  | bracket => cases met
  | declaration => cases met
  | braces read =>
    cases List.mem_singleton.mp met
    obtain ⟨kind, expression, rfl, -⟩ := mustache_node read
    rfl
  | closing => cases List.mem_singleton.mp met
  | opening _ _ opens =>
    cases List.mem_singleton.mp met
    cases opens with
    | whole => exact heads_elementNode _ _ _ []
    | emptyScript => rfl
    | script _ read =>
      obtain ⟨content, rfl, -⟩ := scriptContent_node read
      rfl

theorem content_eq (turn : Turn component text events rest) (fuel : Nat) (state : Open) :
    component.content (fuel + 1) state text =
      state.takeAll events >>= fun next => component.content fuel next rest := by
  cases turn with
  | text plain => exact content_text component fuel state plain rest
  | bracket noSign noName =>
    rw [content.eq_def]
    dsimp only
    rw [if_pos rfl]
    split
    · exact absurd rfl (noSign _).1
    · exact absurd rfl (noSign _).2
    · rw [noName]
      rfl
  | declaration =>
    rw [content, if_pos rfl]
    rfl
  | braces read =>
    rw [content.eq_def]
    dsimp only
    rw [if_neg (by decide), if_pos rfl, read]
    rfl
  | closing ends =>
    rw [content_closeTag, closeTag_eq ends, Open.takeAll_cons]
    cases state.take _ <;> rfl
  | opening named read opens =>
    rw [content_openTag component fuel state named, opens.openTag read, Open.takeAll_cons]
    cases state.take _ <;> rfl

end Turn

/-- The loop fails, or it has a turn. -/
theorem exists_turn {fuel : Nat} {state final : Open} {c : Char} {text : List Char}
    (read : component.content (fuel + 1) state (c :: text) = .ok final) :
    ∃ events rest, Turn component (c :: text) events rest := by
  rw [content.eq_def] at read
  dsimp only at read
  split at read
  · rename_i bracket
    subst bracket
    split at read
    · rename_i rest
      obtain ⟨⟨next, behind⟩, isTag, -⟩ := bind_eq_ok.mp read
      rw [closeTag] at isTag
      split at isTag
      · cases isTag
      · rename_i goesOn
        rw [List.dropWhile_cons_of_pos (by decide), List.dropWhile_cons_of_pos (by decide)] at goesOn
        obtain ⟨mark, after, ends⟩ := List.exists_cons_of_ne_nil goesOn
        have stops := List.head?_dropWhile_not (· ≠ '>') rest
        rw [ends] at stops
        obtain rfl : mark = '>' := by simpa using stops
        exact ⟨_, _, .closing ends⟩
    · exact ⟨_, _, .declaration⟩
    · split at read
      · rename_i named
        obtain ⟨⟨next, behind⟩, isTag, -⟩ := bind_eq_ok.mp read
        obtain ⟨attributes, closed, after, event, isRead, opens⟩ := exists_opens isTag
        exact ⟨_, _, .opening named isRead opens⟩
      · rename_i notClosing notDeclaration _ noName
        exact ⟨_, _, .bracket (fun more => ⟨notClosing more, notDeclaration more⟩) noName⟩
  · rename_i noBracket
    split at read
    · rename_i brace
      subst brace
      obtain ⟨⟨node, behind⟩, isTag, -⟩ := bind_eq_ok.mp read
      exact ⟨_, _, .braces isTag⟩
    · rename_i noBrace
      exact ⟨_, _, .text ⟨noBracket, noBrace⟩⟩

/-! ### Runs of the loop -/

namespace Meets

variable {text : List Char} {events : List Event}

/-- The loop takes what it meets, one after another. -/
theorem content_eq (meets : Meets component text events) {fuel : Nat} (enough : text.length < fuel)
    (state : Open) : component.content fuel state text = state.takeAll events := by
  induction meets generalizing fuel state with
  | done => exact content_nil component fuel state
  | turn first _ ih =>
    obtain ⟨fuel, rfl⟩ := Nat.exists_eq_succ_of_ne_zero (Nat.ne_of_gt (Nat.zero_lt_of_lt enough))
    have shorter := first.along.2
    rw [first.content_eq, Open.takeAll_append]
    exact bind_congr_ok fun next _ => ih (by omega) next

theorem along (meets : Meets component text events) :
    component.Along text (places (Event.nodes events)) [] := by
  induction meets with
  | done => exact .passed (Nat.le_refl _)
  | turn first _ ih =>
    rw [Event.nodes_append, places_append]
    exact first.along.1.append ih

theorem heads_single (meets : Meets component text events) {node : Tree}
    (met : .single node ∈ events) : heads node = [node] := by
  induction meets with
  | done => cases met
  | turn first _ ih =>
    rcases List.mem_append.mp met with own | later
    · exact first.heads_single own
    · exact ih later

end Meets

/-- A loop that comes to the end has met something all the way. -/
theorem exists_meets {fuel : Nat} {state final : Open} {text : List Char}
    (enough : text.length < fuel) (read : component.content fuel state text = .ok final) :
    ∃ events, Meets component text events := by
  induction fuel generalizing state text with
  | zero => exact absurd enough (Nat.not_lt_zero _)
  | succ fuel ih =>
    cases text with
    | nil => exact ⟨[], .done⟩
    | cons c text =>
      obtain ⟨events, rest, turn⟩ := exists_turn read
      rw [turn.content_eq] at read
      obtain ⟨next, -, later⟩ := bind_eq_ok.mp read
      have shorter := turn.along.2
      obtain ⟨more, meets⟩ := ih (by omega) later
      exact ⟨events ++ more, .turn turn meets⟩

/-! ### What the tree holds -/

namespace Builds

variable {closer : Option String} {events : List Event} {nodes : List Tree}

/-- The nodes of a tree stand in the order in which they are met. -/
theorem places_eq (built : Builds closer events nodes) :
    places nodes = places (Event.nodes events) := by
  have none : places [] = [] := rfl
  induction built with
  | nothing => rfl
  | single node _ ih => rw [Event.nodes_single, places_cons, ih, ← places_cons]
  | closed place attributes tag _ _ inner outer =>
    rw [Event.nodes_opening, Event.nodes_append, Event.nodes_closing, places_cons,
      places_cons (elementNode _ _ _ []), places_append, places_elementNode, places_elementNode,
      inner, outer, none, List.append_nil, List.cons_append, List.cons_append, List.append_assoc]
  | leftOpen place attributes other _ inner =>
    rw [Event.nodes_opening, places_cons (elementNode _ _ _ []), places_elementNode,
      places_elementNode, inner, none, List.append_nil, List.cons_append]

/-- The nodes between the tags of a tree are those that are met. -/
theorem heads_eq (built : Builds closer events nodes)
    (whole : ∀ node, .single node ∈ events → heads node = [node]) :
    headsAll nodes = Event.nodes events := by
  induction built with
  | nothing => rfl
  | single node _ ih =>
    rw [headsAll, whole node List.mem_cons_self, Event.nodes_single,
      ih fun other later => whole other (List.mem_cons_of_mem _ later), List.singleton_append]
  | closed place attributes tag _ _ inner outer =>
    simp only [List.mem_cons, List.mem_append] at whole
    rw [headsAll, heads_elementNode, Event.nodes_opening, Event.nodes_append, Event.nodes_closing,
      inner fun node member => whole node (.inr (.inl member)),
      outer fun node member => whole node (.inr (.inr (.inr member))), List.cons_append]
  | leftOpen place attributes other _ inner =>
    rw [headsAll, heads_elementNode, Event.nodes_opening, headsAll, List.append_nil,
      inner fun node member => whole node (List.mem_cons_of_mem _ member)]

end Builds

end Component

/-! ### The whole component -/

open Component

/-- The loop over a component. -/
theorem parse_of_meets {source : List Char} {events : List Event}
    (meets : Meets ⟨source, dialect source⟩ source events) :
    parse source = Open.takeAll ⟨[], []⟩ events >>= fun state =>
      match state.frames with
      | frame :: _ => .error ⟨.notClosed frame.name, some frame.place⟩
      | [] => .ok (.fragment ⟨1, 0⟩ state.outside.reverse) := by
  rw [parse, tree, meets.content_eq (Nat.lt_succ_self _)]
  rfl

theorem parse_of_builds {source : List Char} {events : List Event} {nodes : List Tree}
    (meets : Meets ⟨source, dialect source⟩ source events) (built : Builds none events nodes) :
    parse source = .ok (.fragment ⟨1, 0⟩ nodes) := by
  rw [parse_of_meets meets, takeAll_eq_ok.mpr built, ok_bind]
  dsimp only
  rw [List.reverse_reverse]

theorem exists_builds {source : List Char} {root : Tree} (read : parse source = .ok root) :
    ∃ events nodes, Meets ⟨source, dialect source⟩ source events ∧ Builds none events nodes ∧
      root = .fragment ⟨1, 0⟩ nodes := by
  have whole := read
  rw [parse, tree] at read
  obtain ⟨state, loop, -⟩ := bind_eq_ok.mp read
  obtain ⟨events, meets⟩ := exists_meets (Nat.lt_succ_self _) loop
  rw [parse_of_meets meets] at whole
  obtain ⟨⟨frames, outside⟩, taken, done⟩ := bind_eq_ok.mp whole
  cases frames with
  | cons frame frames => cases done
  | nil =>
    cases done
    refine ⟨events, outside.reverse, meets, takeAll_eq_ok.mp ?_, rfl⟩
    rw [taken, List.reverse_reverse]

/-- A component is read exactly if the elements that the loop meets nest: each ends at its own closing
tag or at that of an element around it, and each closing tag ends an element. The tree holds all that
the loop meets, once and in its order, and its nodes of markup stand one behind another. Where the
elements do not nest, reading fails because one is left open or none is there to be closed. -/
theorem parse_outline (source : List Char) :
    (∀ root, parse source = .ok root ↔ ∃ events nodes,
        Meets ⟨source, dialect source⟩ source events ∧ Builds none events nodes ∧
          root = .fragment ⟨1, 0⟩ nodes) ∧
      (∀ events nodes, Meets ⟨source, dialect source⟩ source events → Builds none events nodes →
        headsAll nodes = Event.nodes events ∧
          ((markupAll nodes).map Node.place).Pairwise (· ≤ ·)) ∧
      ∀ events, Meets ⟨source, dialect source⟩ source events → (¬∃ nodes, Builds none events nodes) →
        ∃ name place, parse source = .error ⟨.notClosed name, some place⟩ ∨
          parse source = .error ⟨.notOpened name, some place⟩ := by
  refine ⟨fun root => ⟨exists_builds, ?_⟩, ?_, ?_⟩
  · rintro ⟨events, nodes, meets, built, rfl⟩
    exact parse_of_builds meets built
  · intro events nodes meets built
    refine ⟨built.heads_eq fun node => meets.heads_single, ?_⟩
    have ordered := meets.along.pairwise
    rwa [← built.places_eq] at ordered
  · intro events meets loose
    cases taken : Open.takeAll ⟨[], []⟩ events with
    | error error =>
      obtain ⟨place, name, -, rfl⟩ := Open.takeAll_eq_error taken
      refine ⟨name, place, .inr ?_⟩
      rw [parse_of_meets meets, taken, error_bind]
    | ok state =>
      obtain ⟨frames, outside⟩ := state
      cases frames with
      | nil =>
        refine absurd ⟨outside.reverse, takeAll_eq_ok.mp ?_⟩ loose
        rw [taken, List.reverse_reverse]
      | cons frame frames =>
        refine ⟨frame.name, frame.place, .inl ?_⟩
        rw [parse_of_meets meets, taken, ok_bind]

/-- An element that the closing tag of another one ends. -/
theorem parse_outline_leftOpen :
    parse "<a><b x='y'>t</a>".toList = .ok (.fragment ⟨1, 0⟩
        [.element ⟨1, 0⟩ "a" [] [.element ⟨1, 3⟩ "b" [.attr ⟨1, 6⟩ "x"
          (some [.text ⟨1, 9⟩ "y"])] []]]) ∧
      ∃ events nodes, Builds none events nodes ∧ headsAll nodes = Event.nodes events ∧
        ((markupAll nodes).map Node.place).Pairwise (· ≤ ·) ∧ nodes.map Node.place = [⟨1, 0⟩] := by
  have read : parse "<a><b x='y'>t</a>".toList = .ok (.fragment ⟨1, 0⟩
      [.element ⟨1, 0⟩ "a" [] [.element ⟨1, 3⟩ "b" [.attr ⟨1, 6⟩ "x"
        (some [.text ⟨1, 9⟩ "y"])] []]]) := by rfl
  obtain ⟨reads, holds, -⟩ := parse_outline "<a><b x='y'>t</a>".toList
  obtain ⟨events, nodes, meets, built, same⟩ := (reads _).mp read
  obtain ⟨heads, ordered⟩ := holds events nodes meets built
  cases same
  exact ⟨read, events, _, built, heads, ordered, rfl⟩

end Phrasebook.Markup

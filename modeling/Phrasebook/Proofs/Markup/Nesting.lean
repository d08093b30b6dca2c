import Phrasebook.Markup.Parse
import Phrasebook.Proofs.Outcome

set_option autoImplicit false

/-!
How elements nest. What the loop over a component meets is a row of tags and of nodes that are whole
by themselves. The row is taken one after another on the stack of open elements, and nothing stays
open exactly if the row is built by the rules of closing: an element ends at its own closing tag, or
at that of an element around it. The stack is the rightmost branch of the tree all the time.
-/
namespace Phrasebook.Markup.Component

open Outcome
open Source (Node Position)

/-! ### Open elements -/

/-- Adds nodes to the innermost element. -/
def Open.appendAll (state : Open) (nodes : List Tree) : Open := nodes.foldl Open.append state

theorem Open.appendAll_singleton (state : Open) (node : Tree) :
    state.appendAll [node] = state.append node := rfl

theorem Open.appendAll_append (state : Open) (first rest : List Tree) :
    state.appendAll (first ++ rest) = (state.appendAll first).appendAll rest :=
  List.foldl_append

theorem Open.appendAll_frame (frame : Frame) (frames : List Frame) (outside nodes : List Tree) :
    Open.appendAll ⟨frame :: frames, outside⟩ nodes =
      ⟨⟨frame.place, frame.name, frame.attributes, nodes.reverse ++ frame.children⟩ :: frames,
        outside⟩ := by
  induction nodes generalizing frame with
  | nil => rfl
  | cons node nodes ih =>
    rw [appendAll, List.foldl_cons, ← appendAll, append, ih, List.reverse_cons, List.append_assoc,
      List.singleton_append]

theorem Open.appendAll_outside (outside nodes : List Tree) :
    Open.appendAll ⟨[], outside⟩ nodes = ⟨[], nodes.reverse ++ outside⟩ := by
  induction nodes generalizing outside with
  | nil => rfl
  | cons node nodes ih =>
    rw [appendAll, List.foldl_cons, ← appendAll, append, ih, List.reverse_cons, List.append_assoc,
      List.singleton_append]

/-- The names of the open elements, the inner ones first. -/
def Open.names (state : Open) : List String := state.frames.map Frame.name

theorem Open.names_append (state : Open) (node : Tree) : (state.append node).names = state.names := by
  obtain ⟨frames, outside⟩ := state
  cases frames <;> rfl

theorem Open.names_appendAll (state : Open) (nodes : List Tree) :
    (state.appendAll nodes).names = state.names := by
  induction nodes generalizing state with
  | nil => rfl
  | cons node nodes ih => rw [appendAll, List.foldl_cons, ← appendAll, ih, names_append]

/-- Opens an element. -/
def Open.open (state : Open) (place : Position) (name : String) (attributes : List Tree) : Open :=
  ⟨⟨place, name, attributes, []⟩ :: state.frames, state.outside⟩

/-- The end of the innermost element, which becomes a node of what is around it. -/
theorem Open.close_opened (state : Open) (place : Position) (name : String)
    (attributes nodes : List Tree) :
    ((state.open place name attributes).appendAll nodes).close =
      state.append (elementNode place name attributes nodes) := by
  rw [Open.open, appendAll_frame, close, List.append_nil]
  dsimp only
  rw [List.reverse_reverse]

theorem Open.closeMany_succ (state : Open) (count : Nat) :
    state.closeMany (count + 1) = (state.closeMany count).close := by
  induction count generalizing state with
  | zero => rfl
  | succ count ih => rw [closeMany, ih, ← closeMany]

/-- The innermost element of a name is the first one of that name. -/
theorem Open.findIdx?_names {state : Open} {name : String} {inner outer : List String}
    (open_ : state.names = inner ++ name :: outer) (other : name ∉ inner) :
    state.frames.findIdx? (·.name = name) = some inner.length := by
  have along : state.names.findIdx? (· = name) = some inner.length := by
    rw [open_, List.findIdx?_append, List.findIdx?_cons, if_pos (by simp)]
    have none : inner.findIdx? (· = name) = none := by
      rw [List.findIdx?_eq_none_iff]
      intro one member
      simpa using fun same : one = name => other (same ▸ member)
    simp [none]
  rwa [names, List.findIdx?_map] at along

/-! ### What is met -/

/-- What stands in a component besides text. -/
inductive Event where
  /-- A tag that opens an element. -/
  | opening (place : Position) (name : String) (attributes : List Tree)
  /-- A node without content of its own: a tag that opens nothing, a script or a tag in braces. -/
  | single (node : Tree)
  | closing (place : Position) (name : String)

namespace Event

/-- The node that stands for what is met, without what is in it. -/
def node? : Event → Option Tree
  | opening place name attributes => some (elementNode place name attributes [])
  | single node => some node
  | closing _ _ => none

/-- The nodes for all that is met. -/
def nodes (events : List Event) : List Tree := events.filterMap node?

theorem nodes_opening (place : Position) (name : String) (attributes : List Tree)
    (events : List Event) :
    nodes (.opening place name attributes :: events) =
      elementNode place name attributes [] :: nodes events := rfl

theorem nodes_single (node : Tree) (events : List Event) :
    nodes (.single node :: events) = node :: nodes events := rfl

theorem nodes_closing (place : Position) (name : String) (events : List Event) :
    nodes (.closing place name :: events) = nodes events := rfl

theorem nodes_append (first rest : List Event) : nodes (first ++ rest) = nodes first ++ nodes rest :=
  List.filterMap_append

end Event

/-- Takes what is met next. -/
def Open.take (state : Open) : Event → Except ParseError Open
  | .opening place name attributes => .ok (state.open place name attributes)
  | .single node => .ok (state.append node)
  | .closing place name =>
    match state.frames.findIdx? (·.name = name) with
    | some depth => .ok (state.closeMany (depth + 1))
    | none => .error ⟨.notOpened name, some place⟩

/-- Takes all that is met. -/
def Open.takeAll (state : Open) (events : List Event) : Except ParseError Open :=
  events.foldlM Open.take state

theorem Open.takeAll_cons (state : Open) (event : Event) (events : List Event) :
    state.takeAll (event :: events) = state.take event >>= fun next => next.takeAll events :=
  List.foldlM_cons

theorem Open.takeAll_append (state : Open) (first rest : List Event) :
    state.takeAll (first ++ rest) = state.takeAll first >>= fun next => next.takeAll rest :=
  List.foldlM_append

/-- A closing tag closes the innermost element of its name with all that is open in it. -/
theorem Open.take_closing {state : Open} {name : String} {inner outer : List String}
    (open_ : state.names = inner ++ name :: outer) (other : name ∉ inner) (place : Position) :
    state.take (.closing place name) = .ok (state.closeMany (inner.length + 1)) := by
  rw [take, findIdx?_names open_ other]

/-! ### Rules of closing -/

/-- What is met makes these nodes. It stands outside of all elements or in one that is closed by its
own tag, or it goes up to the closing tag of a name, which closes what is left open. -/
inductive Builds : Option String → List Event → List Tree → Prop
  | nothing (closer : Option String) : Builds closer [] []
  | single {closer : Option String} {events : List Event} {nodes : List Tree} (node : Tree)
      (more : Builds closer events nodes) : Builds closer (.single node :: events) (node :: nodes)
  | closed {closer : Option String} {name : String} {inner events : List Event}
      {children nodes : List Tree} (place : Position) (attributes : List Tree) (tag : Position)
      (within : Builds (some name) inner children) (more : Builds closer events nodes) :
      Builds closer (.opening place name attributes :: (inner ++ .closing tag name :: events))
        (elementNode place name attributes children :: nodes)
  | leftOpen {closer name : String} {inner : List Event} {children : List Tree} (place : Position)
      (attributes : List Tree) (other : name ≠ closer)
      (within : Builds (some closer) inner children) :
      Builds (some closer) (.opening place name attributes :: inner)
        [elementNode place name attributes children]

namespace Builds

/-- After an element that is closed, what is left open can follow. -/
theorem append {closer : Option String} {first rest : List Event} {nodes more : List Tree}
    (whole : Builds none first nodes) (later : Builds closer rest more) :
    Builds closer (first ++ rest) (nodes ++ more) := by
  generalize outer : (none : Option String) = closed at whole
  induction whole with
  | nothing => exact later
  | single node _ ih => exact .single node (ih outer)
  | closed place attributes tag within _ _ ih =>
    rw [List.cons_append, List.append_assoc, List.cons_append, List.cons_append]
    exact .closed place attributes tag within (ih outer)
  | leftOpen => cases outer

/-- What leaves nothing open can stand before any closing tag. -/
theorem inside {events : List Event} {nodes : List Tree} (whole : Builds none events nodes)
    (closer : Option String) : Builds closer events nodes := by
  have alone := whole.append (.nothing closer)
  rwa [List.append_nil, List.append_nil] at alone

/-- What the rules build is taken as these nodes, except that some elements are left open, none of
them with the name of the closing tag that ends them all. -/
theorem takeAll {closer : Option String} {events : List Event} {nodes : List Tree}
    (built : Builds closer events nodes) (state : Open) :
    ∃ next pending, state.takeAll events = .ok next ∧ next.names = pending ++ state.names ∧
      (closer = none → pending = []) ∧ (∀ name, closer = some name → name ∉ pending) ∧
      next.closeMany pending.length = state.appendAll nodes := by
  induction built generalizing state with
  | nothing => exact ⟨state, [], rfl, rfl, fun _ => rfl, fun _ _ => List.not_mem_nil, rfl⟩
  | single node _ ih =>
    obtain ⟨next, pending, taken, names, rest⟩ := ih (state.append node)
    refine ⟨next, pending, ?_, ?_, rest⟩
    · rw [Open.takeAll_cons, Open.take, ok_bind, taken]
    · rw [names, Open.names_append]
  | @closed closer name inner events children nodes place attributes tag _ _ within more =>
    obtain ⟨last, left, taken, names, -, apart, closes⟩ := within (state.open place name attributes)
    have shut : last.closeMany (left.length + 1) =
        state.append (elementNode place name attributes children) := by
      rw [Open.closeMany_succ, closes, Open.close_opened]
    obtain ⟨next, pending, taken', names', rest⟩ :=
      more (state.append (elementNode place name attributes children))
    refine ⟨next, pending, ?_, ?_, rest⟩
    · rw [Open.takeAll_cons, Open.take, ok_bind, Open.takeAll_append, taken, ok_bind,
        Open.takeAll_cons, Open.take_closing names (apart name rfl), shut, ok_bind, taken']
    · rw [names', Open.names_append]
  | @leftOpen closer name inner children place attributes other _ within =>
    obtain ⟨next, pending, taken, names, -, apart, closes⟩ :=
      within (state.open place name attributes)
    refine ⟨next, pending ++ [name], ?_, ?_, nofun, ?_, ?_⟩
    · rw [Open.takeAll_cons, Open.take, ok_bind, taken]
    · rw [names, List.append_assoc]
      rfl
    · rintro _ ⟨⟩ member
      rcases List.mem_append.mp member with inner | last
      · exact apart closer rfl inner
      · exact other (List.mem_singleton.mp last).symm
    · rw [List.length_append, List.length_singleton, Open.closeMany_succ, closes,
        Open.close_opened]
      rfl

end Builds

/-! ### The rightmost branch -/

/-- The stack after what was met: each open element is the last one in what is around it, and what
stands before it there is closed. -/
inductive Spine : List Event → Open → Prop
  | outside {events : List Event} {nodes : List Tree} (built : Builds none events nodes.reverse) :
      Spine events ⟨[], nodes⟩
  | inside {events inner : List Event} {frames : List Frame} {outside children : List Tree}
      {place : Position} {name : String} {attributes : List Tree}
      (around : Spine events ⟨frames, outside⟩) (built : Builds none inner children.reverse) :
      Spine (events ++ .opening place name attributes :: inner)
        ⟨⟨place, name, attributes, children⟩ :: frames, outside⟩

namespace Spine

theorem append {events more : List Event} {state : Open} {node : Tree} (spine : Spine events state)
    (built : Builds none more [node]) : Spine (events ++ more) (state.append node) := by
  cases spine with
  | outside before =>
    refine .outside ?_
    rw [List.reverse_cons]
    exact before.append built
  | inside around before =>
    rw [List.append_assoc, List.cons_append]
    refine .inside around ?_
    rw [List.reverse_cons]
    exact before.append built

/-- A closing tag ends the element of its name, with the elements that are left open in it one after
another from the inside. -/
theorem close {events inner : List Event} {frame : Frame} {frames : List Frame} {outside : List Tree}
    {name : String} (tag : Position) {depth : Nat} (around : Spine events ⟨frames, outside⟩)
    (built : Builds (some name) inner frame.children.reverse)
    (found : (frame :: frames).findIdx? (·.name = name) = some depth) :
    Spine (events ++ .opening frame.place frame.name frame.attributes ::
        (inner ++ [.closing tag name]))
      (Open.closeMany ⟨frame :: frames, outside⟩ (depth + 1)) := by
  induction depth generalizing events inner frame frames with
  | zero =>
    have own : frame.name = name := by simpa [List.findIdx?_cons] using found
    subst own
    exact around.append (.closed frame.place frame.attributes tag built (.nothing none))
  | succ depth ih =>
    rw [List.findIdx?_cons] at found
    split at found
    · cases found
    · rename_i other
      obtain ⟨depth', found, same⟩ := Option.map_eq_some_iff.mp found
      cases same
      cases around with
      | outside => cases found
      | @inside events before frames outside children place outer attributes around whole =>
        let node := elementNode frame.place frame.name frame.attributes frame.children.reverse
        let longer : Frame := ⟨place, outer, attributes, node :: children⟩
        have left : Builds (some name) (before ++ .opening frame.place frame.name frame.attributes ::
            inner) longer.children.reverse := by
          rw [List.reverse_cons]
          exact whole.append (.leftOpen frame.place frame.attributes (by simpa using other) built)
        have within : (longer :: frames).findIdx? (·.name = name) = some depth := found
        have closed := ih around left within
        rw [List.append_assoc, List.cons_append] at closed ⊢
        exact closed

theorem take {events : List Event} {state next : Open} {event : Event} (spine : Spine events state)
    (taken : state.take event = .ok next) : Spine (events ++ [event]) next := by
  cases event with
  | opening place name attributes =>
    cases taken
    exact .inside spine (.nothing none)
  | single node =>
    cases taken
    exact spine.append (.single node (.nothing none))
  | closing place name =>
    rw [Open.take] at taken
    split at taken
    · rename_i depth found
      cases taken
      cases spine with
      | outside => cases found
      | inside around built =>
        rw [List.append_assoc, List.cons_append]
        exact around.close place (built.inside _) found
    · cases taken

theorem takeAll {before events : List Event} {state next : Open} (spine : Spine before state)
    (taken : state.takeAll events = .ok next) : Spine (before ++ events) next := by
  induction events generalizing before state with
  | nil =>
    cases taken
    rwa [List.append_nil]
  | cons event events ih =>
    rw [Open.takeAll_cons] at taken
    obtain ⟨middle, first, rest⟩ := bind_eq_ok.mp taken
    have later := ih (spine.take first) rest
    rwa [List.append_assoc, List.singleton_append] at later

end Spine

/-- Nothing is left open at the end exactly if the rules of closing build all that was met. -/
theorem takeAll_eq_ok {events : List Event} {nodes : List Tree} :
    Open.takeAll ⟨[], []⟩ events = .ok ⟨[], nodes.reverse⟩ ↔ Builds none events nodes := by
  constructor
  · intro taken
    have spine : Spine [] ⟨[], []⟩ := .outside (.nothing none)
    cases spine.takeAll taken with
    | outside built => rwa [List.reverse_reverse] at built
  · intro built
    obtain ⟨next, pending, taken, -, closed, -, same⟩ := built.takeAll ⟨[], []⟩
    rw [closed rfl] at same
    rw [taken]
    exact congrArg Except.ok (same.trans (by rw [Open.appendAll_outside, List.append_nil]))

/-- Taking what is met fails at a closing tag only. -/
theorem Open.takeAll_eq_error {state : Open} {events : List Event} {error : ParseError}
    (failed : state.takeAll events = .error error) :
    ∃ place name, .closing place name ∈ events ∧ error = ⟨.notOpened name, some place⟩ := by
  induction events generalizing state with
  | nil => cases failed
  | cons event events ih =>
    rw [takeAll_cons] at failed
    rcases bind_eq_error.mp failed with here | ⟨next, -, later⟩
    · cases event with
      | opening => cases here
      | single => cases here
      | closing place name =>
        rw [take] at here
        split at here
        · cases here
        · cases here
          exact ⟨place, name, List.mem_cons_self, rfl⟩
    · obtain ⟨place, name, member, same⟩ := ih later
      exact ⟨place, name, List.mem_cons_of_mem _ member, same⟩

end Phrasebook.Markup.Component

import Phrasebook.Proofs.Extract.Forms
import Phrasebook.Proofs.Outcome
import Phrasebook.Proofs.Source.Traversal

set_option autoImplicit false

/-!
What a tree states does not depend on where its nodes lie. If the nodes are moved, to another file
or within one, then the same messages are stated in the same order, at the places moved alike.
-/
namespace Phrasebook.Extract

open Source (Node Position)
open Text (CodePoints)

/-- A change of positions, and the file that they are in afterwards. -/
structure Move where
  file : String
  position : Position → Position

def Origin.moved (move : Move) (origin : Origin) : Origin :=
  ⟨move.file, move.position origin.position⟩

/-- The record of the same message, stated elsewhere. -/
def Record.moved (move : Move) (record : Record) : Record :=
  { record with origin := record.origin.map (Origin.moved move) }

def Fault.moved (move : Move) : Fault → Fault
  | .parse error => .parse ⟨error.reason, error.position.map move.position⟩
  | .noMessage position => .noMessage (move.position position)
  | .unreadable error => .unreadable error
  | .descriptor error => .descriptor error
  | .unencodable run => .unencodable run

/-- What is stated elsewhere. -/
def Stated.moved (move : Move) : Stated → Stated
  | .ok records => .ok (records.map (Record.moved move))
  | .error fault => .error (fault.moved move)

/-- The same tree elsewhere. -/
abbrev movedNode (move : Move) : Node Position → Node Position := Node.map move.position

variable (move : Move)

theorem Stated.moved_bind (first : Stated) (next : List Record → Stated)
    (other : List Record → Stated)
    (same : ∀ records, other (records.map (Record.moved move)) = (next records).moved move) :
    (first.moved move >>= other) = Stated.moved move (first >>= next) := by
  cases first with
  | ok records => exact same records
  | error fault => rfl

theorem Stated.moved_append (records : List Record) (later : Stated) :
    (later.moved move >>= fun rest => Except.ok (records.map (Record.moved move) ++ rest)) =
      Stated.moved move (later >>= fun rest => Except.ok (records ++ rest)) := by
  apply Stated.moved_bind
  intro rest
  change Except.ok _ = Except.ok _
  rw [List.map_append]

theorem record_moved (file : String) (position : Position) (message : CodePoints)
    (context comment : Option CodePoints) :
    record move.file (move.position position) message context comment =
      Stated.moved move (record file position message context comment) := by
  unfold record
  cases Message.identify message context with
  | error run => rfl
  | ok id => rfl

/-! ### Parts of a tree -/

theorem identifier?_moved (node : Node Position) :
    identifier? (movedNode move node) = identifier? node := by
  cases node <;> rfl

theorem text?_moved (node : Node Position) : text? (movedNode move node) = text? node := by
  cases node with
  | literal _ value _ => cases value <;> rfl
  | _ => rfl

theorem key?_moved (node : Node Position) : key? (movedNode move node) = key? node := by
  cases node with
  | literal _ value _ => cases value <;> rfl
  | _ => rfl

/-- Members of an object elsewhere. -/
def movedEntries (entries : List (CodePoints × Node Position)) : List (CodePoints × Node Position) :=
  entries.map fun entry => (entry.1, movedNode move entry.2)

theorem entry?_moved (node : Node Position) :
    entry? (movedNode move node) =
      ( entry? node).map fun entry => (entry.1, movedNode move entry.2) := by
  cases node with
  | property place key value computed shorthand =>
    cases computed with
    | true => rfl
    | false =>
      simp only [movedNode, Node.map, entry?]
      rw [← movedNode, key?_moved]
      cases key? key <;> rfl
  | _ => rfl

theorem mapM_moved {α β γ : Type} (moved : α → α) (read : α → Option β) (change : β → γ)
    (other : α → Option γ) (same : ∀ item, other (moved item) = (read item).map change)
    (items : List α) : (items.map moved).mapM other = (items.mapM read).map (List.map change) := by
  induction items with
  | nil => rfl
  | cons item items ih =>
    rw [List.map_cons, List.mapM_cons, List.mapM_cons, same, ih]
    cases read item with
    | none => rfl
    | some value => cases items.mapM read <;> rfl

theorem entries?_moved (node : Node Position) :
    entries? (movedNode move node) = (entries? node).map (movedEntries move) := by
  cases node with
  | object place members =>
    simp only [movedNode, Node.map, entries?, Node.mapAll_eq]
    exact mapM_moved (movedNode move) entry? _ entry? (entry?_moved move) members
  | _ => rfl

theorem lookup_moved (key : CodePoints) (entries : List (CodePoints × Node Position)) :
    (movedEntries move entries).lookup key = (entries.lookup key).map (movedNode move) := by
  induction entries with
  | nil => rfl
  | cons entry entries ih =>
    rw [movedEntries, List.map_cons, List.lookup_cons, List.lookup_cons]
    split
    · rfl
    · exact ih

theorem member?_moved (name : String) (entries : List (CodePoints × Node Position)) :
    member? name (movedEntries move entries) = (member? name entries).map (movedNode move) := by
  rw [member?, member?, ← lookup_moved, movedEntries, movedEntries, List.map_reverse]

theorem optionalText?_moved (name : String) (entries : List (CodePoints × Node Position)) :
    optionalText? name (movedEntries move entries) = optionalText? name entries := by
  rw [optionalText?, optionalText?, member?_moved]
  cases member? name entries with
  | none => rfl
  | some value => exact congrArg (Option.map some) (text?_moved move value)

theorem variations?_moved (entries : List (CodePoints × Node Position)) :
    variations? (movedEntries move entries) = variations? entries := by
  have each : (movedEntries move entries).mapM (fun entry => (text? entry.2).map (entry.1, ·)) =
      entries.mapM fun entry => (text? entry.2).map (entry.1, ·) := by
    rw [movedEntries, mapM_moved _ (fun entry => (text? entry.2).map (entry.1, ·)) id]
    · simp
    · intro entry
      rw [text?_moved, Option.map_id_fun, id_eq]
  rw [variations?, variations?, each]

/-! ### Nodes -/

variable (file : String) (tags : Tags)

theorem taggedTemplate_moved (tag body : Node Position) :
    taggedTemplate move.file tags (movedNode move tag) (movedNode move body) =
      Stated.moved move (taggedTemplate file tags tag body) := by
  unfold taggedTemplate
  rw [identifier?_moved]
  cases identifier? tag with
  | none => rfl
  | some name =>
    cases body with
    | template place pieces expressions =>
      have chunks : (pieces.map move.position).all.map chunk = pieces.all.map chunk := by
        rw [Source.Pieces.all_map, List.map_map]
        rfl
      simp only [movedNode, Node.map]
      rw [chunks]
      split
      · cases templatePoints (pieces.all.map chunk) with
        | ok message => exact record_moved move file place message none none
        | error error => rfl
      · rfl
    | _ => rfl

theorem structuredCall_moved (place : Position) (args : List (Node Position)) :
    structuredCall move.file (move.position place) (args.map (movedNode move)) =
      Stated.moved move (structuredCall file place args) := by
  unfold structuredCall
  have first : (args.map (movedNode move)).head?.bind entries? =
      (args.head?.bind entries?).map (movedEntries move) := by
    cases args with
    | nil => rfl
    | cons arg args => exact entries?_moved move arg
  rw [first]
  cases args.head?.bind entries? with
  | none => rfl
  | some entries =>
    simp only [Option.map_some, member?_moved, optionalText?_moved]
    cases member? "message" entries with
    | none => rfl
    | some value =>
      simp only [Option.map_some, text?_moved]
      cases text? value with
      | none => rfl
      | some message =>
        cases message with
        | nil => rfl
        | cons point points =>
          cases optionalText? "context" entries with
          | none => rfl
          | some context =>
            cases optionalText? "comment" entries with
            | none => rfl
            | some comment => exact record_moved move file place _ context comment

theorem pluralCall_moved (place : Position) (args : List (Node Position)) (index : Nat) :
    pluralCall move.file (move.position place) (args.map (movedNode move)) index =
      Stated.moved move (pluralCall file place args index) := by
  unfold pluralCall
  have found : ((args.map (movedNode move))[index]?).bind entries? =
      ((args[index]?).bind entries?).map (movedEntries move) := by
    rw [List.getElem?_map]
    cases args[index]? with
    | none => rfl
    | some arg => exact entries?_moved move arg
  rw [found]
  cases (args[index]?).bind entries? with
  | none => rfl
  | some entries =>
    cases entries with
    | nil => rfl
    | cons entry entries =>
      have same := variations?_moved move (entry :: entries)
      simp only [Option.map_some]
      rw [movedEntries, List.map_cons] at same ⊢
      simp only [same]
      cases variations? (entry :: entries) with
      | none => rfl
      | some variations => exact record_moved move file place _ none none

theorem Stated.moved_listed {names : List String} {name : String} {here there : Stated}
    (same : there = here.moved move) :
    (if names.contains name then there else .ok []) =
      Stated.moved move (if names.contains name then here else .ok []) := by
  split
  · exact same
  · rfl

theorem call_moved (place : Position) (callee : Node Position) (args : List (Node Position)) :
    call move.file tags (move.position place) (movedNode move callee) (args.map (movedNode move)) =
      Stated.moved move (call file tags place callee args) := by
  cases callee with
  | identifier spot name =>
    have structured := structuredCall_moved move file place args
    have plural := pluralCall_moved move file place args 1
    have defined := pluralCall_moved move file place args 0
    rw [movedNode, Node.map, call_eq, call_eq, Stated.moved_listed move structured]
    apply Stated.moved_bind
    intro first
    rw [Stated.moved_listed move plural]
    apply Stated.moved_bind
    intro second
    rw [Stated.moved_listed move defined]
    apply Stated.moved_bind
    intro third
    change Except.ok _ = Except.ok _
    rw [List.map_append, List.map_append]
  | _ => rfl

theorem attributeText?_moved (value : Option (List (Node Position))) :
    attributeText? (value.map (List.map (movedNode move))) = attributeText? value := by
  cases value with
  | none => rfl
  | some nodes =>
    cases nodes with
    | nil => rfl
    | cons node rest =>
      cases rest with
      | nil => cases node <;> rfl
      | cons other rest => cases node <;> rfl

/-- Attributes elsewhere. -/
def movedAttributes (attributes : List (String × Option (List (Node Position)))) :
    List (String × Option (List (Node Position))) :=
  attributes.map fun given => (given.1, given.2.map (List.map (movedNode move)))

theorem attributes_moved (attributes : List (Node Position)) :
    (attributes.map (movedNode move)).mapM attribute? =
      (attributes.mapM attribute?).map (movedAttributes move) := by
  apply mapM_moved
  intro node
  cases node with
  | attr place name value => simp only [movedNode, Node.map, attribute?, Node.mapValue_eq,
      Option.map_some]
  | _ => rfl

theorem lookup_movedAttributes (name : String)
    (attributes : List (String × Option (List (Node Position)))) :
    (movedAttributes move attributes).lookup name =
      (attributes.lookup name).map (Option.map (List.map (movedNode move))) := by
  induction attributes with
  | nil => rfl
  | cons given attributes ih =>
    rw [movedAttributes, List.map_cons, List.lookup_cons, List.lookup_cons]
    split
    · rfl
    · exact ih

theorem optionalAttribute?_moved (name : String)
    (attributes : List (String × Option (List (Node Position)))) :
    optionalAttribute? name (movedAttributes move attributes) =
      optionalAttribute? name attributes := by
  have turned : (movedAttributes move attributes).reverse =
      movedAttributes move attributes.reverse := by
    rw [movedAttributes, movedAttributes, List.map_reverse]
  rw [optionalAttribute?, optionalAttribute?, turned, lookup_movedAttributes]
  cases attributes.reverse.lookup name with
  | none => rfl
  | some value => exact congrArg (Option.map some) (attributeText?_moved move value)

theorem component_moved (place : Position) (name : String) (attributes : List (Node Position)) :
    component move.file tags (move.position place) name (attributes.map (movedNode move)) =
      Stated.moved move (component file tags place name attributes) := by
  unfold component
  rw [attributes_moved]
  split
  · rfl
  · cases attributes.mapM attribute? with
    | none => rfl
    | some attributes =>
      simp only [Option.map_some, optionalAttribute?_moved, lookup_movedAttributes,
        Option.isNone_map]
      cases (attributes.lookup "msg").isNone with
      | true => rfl
      | false =>
        cases optionalAttribute? "msg" attributes with
        | none => rfl
        | some message =>
          cases optionalAttribute? "ctx" attributes with
          | none => rfl
          | some context =>
            cases optionalAttribute? "cmt" attributes with
            | none => rfl
            | some comment =>
              simp only [Bool.false_eq_true, if_false]
              split <;> rfl

theorem stated_moved (node : Node Position) :
    stated move.file tags (movedNode move node) = Stated.moved move (stated file tags node) := by
  cases node with
  | tagged place tag body => exact taggedTemplate_moved move file tags tag body
  | call place callee args =>
    simp only [movedNode, Node.map, stated, Node.mapAll_eq]
    exact call_moved move file tags place callee args
  | component place name attributes children =>
    simp only [movedNode, Node.map, stated, Node.mapAll_eq]
    exact component_moved move file tags place name attributes
  | _ => rfl

theorem statedAll_moved (nodes : List (Node Position)) :
    statedAll move.file tags (nodes.map (movedNode move)) =
      Stated.moved move (statedAll file tags nodes) := by
  induction nodes with
  | nil => rfl
  | cons node nodes ih =>
    rw [List.map_cons, statedAll, statedAll, stated_moved move file, ih]
    apply Stated.moved_bind
    intro first
    exact Stated.moved_append move first _

/-- A tree that is moved states the same messages in the same order, or fails alike. -/
theorem collect_moved (root : Node Position) :
    collect move.file tags (movedNode move root) = Stated.moved move (collect file tags root) := by
  have order : Node.traverse [movedNode move root] =
      (Node.traverse [root]).map (movedNode move) := Node.traverse_map move.position [root]
  rw [collect, collect, order, statedAll_moved move file]

end Phrasebook.Extract

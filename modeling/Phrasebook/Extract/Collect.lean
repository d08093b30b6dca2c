import Phrasebook.Descriptor
import Phrasebook.Extract.Error
import Phrasebook.Extract.Record
import Phrasebook.Source.Node

set_option autoImplicit false

/-!
Collecting the messages of a tree. Each node is looked at by itself, in the order of the walk: it
states no message, one or several, or it states one without its text, which fails the whole file.
-/
namespace Phrasebook.Extract

open Source (Node Position LiteralValue)
open Text (CodePoints)

structure Tags where
  /-- Tags of template literals and functions that take a message with its context. -/
  message : List String
  /-- Functions that take a number and then variations. -/
  plural : List String
  /-- Functions that take variations alone. -/
  definition : List String
  /-- Components that show a message. -/
  component : List String
  deriving DecidableEq, Repr

/-- The names in components. -/
def Tags.ofComponents : Tags :=
  ⟨["$t", "msg"], ["$plural"], ["definePlural", "msgPlural"], ["T"]⟩

/-- The names in scripts. -/
def Tags.ofScripts : Tags :=
  ⟨["g", "gt", "msg"], ["gPlural"], ["definePlural", "msgPlural"], []⟩

/-- The name of a node that is a plain identifier. -/
def identifier? : Node Position → Option String
  | .identifier _ name => some name
  | _ => none

/-- The text of a string literal. -/
def text? : Node Position → Option CodePoints
  | .literal _ (.text text) _ => some text
  | _ => none

/-! ### Records -/

/-- What a node states. -/
abbrev Stated := Except Fault (List Record)

/-- The record of a message in a file. Text that no catalog can hold has no record. -/
def record (file : String) (position : Position) (message : CodePoints)
    (context comment : Option CodePoints) : Stated :=
  match Message.identify message context with
  | .error run => .error (.unencodable run)
  | .ok id =>
    let shown (text : CodePoints) : String := text.toString?.getD ""
    .ok [⟨id, shown message, context.map shown, comment, some ⟨file, position⟩⟩]

/-! ### Templates -/

/-- The literal text of a piece of a template: its value, or its spelling if it has none. -/
def chunk (piece : Source.Piece Position) : CodePoints := piece.cooked.getD (.ofChars piece.raw)

/-- The chunks after the first, each behind its placeholder. -/
def chunkPoints : Nat → List CodePoints → CodePoints
  | _, [] => []
  | index, chunk :: rest =>
    CodePoints.ofString (placeholder index) ++ chunk ++ chunkPoints (index + 1) rest

/-- The message of the chunks of a template. -/
def templatePoints : List CodePoints → Except DescriptorError CodePoints
  | [] => .error .noChunks
  | first :: rest => .ok (first ++ chunkPoints 0 rest)

/-- What a template literal with a tag states. -/
def taggedTemplate (file : String) (tags : Tags) (tag body : Node Position) : Stated :=
  match identifier? tag, body with
  | some name, .template place pieces _ =>
    if tags.message.contains name then
      match templatePoints (pieces.all.map chunk) with
      | .ok message => record file place message none none
      | .error error => .error (.descriptor error)
    else .ok []
  | _, _ => .ok []

/-! ### Calls -/

/-- The name of a property: an identifier, a string, or a number as it is spelled. -/
def key? : Node Position → Option CodePoints
  | .identifier _ name => some (.ofString name)
  | .literal _ (.text text) _ => some text
  | .literal _ (.number _) raw => some (.ofString raw)
  | _ => none

/-- A member with a name that is known. -/
def entry? : Node Position → Option (CodePoints × Node Position)
  | .property _ key value false _ => (key? key).map (·, value)
  | _ => none

/-- The members of an object, if all their names are known. -/
def entries? : Node Position → Option (List (CodePoints × Node Position))
  | .object _ members => members.mapM entry?
  | _ => none

/-- The last member of a name. -/
def member? (name : String) (entries : List (CodePoints × Node Position)) : Option (Node Position) :=
  entries.reverse.lookup (.ofString name)

/-- What a member says that may be left out: nothing, a text, or something unknown. -/
def optionalText? (name : String) (entries : List (CodePoints × Node Position)) :
    Option (Option CodePoints) :=
  match member? name entries with
  | none => some none
  | some value => (text? value).map some

/-- What a call with a message and its context states. -/
def structuredCall (file : String) (place : Position) (args : List (Node Position)) : Stated :=
  match args.head?.bind entries? with
  | none => .ok []
  | some entries =>
    match member? "message" entries with
    | none => .error (.noMessage place)
    | some value =>
      match text? value with
      | none => .ok []
      | some [] => .error (.noMessage place)
      | some message =>
        match optionalText? "context" entries, optionalText? "comment" entries with
        | some context, some comment => record file place message context comment
        | _, _ => .ok []

/-- The variations of an object, if each of its members is a text. -/
def variations? (entries : List (CodePoints × Node Position)) :
    Option (Dictionary CodePoints CodePoints) :=
  (entries.mapM fun entry => (text? entry.2).map (entry.1, ·)).map Dictionary.ofPairs

/-- The message of variations. -/
def variationPoints (variations : Dictionary CodePoints CodePoints) : CodePoints :=
  let option (selector text : CodePoints) : CodePoints :=
    CodePoints.ofString " " ++ selector ++ CodePoints.ofString " \x7b" ++ text ++
      CodePoints.ofString "\x7d"
  CodePoints.ofString ("\x7b" ++ Plural.argumentName ++ ", plural,") ++
    (variations.map fun pair => option pair.1 pair.2).flatten ++ CodePoints.ofString "\x7d"

/-- What a call states whose argument with a number holds variations. -/
def pluralCall (file : String) (place : Position) (args : List (Node Position)) (index : Nat) :
    Stated :=
  match (args[index]?).bind entries? with
  | none => .ok []
  | some [] => .ok []
  | some entries =>
    match variations? entries with
    | some variations => record file place (variationPoints variations) none none
    | none => .ok []

/-- What a call states. A name may stand in several lists. -/
def call (file : String) (tags : Tags) (place : Position) (callee : Node Position)
    (args : List (Node Position)) : Stated :=
  match identifier? callee with
  | none => .ok []
  | some name => do
    let structured ← if tags.message.contains name then structuredCall file place args else .ok []
    let plural ← if tags.plural.contains name then pluralCall file place args 1 else .ok []
    let defined ← if tags.definition.contains name then pluralCall file place args 0 else .ok []
    return structured ++ plural ++ defined

/-! ### Components -/

/-- An attribute with its name, and its value if it has one. -/
def attribute? : Node Position → Option (String × Option (List (Node Position)))
  | .attr _ name value => some (name, value)
  | _ => none

/-- The value of an attribute that is known: text, or nothing. -/
def attributeText? : Option (List (Node Position)) → Option String
  | some [] => some ""
  | some [.text _ data] => some data
  | _ => none

/-- What an attribute says that may be left out: nothing, a text, or something unknown. -/
def optionalAttribute? (name : String)
    (attributes : List (String × Option (List (Node Position)))) : Option (Option String) :=
  match attributes.reverse.lookup name with
  | none => some none
  | some value => (attributeText? value).map some

/-- What a component states. -/
def component (file : String) (tags : Tags) (place : Position) (name : String)
    (attributes : List (Node Position)) : Stated :=
  if !tags.component.contains name then .ok []
  else
    match attributes.mapM attribute? with
    | none => .ok []
    | some attributes =>
      if (attributes.lookup "msg").isNone then .error (.noMessage place)
      else
        match optionalAttribute? "msg" attributes, optionalAttribute? "ctx" attributes,
          optionalAttribute? "cmt" attributes with
        | some message, some context, some comment =>
          if (message.getD "").isEmpty then .error (.noMessage place)
          else
            .ok [.create (message.getD "") context (comment.map CodePoints.ofString)
              (some ⟨file, place⟩)]
        | _, _, _ => .ok []

/-! ### Trees -/

/-- What a node states by itself. -/
def stated (file : String) (tags : Tags) : Node Position → Stated
  | .tagged _ tag body => taggedTemplate file tags tag body
  | .call place callee args => call file tags place callee args
  | .component place name attributes _ => component file tags place name attributes
  | _ => .ok []

/-- The records of all nodes, in order. -/
def statedAll (file : String) (tags : Tags) : List (Node Position) → Stated
  | [] => .ok []
  | node :: rest => do
    let first ← stated file tags node
    let others ← statedAll file tags rest
    return first ++ others

/-- The messages of a tree, in the order in which it is walked. -/
def collect (file : String) (tags : Tags) (root : Node Position) : Stated :=
  statedAll file tags (Node.traverse [root])

end Phrasebook.Extract

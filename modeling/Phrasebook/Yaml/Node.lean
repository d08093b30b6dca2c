import Phrasebook.Yaml.Token

set_option autoImplicit false

/-!
The tree of a settings file: scalars, lists and mappings, with names replaced by the nodes that
they stand for. What each rule reads is a list of tokens; it gives the rest back.
-/
namespace Phrasebook.Yaml

inductive Node where
  | scalar (tag : Option String) (text : String) (isPlain : Bool)
  | list (tag : Option String) (items : List Node)
  | map (tag : Option String) (entries : List (Node × Node))
  deriving Repr, Inhabited

namespace Node

/-- A node that is not written. -/
def absent : Node := scalar none "" true

/-- Tokens that are left, the nodes that have a name, and the handles of tags. -/
structure State where
  tokens : List Token
  named : List (String × Node)
  handles : List (String × String)

/-- The tag that a handle and its rest name. -/
def State.tag? (state : State) (handle : Option String) (rest : String) : Option String :=
  match handle with
  | none => some rest
  | some handle => (state.handles.lookup handle).map (· ++ rest)

/-- The properties before a node: a name and a tag, in any order. -/
def properties (state : State) : Option (Option String × Option String × State) :=
  match state.tokens with
  | .anchor name :: .tag handle rest :: tokens => do
    some (some name, some (← state.tag? handle rest), { state with tokens := tokens })
  | .tag handle rest :: .anchor name :: tokens => do
    some (some name, some (← state.tag? handle rest), { state with tokens := tokens })
  | .anchor name :: tokens => some (some name, none, { state with tokens := tokens })
  | .tag handle rest :: tokens => do
    some (none, some (← state.tag? handle rest), { state with tokens := tokens })
  | _ => some (none, none, state)

/-- Gives a node its name. No name may be given twice. -/
def record (name : Option String) (node : Node) (state : State) : Option (Node × State) :=
  match name with
  | none => some (node, state)
  | some name =>
    if (state.named.lookup name).isSome then none
    else some (node, { state with named := (name, node) :: state.named })

/-- Where a node stands: what may follow it there, and which forms it may have. -/
structure Position where
  inBlock : Bool
  /-- Items of a list may stand at the indent of the mapping around it. -/
  itemsHere : Bool

/-- One of the given tokens, or none, comes next. -/
def comesNext (state : State) (tokens : List Token) : Bool :=
  match state.tokens with
  | [] => false
  | token :: _ => tokens.contains token

mutual

/-- A node. -/
def read (place : Position) : Nat → State → Option (Node × State)
  | 0, _ => none
  | fuel + 1, state =>
    match state.tokens with
    | .reference name :: tokens =>
      (state.named.lookup name).map fun node => (node, { state with tokens := tokens })
    | _ => do
      let (name, tag, state) ← properties state
      let rest := { state with tokens := state.tokens.drop 1 }
      match state.tokens.head? with
      | some .item =>
        if place.itemsHere then do
          let (items, state) ← readItems fuel state
          record name (list tag items) state
        else readAbsent name tag state
      | some (.scalar text isPlain) => record name (scalar tag text isPlain) rest
      | some .openList => do
        let (items, state) ← readFlowItems true fuel rest
        record name (list tag items) state
      | some .openMap => do
        let (entries, state) ← readFlowEntries true fuel rest
        record name (map tag entries) state
      | some .listStart =>
        if place.inBlock then do
          let (items, state) ← readBlockItems fuel rest
          record name (list tag items) state
        else readAbsent name tag state
      | some .mapStart =>
        if place.inBlock then do
          let (entries, state) ← readEntries fuel rest
          record name (map tag entries) state
        else readAbsent name tag state
      | _ => readAbsent name tag state
where
  /-- Only a node with properties may lack its content. -/
  readAbsent (name tag : Option String) (state : State) : Option (Node × State) :=
    if name.isNone ∧ tag.isNone then none else record name (scalar tag "" true) state

/-- A node, unless one of the given tokens comes next. -/
def readUnless (ends : List Token) (place : Position) : Nat → State → Option (Node × State)
  | 0, _ => none
  | fuel + 1, state =>
    if comesNext state ends then some (absent, state) else read place fuel state

/-- The items of a list with an indent of its own. -/
def readBlockItems : Nat → State → Option (List Node × State)
  | 0, _ => none
  | fuel + 1, state =>
    match state.tokens with
    | .item :: tokens => do
      let (item, state) ← readUnless [.item, .blockEnd] ⟨true, false⟩ fuel
        { state with tokens := tokens }
      let (items, state) ← readBlockItems fuel state
      some (item :: items, state)
    | .blockEnd :: tokens => some ([], { state with tokens := tokens })
    | _ => none

/-- The items of a list at the indent of the mapping around it. -/
def readItems : Nat → State → Option (List Node × State)
  | 0, _ => none
  | fuel + 1, state =>
    match state.tokens with
    | .item :: tokens => do
      let (item, state) ← readUnless [.item, .key, .value, .blockEnd] ⟨true, false⟩ fuel
        { state with tokens := tokens }
      let (items, state) ← readItems fuel state
      some (item :: items, state)
    | _ => some ([], state)

/-- The value of an entry of a mapping outside of brackets. -/
def readValue : Nat → State → Option (Node × State)
  | 0, _ => none
  | fuel + 1, state =>
    match state.tokens with
    | .value :: tokens =>
      readUnless [.key, .value, .blockEnd] ⟨true, true⟩ fuel { state with tokens := tokens }
    | _ => some (absent, state)

/-- The entries of a mapping outside of brackets. -/
def readEntries : Nat → State → Option (List (Node × Node) × State)
  | 0, _ => none
  | fuel + 1, state =>
    let goOn (key : Node) (state : State) : Option (List (Node × Node) × State) := do
      let (value, state) ← readValue fuel state
      let (entries, state) ← readEntries fuel state
      some ((key, value) :: entries, state)
    match state.tokens with
    | .key :: tokens => do
      let (key, state) ← readUnless [.key, .value, .blockEnd] ⟨true, true⟩ fuel
        { state with tokens := tokens }
      goOn key state
    | .value :: _ => goOn absent state
    | .blockEnd :: tokens => some ([], { state with tokens := tokens })
    | _ => none

/-- The value of an entry in brackets. -/
def readFlowValue (ends : List Token) : Nat → State → Option (Node × State)
  | 0, _ => none
  | fuel + 1, state =>
    match state.tokens with
    | .value :: tokens => readUnless ends ⟨false, false⟩ fuel { state with tokens := tokens }
    | _ => some (absent, state)

/-- The items of a list in brackets. A single entry is a mapping. -/
def readFlowItems (isFirst : Bool) : Nat → State → Option (List Node × State)
  | 0, _ => none
  | fuel + 1, state => do
    if comesNext state [.closeList] then
      some ([], { state with tokens := state.tokens.drop 1 })
    else
      let state ← if isFirst then some state else
        match state.tokens with
        | .comma :: tokens => some { state with tokens := tokens }
        | _ => none
      match state.tokens with
      | .key :: tokens => do
        let (key, state) ← readUnless [.value, .comma, .closeList] ⟨false, false⟩ fuel
          { state with tokens := tokens }
        let (value, state) ← readFlowValue [.comma, .closeList] fuel state
        let (items, state) ← readFlowItems false fuel state
        some (map none [(key, value)] :: items, state)
      | .closeList :: tokens => some ([], { state with tokens := tokens })
      | _ => do
        let (item, state) ← read ⟨false, false⟩ fuel state
        let (items, state) ← readFlowItems false fuel state
        some (item :: items, state)

/-- The entries of a mapping in braces. -/
def readFlowEntries (isFirst : Bool) : Nat → State → Option (List (Node × Node) × State)
  | 0, _ => none
  | fuel + 1, state => do
    if comesNext state [.closeMap] then
      some ([], { state with tokens := state.tokens.drop 1 })
    else
      let state ← if isFirst then some state else
        match state.tokens with
        | .comma :: tokens => some { state with tokens := tokens }
        | _ => none
      match state.tokens with
      | .key :: tokens => do
        let (key, state) ← readUnless [.value, .comma, .closeMap] ⟨false, false⟩ fuel
          { state with tokens := tokens }
        let (value, state) ← readFlowValue [.comma, .closeMap] fuel state
        let (entries, state) ← readFlowEntries false fuel state
        some ((key, value) :: entries, state)
      | .closeMap :: tokens => some ([], { state with tokens := tokens })
      | _ => do
        let (key, state) ← read ⟨false, false⟩ fuel state
        let (entries, state) ← readFlowEntries false fuel state
        some ((key, absent) :: entries, state)

end

/-- The handles that every document has. -/
def standardHandles : List (String × String) := [("!", "!"), ("!!", "tag:yaml.org,2002:")]

/-- The directives before a document. None may name a handle twice. -/
def readDirectives : List Token → List (String × String) → Option (List (String × String) × List Token)
  | .directive (some handle) :: tokens, handles =>
    if (handles.lookup handle.1).isSome then none else readDirectives tokens (handle :: handles)
  | .directive none :: tokens, handles => readDirectives tokens handles
  | tokens, handles => some (handles, tokens)

/-- The start of the document: none is needed where no directives stand. -/
def readStart (tokens : List Token) : Option State := do
  let (handles, rest) ← readDirectives tokens []
  match rest with
  | .documentStart :: rest => some ⟨rest, [], handles ++ standardHandles⟩
  | [] => if tokens = [] then some ⟨[], [], standardHandles⟩ else none
  | _ => if rest.length = tokens.length then some ⟨rest, [], standardHandles⟩ else none

/-- Nothing but ends of the document may follow it. -/
def isOver (tokens : List Token) : Bool := tokens.all (· = .documentEnd)

/-- The node of the only document of a text; a text without one has no node. -/
def ofTokens? (tokens : List Token) : Option (Option Node) := do
  if tokens = [] then return none
  let state ← readStart tokens
  let hasStart := tokens.length ≠ state.tokens.length
  let (node, state) ←
    if hasStart ∧ (state.tokens = [] ∨ comesNext state [.documentStart, .documentEnd]) then
      some (absent, state)
    else read ⟨true, false⟩ (4 * tokens.length + 4) state
  if isOver state.tokens then some node else none

end Node

end Phrasebook.Yaml

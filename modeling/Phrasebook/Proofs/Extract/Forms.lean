import Mathlib.Data.List.TakeWhile
import Mathlib.Data.Option.Basic
import Phrasebook.Proofs.Dictionary
import Phrasebook.Proofs.Extract.Members
import Phrasebook.Proofs.Message.Identifier

set_option autoImplicit false

/-!
The forms in which a message is stated, told from the tree alone: a template with a tag, a call with
a message and its context, a call with variations, and a component. For each form: what is read in it
is exactly the record that it states, and it fails exactly if it lacks a message.
-/
namespace Phrasebook.Extract

open Source (Node Position)
open Text (CodePoints)

/-! ### Records -/

/-- The record of a message at a place of a file. -/
def recordAt (file : String) (place : Position) (message : CodePoints)
    (context comment : Option CodePoints) : Record :=
  .create message.shown (context.map CodePoints.shown) comment (some ⟨file, place⟩)

/-- Of the records that are told of, the outcome is the only one, or it is none if there is none. -/
def Gives (outcome : Stated) (IsTold : Record → Prop) : Prop :=
  ∃ found : Option Record, outcome = .ok found.toList ∧ ∀ one, found = some one ↔ IsTold one

theorem gives_nothing {IsTold : Record → Prop} (untold : ∀ one, ¬ IsTold one) :
    Gives (.ok []) IsTold := ⟨none, rfl, fun one => by simp [untold one]⟩

/-- Whole text has its record. -/
theorem record_eq {file : String} {place : Position} {message : CodePoints}
    {context comment : Option CodePoints} (whole : message.IsWhole)
    (wholeContext : ∀ text, context = some text → text.IsWhole) :
    record file place message context comment =
      .ok [recordAt file place message context comment] := by
  have behind : (context.getD []).IsWhole := by
    cases context with
    | none =>
      intro code member
      cases member
    | some text => exact wholeContext text rfl
  have inside : context.map (fun text => text.toString?.getD "") =
      context.map CodePoints.shown := by
    apply Option.map_congr
    intro text own
    rw [CodePoints.toString?_of_isWhole (wholeContext text own), Option.getD_some]
  unfold record
  rw [Message.identify_of_isWhole whole behind]
  dsimp only
  rw [inside, CodePoints.toString?_of_isWhole whole]
  rfl

/-- A text with its record gives that one, where the records told of are that one. -/
theorem gives_record {file : String} {place : Position} {message : CodePoints}
    {context comment : Option CodePoints} {IsTold : Record → Prop} (whole : message.IsWhole)
    (wholeContext : ∀ text, context = some text → text.IsWhole)
    (told : ∀ one, IsTold one ↔ one = recordAt file place message context comment) :
    Gives (record file place message context comment) IsTold := by
  refine ⟨some _, record_eq whole wholeContext, fun one => ?_⟩
  rw [told, Option.some_inj, eq_comm]

/-! ### Templates -/

theorem identifier?_eq_some_iff {node : Node Position} {name : String} :
    identifier? node = some name ↔ ∃ place, node = .identifier place name := by
  constructor
  · intro named
    unfold identifier? at named
    split at named
    · cases named
      exact ⟨_, rfl⟩
    · cases named
  · rintro ⟨place, rfl⟩
    rfl

/-- A template with a tag for messages states the text between its marks, with placeholders for
its expressions. -/
def IsTemplate (file : String) (tags : Tags) (tag body : Node Position) (one : Record) : Prop :=
  ∃ spot name place pieces expressions message, tag = .identifier spot name ∧ name ∈ tags.message ∧
    body = .template place pieces expressions ∧
    templatePoints (pieces.all.map chunk) = .ok message ∧
    one = recordAt file place message none none

theorem chunk_isWhole {piece : Source.Piece Position} (whole : IsWhole (.quasi piece)) :
    (chunk piece).IsWhole := by
  rw [IsWhole, ownText] at whole
  rw [chunk]
  cases cooks : piece.cooked with
  | none => exact CodePoints.isWhole_ofChars _
  | some cooked => rwa [cooks] at whole

theorem chunkPoints_isWhole {chunks : List CodePoints} (whole : ∀ chunk ∈ chunks, chunk.IsWhole)
    (index : Nat) : (chunkPoints index chunks).IsWhole := by
  induction chunks generalizing index with
  | nil =>
    intro code member
    cases member
  | cons chunk chunks ih =>
    have first := whole chunk List.mem_cons_self
    have rest := ih (fun other later => whole other (List.mem_cons_of_mem _ later)) (index + 1)
    have marked := CodePoints.isWhole_append (CodePoints.isWhole_ofString (placeholder index)) first
    exact CodePoints.isWhole_append marked rest

/-- There is a chunk for each piece, so there is a message. -/
theorem templatePoints_pieces {pieces : Source.Pieces Position}
    (whole : ∀ piece ∈ pieces.all, IsWhole (.quasi piece)) :
    ∃ message, templatePoints (pieces.all.map chunk) = .ok message ∧ message.IsWhole := by
  have first := chunk_isWhole (whole pieces.first List.mem_cons_self)
  have rest : ∀ other ∈ pieces.others.map chunk, other.IsWhole := by
    intro other member
    obtain ⟨piece, later, rfl⟩ := List.mem_map.mp member
    exact chunk_isWhole (whole piece (List.mem_cons_of_mem _ later))
  exact ⟨_, rfl, CodePoints.isWhole_append first (chunkPoints_isWhole rest 0)⟩

theorem taggedTemplate_gives {file : String} {tags : Tags} {tag body : Node Position}
    (whole : body.Throughout IsWhole) :
    Gives (taggedTemplate file tags tag body) (IsTemplate file tags tag body) := by
  unfold taggedTemplate
  split
  · rename_i name place pieces expressions named
    obtain ⟨spot, rfl⟩ := identifier?_eq_some_iff.mp named
    by_cases listed : name ∈ tags.message
    · rw [if_pos (List.contains_iff_mem.mpr listed)]
      have own : ∀ piece ∈ pieces.all, IsWhole (.quasi piece) := by
        intro piece member
        have part : .quasi piece ∈ (Node.template place pieces expressions).children :=
          List.mem_append_left _ (List.mem_map_of_mem member)
        exact (whole.child part).self
      obtain ⟨message, joined, wholeMessage⟩ := templatePoints_pieces own
      rw [joined]
      refine gives_record wholeMessage (fun text none => by cases none) ?_
      intro one
      constructor
      · rintro ⟨_, _, _, _, _, _, tag, _, body, same, is⟩
        cases tag
        cases body
        cases joined.symm.trans same
        exact is
      · intro is
        exact ⟨spot, name, place, pieces, expressions, message, rfl, listed, rfl, joined, is⟩
    · rw [if_neg (by simpa using listed)]
      apply gives_nothing
      rintro one ⟨_, _, _, _, _, _, tag, own, -, -, -⟩
      cases tag
      exact listed own
  · rename_i other
    apply gives_nothing
    rintro one ⟨spot, name, place, pieces, expressions, message, rfl, -, rfl, -, -⟩
    exact other name place pieces expressions rfl rfl

/-! ### Calls with a message and its context -/

/-- The argument with a number is an object of members whose names are known. -/
def HasMembers (args : List (Node Position)) (index : Nat)
    (members : List (CodePoints × Node Position)) : Prop :=
  ∃ object, args[index]? = some object ∧ IsStatic object members

/-- A call says its message, and its context and a comment if they are given. -/
def SaysMessage (args : List (Node Position)) (message : CodePoints)
    (context comment : Option CodePoints) : Prop :=
  ∃ members, HasMembers args 0 members ∧
    Says IsText members (.ofString "message") (some message) ∧ message ≠ [] ∧
    Says IsText members (.ofString "context") context ∧
    Says IsText members (.ofString "comment") comment

/-- The record of a call that says its message. -/
def IsStructured (file : String) (place : Position) (args : List (Node Position)) (one : Record) :
    Prop :=
  ∃ message context comment, SaysMessage args message context comment ∧
    one = recordAt file place message context comment

/-- A call that should have a message and has none, or one without text. -/
def LacksMessage (args : List (Node Position)) : Prop :=
  ∃ members, HasMembers args 0 members ∧
    (Says IsText members (.ofString "message") none ∨
      Says IsText members (.ofString "message") (some []))

section

variable {file : String} {place : Position} {args : List (Node Position)}

theorem hasMembers_iff (readable : ∀ arg ∈ args, arg.Throughout IsReadable) {index : Nat}
    {members : List (CodePoints × Node Position)} :
    (args[index]?).bind entries? = some members ↔ HasMembers args index members := by
  constructor
  · intro listed
    obtain ⟨object, given, taken⟩ := Option.bind_eq_some_iff.mp listed
    have own := readable object (List.mem_of_getElem? given)
    exact ⟨object, given, (entries?_eq_some_iff own).mp taken⟩
  · rintro ⟨object, given, static⟩
    have own := readable object (List.mem_of_getElem? given)
    rw [given, Option.bind_some]
    exact (entries?_eq_some_iff own).mpr static

theorem member?_of_said {name : String} {members : List (CodePoints × Node Position)}
    {text : CodePoints} (said : Says IsText members (.ofString name) (some text)) :
    ∃ value, member? name members = some value ∧ text? value = some text := by
  cases said with
  | @last value _ last read =>
    exact ⟨value, lookup_reverse_eq_some.mpr last, text?_eq_some_iff.mpr read⟩

theorem says_of_member? {name : String} {members : List (CodePoints × Node Position)}
    {value : Node Position} {text : CodePoints} (present : member? name members = some value)
    (read : text? value = some text) : Says IsText members (.ofString name) (some text) :=
  .last (lookup_reverse_eq_some.mp present) (text?_eq_some_iff.mp read)

theorem HasMembers.isWhole {index : Nat} {members : List (CodePoints × Node Position)}
    (has : HasMembers args index members) (whole : ∀ arg ∈ args, arg.Throughout IsWhole)
    {member : CodePoints × Node Position} (own : member ∈ members) :
    member.1.IsWhole ∧ ∀ text, IsText member.2 text → text.IsWhole := by
  obtain ⟨object, given, static⟩ := has
  exact static.isWhole (whole object (List.mem_of_getElem? given)) own

theorem HasMembers.said_isWhole {index : Nat} {members : List (CodePoints × Node Position)}
    (has : HasMembers args index members) (whole : ∀ arg ∈ args, arg.Throughout IsWhole)
    {name text : CodePoints} (said : Says IsText members name (some text)) : text.IsWhole := by
  cases said with
  | @last value _ last read =>
    obtain ⟨front, back, rfl, -⟩ := last
    have own : (name, value) ∈ front ++ (name, value) :: back :=
      List.mem_append_right _ List.mem_cons_self
    exact (has.isWhole whole own).2 text read

/-- An argument has its members in one way. -/
theorem HasMembers.unique (readable : ∀ arg ∈ args, arg.Throughout IsReadable) {index : Nat}
    {members others : List (CodePoints × Node Position)} (has : HasMembers args index members)
    (too : HasMembers args index others) : others = members := by
  rw [← hasMembers_iff readable] at has too
  rw [has] at too
  exact (Option.some.inj too).symm

theorem structuredCall_lacks (readable : ∀ arg ∈ args, arg.Throughout IsReadable)
    (lacks : LacksMessage args) : structuredCall file place args = .error (.noMessage place) := by
  obtain ⟨members, has, said⟩ := lacks
  have listed := (hasMembers_iff readable).mpr has
  unfold structuredCall
  rw [List.head?_eq_getElem?, listed]
  dsimp only
  rcases said with absent | blank
  · have none : member? "message" members = none :=
      lookup_reverse_eq_none.mpr (says_none_iff.mp absent)
    rw [none]
  · obtain ⟨value, present, read⟩ := member?_of_said blank
    rw [present]
    dsimp only
    rw [read]

theorem structuredCall_said (readable : ∀ arg ∈ args, arg.Throughout IsReadable)
    {message : CodePoints} {context comment : Option CodePoints}
    (said : SaysMessage args message context comment) :
    structuredCall file place args = record file place message context comment := by
  obtain ⟨members, has, stated, text, around, note⟩ := said
  have listed := (hasMembers_iff readable).mpr has
  obtain ⟨value, present, read⟩ := member?_of_said stated
  unfold structuredCall
  rw [List.head?_eq_getElem?, listed]
  dsimp only
  rw [present]
  dsimp only
  rw [read]
  cases message with
  | nil => exact absurd rfl text
  | cons =>
    dsimp only
    rw [optionalText?_eq_some_iff.mpr around, optionalText?_eq_some_iff.mpr note]

/-- A call whose message, context or comment is not known states nothing. -/
theorem structuredCall_silent (readable : ∀ arg ∈ args, arg.Throughout IsReadable)
    (complete : ¬ LacksMessage args)
    (silent : ∀ message context comment, ¬ SaysMessage args message context comment) :
    structuredCall file place args = .ok [] := by
  -- every other way out of the call would make it lack its message or say one
  unfold structuredCall
  rw [List.head?_eq_getElem?]
  split
  · rfl
  rename_i members listed
  have has := (hasMembers_iff readable).mp listed
  split
  · rename_i absent
    have said : Says IsText members (.ofString "message") none :=
      says_none_iff.mpr (lookup_reverse_eq_none.mp absent)
    exact absurd ⟨members, has, .inl said⟩ complete
  rename_i value present
  split
  · rfl
  · rename_i blank
    exact absurd ⟨members, has, .inr (says_of_member? present blank)⟩ complete
  rename_i message text read
  split
  · rename_i context comment around note
    have said : SaysMessage args message context comment :=
      ⟨members, has, says_of_member? present read, text, optionalText?_eq_some_iff.mp around,
        optionalText?_eq_some_iff.mp note⟩
    exact absurd said (silent message context comment)
  · rfl

/-- What a call says is whole if the call is. -/
theorem SaysMessage.isWhole {message : CodePoints} {context comment : Option CodePoints}
    (said : SaysMessage args message context comment)
    (whole : ∀ arg ∈ args, arg.Throughout IsWhole) :
    message.IsWhole ∧ ∀ inner, context = some inner → inner.IsWhole := by
  obtain ⟨members, has, text, -, around, -⟩ := said
  refine ⟨has.said_isWhole whole text, ?_⟩
  rintro inner rfl
  exact has.said_isWhole whole around

/-- A call says one message. -/
theorem SaysMessage.unique (readable : ∀ arg ∈ args, arg.Throughout IsReadable)
    {message other : CodePoints} {context around comment note : Option CodePoints}
    (said : SaysMessage args message context comment) (too : SaysMessage args other around note) :
    other = message ∧ around = context ∧ note = comment := by
  obtain ⟨members, has, first, -, second, third⟩ := said
  obtain ⟨others, hasToo, firstToo, -, secondToo, thirdToo⟩ := too
  cases has.unique readable hasToo
  exact ⟨Option.some.inj (firstToo.unique isText_unique first), secondToo.unique isText_unique second,
    thirdToo.unique isText_unique third⟩

theorem structuredCall_gives (readable : ∀ arg ∈ args, arg.Throughout IsReadable)
    (whole : ∀ arg ∈ args, arg.Throughout IsWhole) (complete : ¬ LacksMessage args) :
    Gives (structuredCall file place args) (IsStructured file place args) := by
  by_cases stated : ∃ message context comment, SaysMessage args message context comment
  · obtain ⟨message, context, comment, said⟩ := stated
    rw [structuredCall_said readable said]
    obtain ⟨wholeMessage, wholeContext⟩ := said.isWhole whole
    refine gives_record wholeMessage wholeContext fun one => ?_
    constructor
    · rintro ⟨_, _, _, too, is⟩
      obtain ⟨rfl, rfl, rfl⟩ := said.unique readable too
      exact is
    · intro is
      exact ⟨message, context, comment, said, is⟩
  · have silent : ∀ message context comment, ¬ SaysMessage args message context comment :=
      fun message context comment said => stated ⟨message, context, comment, said⟩
    rw [structuredCall_silent readable complete silent]
    apply gives_nothing
    rintro one ⟨message, context, comment, said, -⟩
    exact silent message context comment said

/-! ### Calls with variations -/

/-- A member with a literal text is a variation. -/
def IsVariation (member : CodePoints × Node Position) (pair : CodePoints × CodePoints) : Prop :=
  pair.1 = member.1 ∧ IsText member.2 pair.2

/-- A call gives variations, one at least, in the argument with a number. -/
def SaysVariations (args : List (Node Position)) (index : Nat)
    (pairs : List (CodePoints × CodePoints)) : Prop :=
  ∃ members, HasMembers args index members ∧ members ≠ [] ∧ List.Forall₂ IsVariation members pairs

/-- The record of a call that gives variations. Of several for one selector the last counts, in the
place of the first. -/
def IsPlural (file : String) (place : Position) (args : List (Node Position)) (index : Nat)
    (one : Record) : Prop :=
  ∃ pairs, SaysVariations args index pairs ∧
    one = recordAt file place (variationPoints (.ofPairs pairs)) none none

theorem variations_eq_some_iff {members : List (CodePoints × Node Position)}
    {pairs : List (CodePoints × CodePoints)} :
    (members.mapM fun entry => (text? entry.2).map (entry.1, ·)) = some pairs ↔
      List.Forall₂ IsVariation members pairs := by
  apply Outcome.mapM_eq_some_iff
  rintro member - ⟨name, text⟩ -
  simp only [Option.map_eq_some_iff, text?_eq_some_iff, IsVariation, Prod.mk.injEq]
  constructor
  · rintro ⟨_, literal, rfl, rfl⟩
    exact ⟨rfl, literal⟩
  · rintro ⟨rfl, literal⟩
    exact ⟨text, literal, rfl, rfl⟩

theorem variationPoints_isWhole {variations : Dictionary CodePoints CodePoints}
    (whole : ∀ pair ∈ variations, pair.1.IsWhole ∧ pair.2.IsWhole) :
    (variationPoints variations).IsWhole := by
  have options : ∀ option ∈ variations.map (fun pair =>
      CodePoints.ofString " " ++ pair.1 ++ CodePoints.ofString " \x7b" ++ pair.2 ++
        CodePoints.ofString "\x7d"), CodePoints.IsWhole option := by
    intro option member
    obtain ⟨pair, own, rfl⟩ := List.mem_map.mp member
    obtain ⟨selector, text⟩ := whole pair own
    have name := CodePoints.isWhole_append (CodePoints.isWhole_ofString " ") selector
    have opened := CodePoints.isWhole_append name (CodePoints.isWhole_ofString " \x7b")
    have filled := CodePoints.isWhole_append opened text
    exact CodePoints.isWhole_append filled (CodePoints.isWhole_ofString "\x7d")
  have joined : CodePoints.IsWhole (variations.map (fun pair =>
      CodePoints.ofString " " ++ pair.1 ++ CodePoints.ofString " \x7b" ++ pair.2 ++
        CodePoints.ofString "\x7d")).flatten := by
    intro code member
    obtain ⟨option, own, inside⟩ := List.mem_flatten.mp member
    exact options option own code inside
  have start := CodePoints.isWhole_ofString ("\x7b" ++ Plural.argumentName ++ ", plural,")
  have filled := CodePoints.isWhole_append start joined
  exact CodePoints.isWhole_append filled (CodePoints.isWhole_ofString "\x7d")

/-- Names and texts of variations are whole if the call is. -/
theorem SaysVariations.isWhole {index : Nat} {pairs : List (CodePoints × CodePoints)}
    (said : SaysVariations args index pairs) (whole : ∀ arg ∈ args, arg.Throughout IsWhole) :
    ∀ pair ∈ Dictionary.ofPairs pairs, pair.1.IsWhole ∧ pair.2.IsWhole := by
  obtain ⟨members, has, -, all⟩ := said
  intro pair stored
  obtain ⟨member, own, name, literal⟩ := exists_of_forall₂ all (Dictionary.mem_ofPairs stored)
  obtain ⟨wholeName, wholeText⟩ := has.isWhole whole own
  exact ⟨name ▸ wholeName, wholeText pair.2 literal⟩

/-- A call gives variations in one way. -/
theorem SaysVariations.unique (readable : ∀ arg ∈ args, arg.Throughout IsReadable) {index : Nat}
    {pairs others : List (CodePoints × CodePoints)} (said : SaysVariations args index pairs)
    (too : SaysVariations args index others) : others = pairs := by
  obtain ⟨members, has, -, all⟩ := said
  obtain ⟨same, hasToo, -, allToo⟩ := too
  cases has.unique readable hasToo
  rw [← variations_eq_some_iff] at all allToo
  rw [all] at allToo
  exact (Option.some.inj allToo).symm

theorem pluralCall_said (readable : ∀ arg ∈ args, arg.Throughout IsReadable) {index : Nat}
    {pairs : List (CodePoints × CodePoints)} (said : SaysVariations args index pairs) :
    pluralCall file place args index =
      record file place (variationPoints (.ofPairs pairs)) none none := by
  obtain ⟨members, has, some, all⟩ := said
  unfold pluralCall
  rw [(hasMembers_iff readable).mpr has]
  cases members with
  | nil => exact absurd rfl some
  | cons =>
    dsimp only
    rw [variations?, variations_eq_some_iff.mpr all]
    rfl

/-- A call whose variations are not known states nothing. -/
theorem pluralCall_silent (readable : ∀ arg ∈ args, arg.Throughout IsReadable) {index : Nat}
    (silent : ∀ pairs, ¬ SaysVariations args index pairs) :
    pluralCall file place args index = .ok [] := by
  unfold pluralCall
  split
  · rfl
  · rfl
  rename_i members some listed
  split
  · rename_i variations read
    obtain ⟨pairs, taken, -⟩ := Option.map_eq_some_iff.mp read
    have said : SaysVariations args index pairs :=
      ⟨members, (hasMembers_iff readable).mp listed, some, variations_eq_some_iff.mp taken⟩
    exact absurd said (silent pairs)
  · rfl

theorem pluralCall_gives (readable : ∀ arg ∈ args, arg.Throughout IsReadable)
    (whole : ∀ arg ∈ args, arg.Throughout IsWhole) (index : Nat) :
    Gives (pluralCall file place args index) (IsPlural file place args index) := by
  by_cases stated : ∃ pairs, SaysVariations args index pairs
  · obtain ⟨pairs, said⟩ := stated
    rw [pluralCall_said readable said]
    refine gives_record (variationPoints_isWhole (said.isWhole whole))
      (fun text none => by cases none) fun one => ?_
    constructor
    · rintro ⟨others, too, is⟩
      rw [said.unique readable too] at is
      exact is
    · intro is
      exact ⟨pairs, said, is⟩
  · have silent : ∀ pairs, ¬ SaysVariations args index pairs := fun pairs said => stated ⟨pairs, said⟩
    rw [pluralCall_silent readable silent]
    apply gives_nothing
    rintro one ⟨pairs, said, -⟩
    exact silent pairs said

end

/-- What a call by a name states: in each list that holds the name, one after another. -/
theorem call_eq {file : String} {tags : Tags} (place spot : Position) (name : String)
    (args : List (Node Position)) :
    call file tags place (.identifier spot name) args =
      (if tags.message.contains name then structuredCall file place args else .ok []) >>= fun first =>
      (if tags.plural.contains name then pluralCall file place args 1 else .ok []) >>= fun second =>
      (if tags.definition.contains name then pluralCall file place args 0 else .ok []) >>=
        fun third => .ok (first ++ second ++ third) := by
  cases message : tags.message.contains name <;> cases plural : tags.plural.contains name <;>
    cases definition : tags.definition.contains name <;>
    simp only [call, identifier?, message, plural, definition] <;> rfl

/-! ### Components -/

/-- The attributes of a component say its message, and its context and a comment if they are given. -/
def SaysAttributes (nodes : List (Node Position)) (message : String)
    (context comment : Option String) : Prop :=
  ∃ attributes, List.Forall₂ IsAttribute nodes attributes ∧
    Says IsPlain attributes "msg" (some message) ∧ message ≠ "" ∧
    Says IsPlain attributes "ctx" context ∧ Says IsPlain attributes "cmt" comment

/-- The record of a component that says its message. -/
def IsComponent (file : String) (tags : Tags) (place : Position) (name : String)
    (nodes : List (Node Position)) (one : Record) : Prop :=
  name ∈ tags.component ∧ ∃ message context comment,
    SaysAttributes nodes message context comment ∧
    one = .create message context (comment.map .ofString) (some ⟨file, place⟩)

/-- A component that should have a message and has none, or one without text where all else is
known. -/
def LacksAttribute (tags : Tags) (name : String) (nodes : List (Node Position)) : Prop :=
  name ∈ tags.component ∧ ∃ attributes, List.Forall₂ IsAttribute nodes attributes ∧
    (Says IsPlain attributes "msg" none ∨
      Says IsPlain attributes "msg" (some "") ∧ ∃ context comment,
        Says IsPlain attributes "ctx" context ∧ Says IsPlain attributes "cmt" comment)

section

variable {file : String} {tags : Tags} {place : Position} {name : String}
  {nodes : List (Node Position)}

theorem lookup_isNone_iff {attributes : List (String × Option (List (Node Position)))}
    {name : String} : (attributes.lookup name).isNone = true ↔ Says IsPlain attributes name none := by
  rw [Option.isNone_iff_eq_none, says_none_iff, List.lookup_eq_none_iff]
  simp only [bne_iff_ne, ne_comm]

/-- The attributes of a component are determined by it. -/
theorem attributes_unique {nodes : List (Node Position)}
    {attributes others : List (String × Option (List (Node Position)))}
    (all : List.Forall₂ IsAttribute nodes attributes) (too : List.Forall₂ IsAttribute nodes others) :
    others = attributes := by
  rw [← attributes_eq_some_iff] at all too
  rw [all] at too
  exact (Option.some.inj too).symm

theorem component_lacks (lacks : LacksAttribute tags name nodes) :
    component file tags place name nodes = .error (.noMessage place) := by
  obtain ⟨listed, attributes, all, said⟩ := lacks
  have known : tags.component.contains name = true := List.contains_iff_mem.mpr listed
  unfold component
  rw [known, attributes_eq_some_iff.mpr all]
  dsimp only
  rcases said with absent | ⟨blank, context, comment, around, note⟩
  · rw [Bool.not_true, if_neg Bool.false_ne_true, if_pos (lookup_isNone_iff.mpr absent)]
  · rw [Bool.not_true, if_neg Bool.false_ne_true]
    split
    · rfl
    · rw [optionalAttribute?_eq_some_iff.mpr blank, optionalAttribute?_eq_some_iff.mpr around,
        optionalAttribute?_eq_some_iff.mpr note]
      rfl

theorem SaysAttributes.unique {message other : String} {context around comment note : Option String}
    (said : SaysAttributes nodes message context comment)
    (too : SaysAttributes nodes other around note) :
    other = message ∧ around = context ∧ note = comment := by
  obtain ⟨attributes, all, first, -, second, third⟩ := said
  obtain ⟨others, allToo, firstToo, -, secondToo, thirdToo⟩ := too
  cases attributes_unique all allToo
  exact ⟨Option.some.inj (firstToo.unique isPlain_unique first),
    secondToo.unique isPlain_unique second, thirdToo.unique isPlain_unique third⟩

theorem component_said (listed : name ∈ tags.component) {message : String}
    {context comment : Option String} (said : SaysAttributes nodes message context comment) :
    component file tags place name nodes =
      .ok [.create message context (comment.map .ofString) (some ⟨file, place⟩)] := by
  obtain ⟨attributes, all, stated, text, around, note⟩ := said
  have known : tags.component.contains name = true := List.contains_iff_mem.mpr listed
  have present : ¬ (attributes.lookup "msg").isNone = true := by
    intro absent
    cases (lookup_isNone_iff.mp absent).unique isPlain_unique stated
  unfold component
  rw [known, Bool.not_true, if_neg Bool.false_ne_true, attributes_eq_some_iff.mpr all]
  dsimp only
  rw [if_neg present, optionalAttribute?_eq_some_iff.mpr stated,
    optionalAttribute?_eq_some_iff.mpr around, optionalAttribute?_eq_some_iff.mpr note]
  dsimp only
  rw [Option.getD_some, if_neg (by simpa using text)]

/-- A component whose message, context or comment is not known states nothing. -/
theorem component_silent (listed : name ∈ tags.component) (complete : ¬ LacksAttribute tags name nodes)
    (silent : ∀ message context comment, ¬ SaysAttributes nodes message context comment) :
    component file tags place name nodes = .ok [] := by
  have known : tags.component.contains name = true := List.contains_iff_mem.mpr listed
  unfold component
  rw [known, Bool.not_true, if_neg Bool.false_ne_true]
  split
  · rfl
  rename_i attributes taken
  have all := attributes_eq_some_iff.mp taken
  split
  · rename_i absent
    exact absurd ⟨listed, attributes, all, .inl (lookup_isNone_iff.mp absent)⟩ complete
  rename_i present
  split
  · rename_i message context comment said around note
    rw [optionalAttribute?_eq_some_iff] at said around note
    cases message with
    | none => exact absurd (lookup_isNone_iff.mpr said) present
    | some message =>
      by_cases text : message = ""
      · subst text
        exact absurd ⟨listed, attributes, all, .inr ⟨said, context, comment, around, note⟩⟩ complete
      · exact absurd ⟨attributes, all, said, text, around, note⟩ (silent message context comment)
  · rfl

theorem component_gives (complete : ¬ LacksAttribute tags name nodes) :
    Gives (component file tags place name nodes) (IsComponent file tags place name nodes) := by
  by_cases listed : name ∈ tags.component
  · by_cases stated : ∃ message context comment, SaysAttributes nodes message context comment
    · obtain ⟨message, context, comment, said⟩ := stated
      rw [component_said listed said]
      refine ⟨some _, rfl, fun one => ?_⟩
      rw [Option.some_inj, eq_comm]
      constructor
      · intro is
        exact ⟨listed, message, context, comment, said, is⟩
      · rintro ⟨-, _, _, _, too, is⟩
        obtain ⟨rfl, rfl, rfl⟩ := said.unique too
        exact is
    · have silent : ∀ message context comment, ¬ SaysAttributes nodes message context comment :=
        fun message context comment said => stated ⟨message, context, comment, said⟩
      rw [component_silent listed complete silent]
      apply gives_nothing
      rintro one ⟨-, message, context, comment, said, -⟩
      exact silent message context comment said
  · have unknown : tags.component.contains name = false := by simpa using listed
    unfold component
    rw [unknown, Bool.not_false, if_pos rfl]
    apply gives_nothing
    rintro one ⟨own, -⟩
    exact listed own

end

end Phrasebook.Extract

import Phrasebook.Extract.Collect
import Phrasebook.Proofs.Outcome
import Phrasebook.Proofs.Source.Traversal
import Phrasebook.Proofs.Text.CodePoints

set_option autoImplicit false

/-!
What stands in the objects of calls and in the attributes of components, told from the tree alone:
the name of a member, and what the last member of a name says.
-/
namespace Phrasebook.Extract

open Source (Node Position)
open Text (CodePoints)

/-! ### Members of a name -/

section

variable {κ ν τ : Type}

/-- The value of the last member of a name. -/
def IsLast (members : List (κ × ν)) (name : κ) (value : ν) : Prop :=
  ∃ front back, members = front ++ (name, value) :: back ∧ ∀ member ∈ back, member.1 ≠ name

/-- What the last member of a name says, where its value can be read; nothing if there is none. -/
inductive Says (reads : ν → τ → Prop) (members : List (κ × ν)) (name : κ) : Option τ → Prop
  | nothing (absent : ∀ member ∈ members, member.1 ≠ name) : Says reads members name none
  | last {value : ν} {said : τ} (last : IsLast members name value) (read : reads value said) :
    Says reads members name (some said)

variable {reads : ν → τ → Prop} {members : List (κ × ν)} {name : κ}

theorem says_none_iff :
    Says reads members name none ↔ ∀ member ∈ members, member.1 ≠ name := by
  constructor
  · intro said
    cases said with
    | nothing absent => exact absent
  · intro absent
    exact .nothing absent

variable [BEq κ] [LawfulBEq κ]

theorem lookup_reverse_eq_none :
    members.reverse.lookup name = none ↔ ∀ member ∈ members, member.1 ≠ name := by
  rw [List.lookup_eq_none_iff]
  constructor
  · intro others member own same
    have different := others member (List.mem_reverse.mpr own)
    simp [same] at different
  · intro others member own
    simpa using Ne.symm (others member (List.mem_reverse.mp own))

theorem lookup_reverse_eq_some {value : ν} :
    members.reverse.lookup name = some value ↔ IsLast members name value := by
  rw [List.lookup_eq_some_iff]
  constructor
  · rintro ⟨after, before, turned, others⟩
    refine ⟨before.reverse, after.reverse, ?_, ?_⟩
    · rw [← List.reverse_reverse members, turned]
      simp
    · intro member later same
      have different := others member (List.mem_reverse.mp later)
      simp [same] at different
  · rintro ⟨front, back, rfl, others⟩
    refine ⟨back.reverse, front.reverse, by simp, ?_⟩
    intro member later
    simpa using Ne.symm (others member (List.mem_reverse.mp later))

theorem says_of_lookup_none {found : Option τ}
    (absent : members.reverse.lookup name = none) :
    Says reads members name found ↔ found = none := by
  constructor
  · intro said
    cases said with
    | nothing => rfl
    | last last =>
      rw [lookup_reverse_eq_some.mpr last] at absent
      cases absent
  · rintro rfl
    exact .nothing (lookup_reverse_eq_none.mp absent)

theorem says_of_lookup_some {found : Option τ} {value : ν}
    (last : members.reverse.lookup name = some value) :
    Says reads members name found ↔ ∃ said, reads value said ∧ some said = found := by
  constructor
  · intro said
    cases said with
    | nothing absent =>
      rw [lookup_reverse_eq_none.mpr absent] at last
      cases last
    | last other read =>
      rw [lookup_reverse_eq_some.mpr other] at last
      cases last
      exact ⟨_, read, rfl⟩
  · rintro ⟨said, read, rfl⟩
    exact .last (lookup_reverse_eq_some.mp last) read

/-- A name says one thing if a value does. -/
theorem Says.unique (functional : ∀ value one two, reads value one → reads value two → one = two)
    {found other : Option τ} (said : Says reads members name found)
    (too : Says reads members name other) : found = other := by
  cases last : members.reverse.lookup name with
  | none =>
    rw [says_of_lookup_none last] at said too
    rw [said, too]
  | some value =>
    rw [says_of_lookup_some last] at said too
    obtain ⟨one, first, rfl⟩ := said
    obtain ⟨two, second, rfl⟩ := too
    rw [functional value one two first second]

end

/-- What one list holds has a counterpart in the other. -/
theorem exists_of_forall₂ {α β : Type} {related : α → β → Prop} {left : List α} {right : List β}
    (all : List.Forall₂ related left right) {two : β} (member : two ∈ right) :
    ∃ one ∈ left, related one two := by
  induction all with
  | nil => simp at member
  | cons pair _ ih =>
    rcases List.mem_cons.mp member with rfl | later
    · exact ⟨_, List.mem_cons_self, pair⟩
    · obtain ⟨one, own, found⟩ := ih later
      exact ⟨one, List.mem_cons_of_mem _ own, found⟩

/-! ### Objects -/

/-- The name that a key gives: an identifier, a text, or a number as it is spelled. -/
inductive IsName : Node Position → CodePoints → Prop
  | identifier (place : Position) (name : String) :
    IsName (.identifier place name) (.ofString name)
  | text (place : Position) (text : CodePoints) (raw : String) :
    IsName (.literal place (.text text) raw) text
  | number (place : Position) (number : Number) (raw : String) :
    IsName (.literal place (.number number) raw) (.ofString raw)
  | unreadable (place : Position) (raw : String) :
    IsName (.literal place .unreadable raw) (.ofString raw)

/-- A member whose name does not have to be computed. -/
def IsMember (node : Node Position) (member : CodePoints × Node Position) : Prop :=
  ∃ place key shorthand, node = .property place key member.2 false shorthand ∧ IsName key member.1

/-- An object of such members, in their order. -/
def IsStatic (object : Node Position) (members : List (CodePoints × Node Position)) : Prop :=
  ∃ place nodes, object = .object place nodes ∧ List.Forall₂ IsMember nodes members

/-- A literal text. -/
def IsText (node : Node Position) (text : CodePoints) : Prop :=
  ∃ place raw, node = .literal place (.text text) raw

/-- Whether a number stands as a key whose value cannot be read. -/
def hasUnreadableKey : Node Position → Bool
  | .property _ (.literal _ .unreadable _) _ _ _ => true
  | _ => false

def IsReadable (node : Node Position) : Prop := hasUnreadableKey node = false

instance : DecidablePred IsReadable := fun node =>
  inferInstanceAs (Decidable (hasUnreadableKey node = false))

/-- The text that a node itself holds. -/
def ownText : Node Position → CodePoints
  | .literal _ (.text text) _ => text
  | .quasi piece => piece.cooked.getD []
  | _ => []

/-- No surrogate stands alone in the text of a node itself. -/
def IsWhole (node : Node Position) : Prop := (ownText node).IsWhole

instance : DecidablePred IsWhole := fun node => inferInstanceAs (Decidable (ownText node).IsWhole)

theorem text?_eq_some_iff {node : Node Position} {text : CodePoints} :
    text? node = some text ↔ IsText node text := by
  constructor
  · intro read
    unfold text? at read
    split at read
    · cases read
      exact ⟨_, _, rfl⟩
    · cases read
  · rintro ⟨place, raw, rfl⟩
    rfl

theorem isText_unique (node : Node Position) (one two : CodePoints) (first : IsText node one)
    (second : IsText node two) : one = two := by
  rw [← text?_eq_some_iff] at first second
  rw [first] at second
  exact Option.some.inj second

theorem IsText.isWhole {node : Node Position} {text : CodePoints} (literal : IsText node text)
    (whole : IsWhole node) : text.IsWhole := by
  obtain ⟨place, raw, rfl⟩ := literal
  exact whole

theorem IsName.isWhole {key : Node Position} {name : CodePoints} (named : IsName key name)
    (whole : IsWhole key) : name.IsWhole := by
  cases named with
  | text => exact whole
  | _ => exact CodePoints.isWhole_ofString _

theorem entry?_eq_some_iff {node : Node Position} (readable : IsReadable node)
    {member : CodePoints × Node Position} : entry? node = some member ↔ IsMember node member := by
  constructor
  · intro taken
    unfold entry? at taken
    split at taken
    · rename_i place key value shorthand
      obtain ⟨name, named, rfl⟩ := Option.map_eq_some_iff.mp taken
      refine ⟨place, key, shorthand, rfl, ?_⟩
      unfold key? at named
      split at named
      · cases named
        exact .identifier _ _
      · cases named
        exact .text _ _ _
      · cases named
        exact .number _ _ _
      · cases named
    · cases taken
  · obtain ⟨name, value⟩ := member
    rintro ⟨place, key, shorthand, rfl, named⟩
    cases named with
    | unreadable => cases readable
    | _ => rfl

theorem entries?_eq_some_iff {object : Node Position} (readable : object.Throughout IsReadable)
    {members : List (CodePoints × Node Position)} :
    entries? object = some members ↔ IsStatic object members := by
  have exact : ∀ place nodes, object = .object place nodes →
      (nodes.mapM entry? = some members ↔ List.Forall₂ IsMember nodes members) := by
    rintro place nodes rfl
    apply Outcome.mapM_eq_some_iff
    intro node own member _
    exact entry?_eq_some_iff (readable.child own).self
  constructor
  · intro taken
    unfold entries? at taken
    split at taken
    · exact ⟨_, _, rfl, (exact _ _ rfl).mp taken⟩
    · cases taken
  · rintro ⟨place, nodes, rfl, all⟩
    exact (exact place nodes rfl).mpr all

theorem optionalText?_eq_some_iff {name : String} {members : List (CodePoints × Node Position)}
    {found : Option CodePoints} :
    optionalText? name members = some found ↔ Says IsText members (.ofString name) found := by
  unfold optionalText? member?
  split
  · rename_i absent
    rw [says_of_lookup_none absent, Option.some_inj, eq_comm]
  · rename_i value last
    simp only [says_of_lookup_some last, Option.map_eq_some_iff, text?_eq_some_iff]

/-- The names in an object and the texts in it are whole if everything in it is. -/
theorem IsStatic.isWhole {object : Node Position} {members : List (CodePoints × Node Position)}
    (static : IsStatic object members) (whole : object.Throughout IsWhole)
    {member : CodePoints × Node Position} (own : member ∈ members) :
    member.1.IsWhole ∧ ∀ text, IsText member.2 text → text.IsWhole := by
  obtain ⟨place, nodes, rfl, all⟩ := static
  obtain ⟨node, inside, at_, key, shorthand, rfl, named⟩ := exists_of_forall₂ all own
  have parts := whole.child inside
  have keyBelow : key.Throughout IsWhole := parts.child (by simp [Node.children])
  have valueBelow : member.2.Throughout IsWhole := parts.child (by simp [Node.children])
  exact ⟨named.isWhole keyBelow.self, fun text literal => literal.isWhole valueBelow.self⟩

/-! ### Attributes -/

/-- An attribute with its name and its value. -/
def IsAttribute (node : Node Position) (one : String × Option (List (Node Position))) : Prop :=
  ∃ place, node = .attr place one.1 one.2

/-- The value of an attribute that is text alone, or nothing between its quotes. -/
inductive IsPlain : Option (List (Node Position)) → String → Prop
  | empty : IsPlain (some []) ""
  | text (place : Position) (data : String) : IsPlain (some [.text place data]) data

theorem attribute?_eq_some_iff {node : Node Position}
    {one : String × Option (List (Node Position))} :
    attribute? node = some one ↔ IsAttribute node one := by
  constructor
  · intro taken
    unfold attribute? at taken
    split at taken
    · cases taken
      exact ⟨_, rfl⟩
    · cases taken
  · rintro ⟨place, rfl⟩
    rfl

theorem attributeText?_eq_some_iff {value : Option (List (Node Position))} {text : String} :
    attributeText? value = some text ↔ IsPlain value text := by
  constructor
  · intro read
    unfold attributeText? at read
    split at read
    · cases read
      exact .empty
    · cases read
      exact .text _ _
    · cases read
  · intro plain
    cases plain with
    | empty => rfl
    | text => rfl

theorem isPlain_unique (value : Option (List (Node Position))) (one two : String)
    (first : IsPlain value one) (second : IsPlain value two) : one = two := by
  rw [← attributeText?_eq_some_iff] at first second
  rw [first] at second
  exact Option.some.inj second

theorem attributes_eq_some_iff {nodes : List (Node Position)}
    {attributes : List (String × Option (List (Node Position)))} :
    nodes.mapM attribute? = some attributes ↔ List.Forall₂ IsAttribute nodes attributes :=
  Outcome.mapM_eq_some_iff fun _ _ _ _ => attribute?_eq_some_iff

theorem optionalAttribute?_eq_some_iff {name : String}
    {attributes : List (String × Option (List (Node Position)))} {found : Option String} :
    optionalAttribute? name attributes = some found ↔ Says IsPlain attributes name found := by
  unfold optionalAttribute?
  split
  · rename_i absent
    rw [says_of_lookup_none absent, Option.some_inj, eq_comm]
  · rename_i value last
    simp only [says_of_lookup_some last, Option.map_eq_some_iff, attributeText?_eq_some_iff]

end Phrasebook.Extract

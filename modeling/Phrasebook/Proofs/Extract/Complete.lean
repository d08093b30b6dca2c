import Mathlib.Tactic.Push
import Phrasebook.Extract.File
import Phrasebook.Proofs.Extract.Forms
import Phrasebook.Proofs.Outcome
import Phrasebook.Proofs.Script.NumberLiteral

set_option autoImplicit false

/-!
The messages of a whole file are all or nothing. A file gives, for each node in the order in which
its tree is walked, exactly the records that the node states; or it fails over the first node that
lacks a message, and then nothing of it is handed on.
-/
namespace Phrasebook.Extract

open Source (Node Position)
open Text (CodePoints)

/-! ### What a node states -/

/-- The forms in which a message is stated, in the order in which they count where a name stands in
several lists. -/
inductive Form where
  | template
  | structured
  | plural
  | definition
  | component
  deriving DecidableEq, Repr

def Form.all : List Form := [template, structured, plural, definition, component]

/-- What is chosen for the forms of a call. -/
def Form.ofCall (structured plural definition : Option Record) : Form → Option Record
  | .structured => structured
  | .plural => plural
  | .definition => definition
  | .template => none
  | .component => none

/-- A node states a record in a form. -/
inductive States (file : String) (tags : Tags) : Node Position → Form → Record → Prop
  | template {place : Position} {tag body : Node Position} {one : Record}
    (is : IsTemplate file tags tag body one) : States file tags (.tagged place tag body) .template one
  | structured {place spot : Position} {name : String} {args : List (Node Position)} {one : Record}
    (listed : name ∈ tags.message) (is : IsStructured file place args one) :
    States file tags (.call place (.identifier spot name) args) .structured one
  | plural {place spot : Position} {name : String} {args : List (Node Position)} {one : Record}
    (listed : name ∈ tags.plural) (is : IsPlural file place args 1 one) :
    States file tags (.call place (.identifier spot name) args) .plural one
  | definition {place spot : Position} {name : String} {args : List (Node Position)} {one : Record}
    (listed : name ∈ tags.definition) (is : IsPlural file place args 0 one) :
    States file tags (.call place (.identifier spot name) args) .definition one
  | component {place : Position} {name : String} {attributes children : List (Node Position)}
    {one : Record} (is : IsComponent file tags place name attributes one) :
    States file tags (.component place name attributes children) .component one

/-- A node should state a message and lacks it. -/
inductive Lacks (tags : Tags) : Node Position → Prop
  | call {place spot : Position} {name : String} {args : List (Node Position)}
    (listed : name ∈ tags.message) (lacks : LacksMessage args) :
    Lacks tags (.call place (.identifier spot name) args)
  | component {place : Position} {name : String} {attributes children : List (Node Position)}
    (lacks : LacksAttribute tags name attributes) :
    Lacks tags (.component place name attributes children)

/-- The records of a node: of each form, in order, the only one that the node states in it, if there
is one. -/
def IsOwn (file : String) (tags : Tags) (node : Node Position) (own : List Record) : Prop :=
  ∃ chosen : Form → Option Record,
    (∀ form one, chosen form = some one ↔ States file tags node form one) ∧
    own = Form.all.filterMap chosen

section

variable {file : String} {tags : Tags}

theorem isOwn_nil {node : Node Position} (silent : ∀ form one, ¬ States file tags node form one) :
    IsOwn file tags node [] :=
  ⟨fun _ => none, fun form one => by simp [silent form one], rfl⟩

/-- A node that can state a record in one form only has what is given there. -/
theorem isOwn_of_gives {node : Node Position} {form : Form} {outcome : Stated}
    {IsTold : Record → Prop} (gives : Gives outcome IsTold)
    (only : ∀ other one, States file tags node other one ↔ other = form ∧ IsTold one) :
    ∃ own, outcome = .ok own ∧ IsOwn file tags node own := by
  obtain ⟨found, same, told⟩ := gives
  refine ⟨found.toList, same, fun other => if other = form then found else none, ?_, ?_⟩
  · intro other one
    rw [only]
    by_cases here : other = form
    · simp [here, told]
    · simp [here]
  · cases form <;> cases found <;> rfl

theorem tagged_isOwn {place : Position} {tag body : Node Position}
    (whole : (Node.tagged place tag body).Throughout IsWhole) :
    ∃ own, taggedTemplate file tags tag body = .ok own ∧
      IsOwn file tags (.tagged place tag body) own := by
  have inside : body.Throughout IsWhole := whole.child (by simp [Node.children])
  apply isOwn_of_gives (taggedTemplate_gives inside)
  intro form one
  constructor
  · intro states
    cases states with
    | template is => exact ⟨rfl, is⟩
  · rintro ⟨rfl, is⟩
    exact .template is

/-- A name that is not in a list states nothing. -/
theorem gives_listed {outcome : Stated} {IsTold : Record → Prop} {names : List String} {name : String}
    (gives : name ∈ names → Gives outcome IsTold) :
    Gives (if names.contains name then outcome else .ok []) (fun one => name ∈ names ∧ IsTold one) := by
  by_cases listed : name ∈ names
  · rw [if_pos (List.contains_iff_mem.mpr listed)]
    obtain ⟨found, same, told⟩ := gives listed
    exact ⟨found, same, fun one => by simp [told, listed]⟩
  · rw [if_neg (by simpa using listed)]
    exact gives_nothing fun one told => listed told.1

/-- A call by a name states what it states by each list of names, one after another. -/
theorem call_isOwn {place : Position} {callee : Node Position} {args : List (Node Position)}
    (readable : (Node.call place callee args).Throughout IsReadable)
    (whole : (Node.call place callee args).Throughout IsWhole)
    (complete : ¬ Lacks tags (.call place callee args)) :
    ∃ own, call file tags place callee args = .ok own ∧
      IsOwn file tags (.call place callee args) own := by
  have inReadable : ∀ arg ∈ args, arg.Throughout IsReadable :=
    fun arg given => readable.child (List.mem_cons_of_mem _ given)
  have inWhole : ∀ arg ∈ args, arg.Throughout IsWhole :=
    fun arg given => whole.child (List.mem_cons_of_mem _ given)
  cases named : identifier? callee with
  | none =>
    refine ⟨[], by rw [call, named], isOwn_nil ?_⟩
    intro form one states
    cases states with
    | structured | plural | definition => cases named
  | some name =>
    obtain ⟨spot, rfl⟩ := identifier?_eq_some_iff.mp named
    -- only the first part can fail, and it does not as the call does not lack its message
    have structured := gives_listed fun listed : name ∈ tags.message =>
      @structuredCall_gives file place args inReadable inWhole
        fun lacks => complete (.call listed lacks)
    have plural := gives_listed fun _ : name ∈ tags.plural =>
      @pluralCall_gives file place args inReadable inWhole 1
    have definition := gives_listed fun _ : name ∈ tags.definition =>
      @pluralCall_gives file place args inReadable inWhole 0
    obtain ⟨first, firstOutcome, firstTold⟩ := structured
    obtain ⟨second, secondOutcome, secondTold⟩ := plural
    obtain ⟨third, thirdOutcome, thirdTold⟩ := definition
    rw [call_eq, firstOutcome, secondOutcome, thirdOutcome]
    refine ⟨first.toList ++ second.toList ++ third.toList, rfl,
      Form.ofCall first second third, ?_,
      by cases first <;> cases second <;> cases third <;> rfl⟩
    intro form one
    constructor
    · intro is
      cases form with
      | structured =>
        obtain ⟨listed, told⟩ := (firstTold one).mp is
        exact .structured listed told
      | plural =>
        obtain ⟨listed, told⟩ := (secondTold one).mp is
        exact .plural listed told
      | definition =>
        obtain ⟨listed, told⟩ := (thirdTold one).mp is
        exact .definition listed told
      | template | component => cases is
    · intro states
      cases states with
      | structured listed is => exact (firstTold one).mpr ⟨listed, is⟩
      | plural listed is => exact (secondTold one).mpr ⟨listed, is⟩
      | definition listed is => exact (thirdTold one).mpr ⟨listed, is⟩

theorem component_isOwn {place : Position} {name : String}
    {attributes children : List (Node Position)}
    (complete : ¬ Lacks tags (.component place name attributes children)) :
    ∃ own, component file tags place name attributes = .ok own ∧
      IsOwn file tags (.component place name attributes children) own := by
  apply isOwn_of_gives (component_gives fun lacks => complete (.component lacks))
  intro form one
  constructor
  · intro states
    cases states with
    | component is => exact ⟨rfl, is⟩
  · rintro ⟨rfl, is⟩
    exact .component is

/-- A node that lacks no message gives its records, and no others. -/
theorem stated_isOwn {node : Node Position} (readable : node.Throughout IsReadable)
    (whole : node.Throughout IsWhole) (complete : ¬ Lacks tags node) :
    ∃ own, stated file tags node = .ok own ∧ IsOwn file tags node own := by
  cases node with
  | tagged place tag body => exact tagged_isOwn whole
  | call place callee args => exact call_isOwn readable whole complete
  | component place name attributes children => exact component_isOwn complete
  | _ =>
    refine ⟨[], rfl, isOwn_nil ?_⟩
    intro form one states
    cases states

/-- A node that lacks a message fails at its place. -/
theorem stated_lacks {node : Node Position} (readable : node.Throughout IsReadable)
    (lacks : Lacks tags node) : stated file tags node = .error (.noMessage node.place) := by
  cases lacks with
  | @call place spot name args listed lacks =>
    have inReadable : ∀ arg ∈ args, arg.Throughout IsReadable :=
      fun arg given => readable.child (List.mem_cons_of_mem _ given)
    rw [stated, call_eq, if_pos (List.contains_iff_mem.mpr listed),
      structuredCall_lacks inReadable lacks, Outcome.error_bind]
    rfl
  | component lacks => exact component_lacks lacks

/-! ### All nodes of a tree -/

/-- Nodes that lack no message give their records, one node after another. -/
theorem statedAll_isOwn {nodes : List (Node Position)}
    (owns : ∀ node ∈ nodes, ∃ own, stated file tags node = .ok own ∧ IsOwn file tags node own) :
    ∃ each, List.Forall₂ (IsOwn file tags) nodes each ∧
      statedAll file tags nodes = .ok each.flatten := by
  induction nodes with
  | nil => exact ⟨[], .nil, rfl⟩
  | cons node nodes ih =>
    obtain ⟨own, outcome, is⟩ := owns node List.mem_cons_self
    obtain ⟨each, all, rest⟩ := ih fun other later => owns other (List.mem_cons_of_mem _ later)
    refine ⟨own :: each, .cons is all, ?_⟩
    rw [statedAll, outcome, Outcome.ok_bind, rest]
    rfl

/-- The first node that fails is the one over which all fail. -/
theorem statedAll_error {front back : List (Node Position)} {node : Node Position} {fault : Fault}
    (before : ∀ earlier ∈ front, ∃ own, stated file tags earlier = .ok own)
    (fails : stated file tags node = .error fault) :
    statedAll file tags (front ++ node :: back) = .error fault := by
  induction front with
  | nil => rw [List.nil_append, statedAll, fails, Outcome.error_bind]
  | cons first front ih =>
    obtain ⟨own, outcome⟩ := before first List.mem_cons_self
    have later := ih fun other among => before other (List.mem_cons_of_mem _ among)
    rw [List.cons_append, statedAll, outcome, Outcome.ok_bind, later, Outcome.error_bind]

variable {root : Node Position}

theorem collect_isOwn (readable : root.Throughout IsReadable) (whole : root.Throughout IsWhole)
    (complete : ∀ node ∈ root.walk, ¬ Lacks tags node) :
    ∃ each, List.Forall₂ (IsOwn file tags) root.walk each ∧
      collect file tags root = .ok each.flatten := by
  rw [collect, Node.traverse_single]
  apply statedAll_isOwn
  intro node inside
  exact stated_isOwn (readable.branch inside) (whole.branch inside) (complete node inside)

theorem collect_lacks (readable : root.Throughout IsReadable) (whole : root.Throughout IsWhole)
    {front back : List (Node Position)} {node : Node Position}
    (order : root.walk = front ++ node :: back) (before : ∀ earlier ∈ front, ¬ Lacks tags earlier)
    (lacks : Lacks tags node) : collect file tags root = .error (.noMessage node.place) := by
  have inside : node ∈ root.walk := by
    rw [order]
    exact List.mem_append_right _ List.mem_cons_self
  have passed : ∀ earlier ∈ front, ∃ own, stated file tags earlier = .ok own := by
    intro earlier among
    have within : earlier ∈ root.walk := by
      rw [order]
      exact List.mem_append_left _ among
    have gives : ∃ own, stated file tags earlier = .ok own ∧ IsOwn file tags earlier own :=
      stated_isOwn (readable.branch within) (whole.branch within) (before earlier among)
    obtain ⟨own, outcome, -⟩ := gives
    exact ⟨own, outcome⟩
  rw [collect, Node.traverse_single, order]
  exact statedAll_error passed (stated_lacks (readable.branch inside) lacks)

end

/-- What holds of some in a list holds of a first one. -/
theorem exists_first {α : Type} {holds : α → Prop} {all : List α} (some : ∃ one ∈ all, holds one) :
    ∃ front one back, all = front ++ one :: back ∧ (∀ earlier ∈ front, ¬ holds earlier) ∧
      holds one := by
  induction all with
  | nil => simp at some
  | cons first all ih =>
    by_cases now : holds first
    · exact ⟨[], first, all, rfl, by simp, now⟩
    · obtain ⟨one, member, is⟩ := some
      have later : one ∈ all := by
        rcases List.mem_cons.mp member with rfl | later
        · exact absurd is now
        · exact later
      obtain ⟨front, found, back, rfl, before, holdsFound⟩ := ih ⟨one, later, is⟩
      refine ⟨first :: front, found, back, rfl, ?_, holdsFound⟩
      intro earlier among
      rcases List.mem_cons.mp among with rfl | among
      · exact now
      · exact before earlier among

/-- A file whose tree holds no lone surrogate, and no unreadable number as a key, fails exactly if
some node lacks a message. It then fails over the first such node and hands nothing on. Else it gives
the records of all nodes in the order of the walk, and hands each on once in that order. -/
theorem extractInto_complete {σ : Type} (emit : σ → Record → σ) (start : σ) (file : String)
    (kind : FileKind) (tags : Tags) (source : List Char) {root : Node Position}
    (read : tree kind source = .ok root) (whole : root.Throughout IsWhole)
    (readable : root.Throughout IsReadable) :
    ((∃ fault, (extractInto emit start file kind tags source).2 = .error fault) ↔
      ∃ node ∈ root.walk, Lacks tags node) ∧
    (∀ front node back, root.walk = front ++ node :: back →
      (∀ earlier ∈ front, ¬ Lacks tags earlier) → Lacks tags node →
      extractInto emit start file kind tags source = (start, .error (.noMessage node.place))) ∧
    ((∀ node ∈ root.walk, ¬ Lacks tags node) →
      ∃ each, List.Forall₂ (IsOwn file tags) root.walk each ∧
        extractInto emit start file kind tags source =
          (each.flatten.foldl emit start, .ok each.flatten)) := by
  have collected : extract file kind tags source = collect file tags root := by
    rw [extract, read, Outcome.ok_bind]
  have failing : ∀ front node back, root.walk = front ++ node :: back →
      (∀ earlier ∈ front, ¬ Lacks tags earlier) → Lacks tags node →
      extractInto emit start file kind tags source = (start, .error (.noMessage node.place)) := by
    intro front node back order before lacks
    rw [extractInto, collected, collect_lacks readable whole order before lacks]
  have giving : (∀ node ∈ root.walk, ¬ Lacks tags node) →
      ∃ each, List.Forall₂ (IsOwn file tags) root.walk each ∧
        extractInto emit start file kind tags source =
          (each.flatten.foldl emit start, .ok each.flatten) := by
    intro complete
    obtain ⟨each, all, outcome⟩ := collect_isOwn readable whole complete
    exact ⟨each, all, by rw [extractInto, collected, outcome]⟩
  refine ⟨⟨?_, ?_⟩, failing, giving⟩
  · rintro ⟨fault, failed⟩
    by_contra none
    push Not at none
    obtain ⟨each, -, outcome⟩ := giving none
    rw [outcome] at failed
    cases failed
  · intro some
    obtain ⟨front, node, back, order, before, lacks⟩ := exists_first some
    exact ⟨_, by rw [failing front node back order before lacks]⟩

/-- A component, a call whose name stands in two lists, and a template. -/
def greetings : List Char :=
  ("<T msg='Hello' ctx='door'/>\n" ++
    "\x7bboth(\x7bmessage: 'old', message: 'Hi', context: ''\x7d, \x7bone: '# egg', 2: 'two'\x7d)\x7d\n" ++
    "\x7bg\x60Bye $\x7bname\x7d\x60\x7d").toList

def greetingTags : Tags := ⟨["both", "g"], ["both"], [], ["T"]⟩

def greetingTexts : List String :=
  ["Hello", "Hi", "\x7bnum, plural, one \x7b# egg\x7d 2 \x7btwo\x7d\x7d", "Bye \x7b0\x7d"]

theorem extractInto_complete_greetings :
    ∃ root, tree .component greetings = .ok root ∧ root.Throughout IsWhole ∧
      root.Throughout IsReadable ∧ (∀ node ∈ root.walk, ¬ Lacks greetingTags node) ∧
      ∃ each, List.Forall₂ (IsOwn "door.svelte" greetingTags) root.walk each ∧
        extractInto (fun texts one => texts ++ [one.message]) [] "door.svelte" .component
          greetingTags greetings = (greetingTexts, .ok each.flatten) := by
  let emit (texts : List String) (one : Record) : List String := texts ++ [one.message]
  have evaluated : (tree .component greetings).toOption.any (fun root =>
      decide (root.Throughout IsWhole) && decide (root.Throughout IsReadable) &&
        (collect "door.svelte" greetingTags root).toOption.any (fun records =>
          decide (records.foldl emit [] = greetingTexts))) = true := by
    decide +kernel
  cases read : tree .component greetings with
  | error fault =>
    rw [read] at evaluated
    cases evaluated
  | ok root =>
    rw [read] at evaluated
    simp only [Except.toOption, Option.any_some, Bool.and_eq_true, decide_eq_true_eq] at evaluated
    obtain ⟨⟨whole, readable⟩, handed⟩ := evaluated
    obtain ⟨fails, -, gives⟩ := extractInto_complete emit [] "door.svelte" .component greetingTags
      greetings read whole readable
    cases collected : collect "door.svelte" greetingTags root with
    | error fault =>
      rw [collected] at handed
      cases handed
    | ok records =>
      rw [collected, Option.any_some, decide_eq_true_eq] at handed
      have given : extractInto emit [] "door.svelte" .component greetingTags greetings =
          (greetingTexts, .ok records) := by
        rw [extractInto, extract, read, Outcome.ok_bind, collected, ← handed]
      have complete : ∀ node ∈ root.walk, ¬ Lacks greetingTags node := by
        intro node inside lacks
        obtain ⟨fault, failed⟩ := fails.mpr ⟨node, inside, lacks⟩
        rw [given] at failed
        cases failed
      obtain ⟨each, owns, outcome⟩ := gives complete
      rw [given, Prod.mk.injEq, Except.ok.injEq] at outcome
      rw [outcome.2] at given
      exact ⟨root, rfl, whole, readable, complete, each, owns, given⟩

/-- A call whose object has one member, with the text x and a key. -/
def keyedCall (key : Script.Tree) : Node Position :=
  .call ⟨1, 0⟩ (.identifier ⟨1, 0⟩ "msg")
    [.object ⟨1, 4⟩ [.property ⟨1, 5⟩ (key.map fun _ => ⟨1, 5⟩)
      (.literal ⟨1, 4308⟩ (.text (.ofString "x")) "'x'") false false]]

theorem keyedCall_isWhole (place : Nat) (raw : String) :
    (keyedCall (.literal place .unreadable raw)).Throughout IsWhole := by
  intro node inside
  simp only [keyedCall, Node.map, Node.walk, Node.walkAll, List.mem_cons, List.mem_append,
    List.not_mem_nil, or_false] at inside
  have empty : CodePoints.IsWhole [] := fun code member => by cases member
  rcases inside with rfl | rfl | rfl | rfl | rfl | rfl
  · exact empty
  · exact empty
  · exact empty
  · exact empty
  · exact empty
  · exact CodePoints.isWhole_ofString "x"

theorem keyedCall_lacks (place : Nat) {raw : String} (other : raw ≠ "message") :
    Lacks .ofScripts (keyedCall (.literal place .unreadable raw)) := by
  let value : Node Position := .literal ⟨1, 4308⟩ (.text (.ofString "x")) "'x'"
  have static : HasMembers [.object ⟨1, 4⟩ [.property ⟨1, 5⟩ (.literal ⟨1, 5⟩ .unreadable raw) value
      false false]] 0 [(.ofString raw, value)] :=
    ⟨_, rfl, _, _, rfl, .cons ⟨_, _, _, rfl, .unreadable _ _⟩ .nil⟩
  refine .call (by decide) ⟨_, static, .inl (.nothing ?_)⟩
  intro member own same
  rw [List.mem_singleton.mp own] at same
  exact other (CodePoints.ofString_injective same)

theorem collect_keyedCall (place : Nat) (raw : String) :
    collect "a.js" .ofScripts (keyedCall (.literal place .unreadable raw)) = .ok [] := by
  rw [collect, Node.traverse_single]
  rfl

/-- A call that lacks a message does not fail if a number with too many digits is a key of it. -/
theorem collect_longKey :
    ∃ key rest, Script.Grammar.number
        ('1' :: List.replicate 4300 '1' ++ ':' :: " 'x'\x7d)".toList) = some (key, rest) ∧
      (keyedCall key).Throughout IsWhole ∧ (∃ node ∈ (keyedCall key).walk, Lacks .ofScripts node) ∧
      collect "a.js" .ofScripts (keyedCall key) = .ok [] := by
  have plain : ∀ c ∈ '1' :: List.replicate 4300 '1', c.isDigit = true := by
    intro c member
    rcases List.mem_cons.mp member with rfl | later
    · rfl
    · rw [List.eq_of_mem_replicate later]
      rfl
  have long : Number.digitLimit < ('1' :: List.replicate 4300 '1').length := by
    rw [List.length_cons, List.length_replicate]
    decide
  have other : String.ofList ('1' :: List.replicate 4300 '1') ≠ "message" := by
    intro same
    have chars := congrArg (fun text => text.toList.head?) same
    rw [String.toList_ofList] at chars
    cases chars
  obtain ⟨place, spelled⟩ := Script.number_long (by decide) plain long " 'x'\x7d)".toList
  have lacks := keyedCall_lacks place other
  exact ⟨_, _, spelled, keyedCall_isWhole place _, ⟨_, Node.mem_walk_self _, lacks⟩,
    collect_keyedCall place _⟩

end Phrasebook.Extract

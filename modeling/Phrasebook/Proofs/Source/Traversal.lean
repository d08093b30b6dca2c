import Phrasebook.Source.Node

set_option autoImplicit false

/-!
The order in which a tree is walked. The loop with a stack gives the nodes in the order of the
recursion, and what holds of all nodes of a tree holds of all nodes of each of its branches. A tree
whose nodes change their places keeps its shape, so it is walked in the same order.
-/
namespace Phrasebook.Source

theorem Pieces.map_map {P Q R : Type} (f : P → Q) (g : Q → R) (pieces : Pieces P) :
    (pieces.map f).map g = pieces.map (g ∘ f) := by
  rw [map, map, map, List.map_map]
  rfl

namespace Node

variable {P : Type}

/-- The loop walks the trees on its stack one after another, each as the recursion does. -/
theorem traverse_eq (stack : List (Node P)) : traverse stack = walkAll stack := by
  -- along the loop: a node and its children on top of the stack are the walk of that node
  induction stack using traverse.induct with
  | case1 => rw [traverse, walkAll]
  | case2 node rest ih =>
    rw [traverse, ih, walkAll_append, walkAll, walk_eq]
    rfl

theorem traverse_single (root : Node P) : traverse [root] = root.walk := by
  rw [traverse_eq, walkAll, walkAll, List.append_nil]

theorem mem_walkAll {node : Node P} {roots : List (Node P)} :
    node ∈ walkAll roots ↔ ∃ root ∈ roots, node ∈ root.walk := by
  induction roots with
  | nil => simp [walkAll]
  | cons root roots ih => simp [walkAll, ih]

theorem mem_walk_self (node : Node P) : node ∈ node.walk := by
  rw [walk_eq]
  exact List.mem_cons_self

theorem length_walk_child {node child : Node P} (below : child ∈ node.children) :
    child.walk.length < node.walk.length := by
  have part : ∀ nodes : List (Node P), child ∈ nodes →
      child.walk.length ≤ (walkAll nodes).length := by
    intro nodes member
    induction nodes with
    | nil => simp at member
    | cons first nodes ih =>
      rw [walkAll, List.length_append]
      rcases List.mem_cons.mp member with rfl | later
      · omega
      · have shorter := ih later
        omega
  have within := part node.children below
  rw [walk_eq node, List.length_cons]
  omega

/-- Something holds of a node and of all nodes in it. -/
def Throughout (holds : Node P → Prop) (root : Node P) : Prop := ∀ node ∈ root.walk, holds node

instance (holds : Node P → Prop) [DecidablePred holds] (root : Node P) :
    Decidable (root.Throughout holds) := inferInstanceAs (Decidable (∀ node ∈ root.walk, holds node))

variable {holds : Node P → Prop} {root node : Node P}

theorem Throughout.self (all : root.Throughout holds) : holds root := all root (mem_walk_self root)

theorem Throughout.child (all : root.Throughout holds) (below : node ∈ root.children) :
    node.Throughout holds := by
  intro inner member
  apply all inner
  rw [walk_eq]
  exact List.mem_cons_of_mem _ (mem_walkAll.mpr ⟨node, below, member⟩)

theorem Throughout.branch {root : Node P} (all : root.Throughout holds) (member : node ∈ root.walk) :
    node.Throughout holds := by
  -- down from the root to the node: the child that the node lies in is a smaller tree
  rw [walk_eq] at member
  rcases List.mem_cons.mp member with rfl | below
  · exact all
  · obtain ⟨child, own, deep⟩ := mem_walkAll.mp below
    exact (all.child own).branch deep
termination_by root.walk.length
decreasing_by exact length_walk_child own

/-! ### Other places -/

variable {Q R : Type}

theorem mapAll_eq (f : P → Q) (nodes : List (Node P)) : mapAll f nodes = nodes.map (map f) := by
  induction nodes with
  | nil => rfl
  | cons node nodes ih => rw [mapAll, List.map_cons, ih]

theorem mapValue_eq (f : P → Q) (value : Option (List (Node P))) :
    mapValue f value = value.map (List.map (map f)) := by
  cases value with
  | none => rfl
  | some nodes => rw [mapValue, mapAll_eq, Option.map_some]

theorem children_map (f : P → Q) (node : Node P) :
    (node.map f).children = node.children.map (map f) := by
  cases node with
  | attr _ _ value => cases value <;> simp [map, mapValue, children, mapAll_eq]
  | mustache _ _ expression => cases expression <;> simp [map, mapOption, children]
  | script _ _ content => cases content <;> simp [map, mapOption, children, mapAll_eq]
  | template _ pieces _ =>
    rw [map, children, children, List.map_append, mapAll_eq, pieces.all_map, List.map_map,
      List.map_map]
    rfl
  | _ => simp [map, children, mapAll_eq]

theorem traverse_map (f : P → Q) (stack : List (Node P)) :
    traverse (stack.map (map f)) = (traverse stack).map (map f) := by
  induction stack using traverse.induct with
  | case1 => rw [List.map_nil, traverse, traverse, List.map_nil]
  | case2 node rest ih =>
    rw [List.map_cons, traverse, traverse, children_map, ← List.map_append, ih, List.map_cons]

mutual

theorem map_map (f : P → Q) (g : Q → R) : ∀ node : Node P, (node.map f).map g = node.map (g ∘ f)
  | identifier _ _ => by simp only [map, Function.comp_apply]
  | literal _ _ _ => by simp only [map, Function.comp_apply]
  | quasi _ => rfl
  | template _ pieces expressions => by
    simp only [map, Function.comp_apply, pieces.map_map f g, mapAll_map f g expressions]
  | tagged _ tag body => by simp only [map, Function.comp_apply, map_map f g tag, map_map f g body]
  | call _ callee args => by
    simp only [map, Function.comp_apply, map_map f g callee, mapAll_map f g args]
  | object _ members => by simp only [map, Function.comp_apply, mapAll_map f g members]
  | property _ key value _ _ => by
    simp only [map, Function.comp_apply, map_map f g key, map_map f g value]
  | group _ _ children => by simp only [map, Function.comp_apply, mapAll_map f g children]
  | fragment _ children => by simp only [map, Function.comp_apply, mapAll_map f g children]
  | element _ _ attributes children => by
    simp only [map, Function.comp_apply, mapAll_map f g attributes, mapAll_map f g children]
  | component _ _ attributes children => by
    simp only [map, Function.comp_apply, mapAll_map f g attributes, mapAll_map f g children]
  | attr _ _ none => by simp only [map, mapValue, Function.comp_apply]
  | attr _ _ (some nodes) => by
    simp only [map, mapValue, Function.comp_apply, mapAll_map f g nodes]
  | text _ _ => by simp only [map, Function.comp_apply]
  | spread _ expression => by simp only [map, Function.comp_apply, map_map f g expression]
  | mustache _ _ none => by simp only [map, mapOption, Function.comp_apply]
  | mustache _ _ (some expression) => by
    simp only [map, mapOption, Function.comp_apply, map_map f g expression]
  | script _ attributes none => by
    simp only [map, mapOption, Function.comp_apply, mapAll_map f g attributes]
  | script _ attributes (some content) => by
    simp only [map, mapOption, Function.comp_apply, mapAll_map f g attributes, map_map f g content]

theorem mapAll_map (f : P → Q) (g : Q → R) :
    ∀ nodes : List (Node P), mapAll g (mapAll f nodes) = mapAll (g ∘ f) nodes
  | [] => rfl
  | node :: rest => by simp only [mapAll, map_map f g node, mapAll_map f g rest]

end

end Node

end Phrasebook.Source

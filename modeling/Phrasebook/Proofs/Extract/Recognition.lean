import Mathlib.Data.List.Flatten
import Phrasebook.Proofs.Extract.Complete

set_option autoImplicit false

/-!
Which names are recognized. What a node states in a form does not depend on the names; they only
decide in which forms it is looked at. So with fewer names some of the same records are found, in the
same order, and what fails then fails with more names too.
-/
namespace Phrasebook.Extract

open Source (Node Position)
open Outcome (ok_bind error_bind bind_ok bind_eq_ok)

/-! ### Outcomes one after another -/

/-- The records of outcomes, or the fault of the first outcome that has one. -/
def gather : List Stated → Stated
  | [] => .ok []
  | first :: rest => do
    let records ← first
    let others ← gather rest
    return records ++ others

theorem gather_cons (first : Stated) (rest : List Stated) :
    gather (first :: rest) =
      first >>= fun records => gather rest >>= fun others => .ok (records ++ others) := rfl

theorem gather_append (front back : List Stated) :
    gather (front ++ back) =
      gather front >>= fun records => gather back >>= fun others => .ok (records ++ others) := by
  induction front with
  | nil =>
    rw [List.nil_append, gather, ok_bind]
    exact (bind_ok _).symm
  | cons first front ih =>
    rw [List.cons_append, gather_cons, gather_cons, ih]
    cases first with
    | error fault => rfl
    | ok records =>
      cases gather front with
      | error fault => rfl
      | ok others =>
        cases gather back with
        | error fault => rfl
        | ok more => simp

/-- The records of an outcome; none where it is a fault. -/
def given (outcome : Stated) : List Record := outcome.toOption.getD []

/-- Outcomes give records exactly if each of them does. -/
theorem gather_eq_ok {outcomes : List Stated} {all : List Record} :
    gather outcomes = .ok all ↔
      (∀ outcome ∈ outcomes, outcome = .ok (given outcome)) ∧ all = outcomes.flatMap given := by
  induction outcomes generalizing all with
  | nil => simp [gather, eq_comm]
  | cons first rest ih =>
    rw [gather_cons, List.forall_mem_cons, List.flatMap_cons]
    cases first with
    | error fault => simp
    | ok records =>
      rw [ok_bind]
      constructor
      · intro done
        obtain ⟨others, later, joined⟩ := bind_eq_ok.mp done
        obtain ⟨each, rfl⟩ := ih.mp later
        cases joined
        exact ⟨⟨rfl, each⟩, rfl⟩
      · rintro ⟨⟨-, each⟩, rfl⟩
        rw [ih.mpr ⟨each, rfl⟩]
        rfl

/-! ### Sites -/

/-- A form in which a node may state a message. -/
abbrev Site := Node Position × Form

/-- The name that counts for a site; none if the node cannot state a message in the form. -/
def Site.name? : Site → Option String
  | (.tagged _ tag _, .template) => identifier? tag
  | (.call _ callee _, .structured) => identifier? callee
  | (.call _ callee _, .plural) => identifier? callee
  | (.call _ callee _, .definition) => identifier? callee
  | (.component _ name _ _, .component) => some name
  | _ => none

/-- The names that are recognized in a form. -/
def Tags.names (tags : Tags) : Form → List String
  | .template => tags.message
  | .structured => tags.message
  | .plural => tags.plural
  | .definition => tags.definition
  | .component => tags.component

def Tags.recognizes (tags : Tags) (site : Site) : Bool :=
  site.name?.any (tags.names site.2).contains

/-- What the node of a site states in its form where its name is recognized. -/
def Site.outcome (file : String) : Site → Stated
  | (.tagged _ tag body, .template) =>
    taggedTemplate file ⟨(identifier? tag).toList, [], [], []⟩ tag body
  | (.call place _ args, .structured) => structuredCall file place args
  | (.call place _ args, .plural) => pluralCall file place args 1
  | (.call place _ args, .definition) => pluralCall file place args 0
  | (.component place name attributes _, .component) =>
    component file ⟨[], [], [], [name]⟩ place name attributes
  | _ => .ok []

/-- The sites of a node. -/
def sitesOf (node : Node Position) : List Site := Form.all.map (node, ·)

theorem sitesOf_eq (node : Node Position) : sitesOf node =
    [(node, .template), (node, .structured), (node, .plural), (node, .definition),
      (node, .component)] := rfl

/-- The sites of a tree, node after node in the order of the walk. -/
def sites (root : Node Position) : List Site := root.walk.flatMap sitesOf

section

variable {file : String} {tags : Tags}

theorem gather_recognized_cons (site : Site) (rest : List Site) :
    gather (((site :: rest).filter tags.recognizes).map (·.outcome file)) =
      (if tags.recognizes site then site.outcome file else .ok []) >>= fun records =>
        gather ((rest.filter tags.recognizes).map (·.outcome file)) >>= fun others =>
          .ok (records ++ others) := by
  by_cases recognized : tags.recognizes site = true
  · rw [List.filter_cons_of_pos recognized, if_pos recognized, List.map_cons, gather_cons]
  · rw [List.filter_cons_of_neg recognized, if_neg recognized, ok_bind]
    exact (bind_ok _).symm

/-- A node of which no site is recognized gives nothing. -/
theorem gather_unrecognized {all : List Site}
    (unknown : ∀ site ∈ all, tags.recognizes site = false) :
    gather ((all.filter tags.recognizes).map (·.outcome file)) = .ok [] := by
  have none : all.filter tags.recognizes = [] := by simpa using unknown
  rw [none]
  rfl

theorem call_unnamed {place : Position} {callee : Node Position} {args : List (Node Position)}
    (unnamed : identifier? callee = none) : call file tags place callee args = .ok [] := by
  rw [call, unnamed]

theorem taggedTemplate_unnamed {tag body : Node Position} (unnamed : identifier? tag = none) :
    taggedTemplate file tags tag body = .ok [] := by
  simp only [taggedTemplate, unnamed]

theorem taggedTemplate_eq {tag body : Node Position} {name : String}
    (named : identifier? tag = some name) :
    taggedTemplate file tags tag body =
      if tags.message.contains name then taggedTemplate file ⟨[name], [], [], []⟩ tag body
      else .ok [] := by
  have own : [name].contains name = true := by simp
  cases body with
  | template place pieces expressions => simp only [taggedTemplate, named, own, if_true]
  | _ => simp only [taggedTemplate, named, ite_self]

theorem component_eq {place : Position} {name : String} {attributes : List (Node Position)} :
    component file tags place name attributes =
      if tags.component.contains name then
        component file ⟨[], [], [], [name]⟩ place name attributes
      else .ok [] := by
  have own : [name].contains name = true := by simp
  by_cases listed : tags.component.contains name = true
  · rw [if_pos listed, component, component, listed, own]
  · rw [if_neg listed, component, Bool.eq_false_iff.mpr listed]
    rfl

/-- A node states what its sites state that are recognized, form after form. -/
theorem stated_eq (node : Node Position) :
    stated file tags node =
      gather (((sitesOf node).filter tags.recognizes).map (·.outcome file)) := by
  cases node with
  | tagged place tag body =>
    cases named : identifier? tag with
    | none =>
      rw [gather_unrecognized, stated, taggedTemplate_unnamed named]
      simp [sitesOf_eq, Tags.recognizes, Site.name?, named]
    | some name =>
      rw [stated, taggedTemplate_eq named]
      simp only [sitesOf_eq, gather_recognized_cons]
      simp [Tags.recognizes, Site.name?, named, Tags.names, Site.outcome, gather, bind_ok]
  | call place callee args =>
    cases named : identifier? callee with
    | none =>
      rw [gather_unrecognized, stated, call_unnamed named]
      simp [sitesOf_eq, Tags.recognizes, Site.name?, named]
    | some name =>
      obtain ⟨spot, rfl⟩ := identifier?_eq_some_iff.mp named
      rw [stated, call_eq]
      simp only [sitesOf_eq, gather_recognized_cons]
      simp [Tags.recognizes, Site.name?, named, Tags.names, Site.outcome, gather]
  | component place name attributes children =>
    rw [stated, component_eq]
    simp only [sitesOf_eq, gather_recognized_cons]
    simp [Tags.recognizes, Site.name?, Tags.names, Site.outcome, gather, bind_ok]
  | _ =>
    rw [gather_unrecognized]
    · rfl
    · simp [sitesOf_eq, Tags.recognizes, Site.name?]

/-- The sites of a tree that are recognized. -/
def recognized (tags : Tags) (root : Node Position) : List Site :=
  (sites root).filter tags.recognizes

theorem statedAll_eq (nodes : List (Node Position)) :
    statedAll file tags nodes =
      gather (((nodes.flatMap sitesOf).filter tags.recognizes).map (·.outcome file)) := by
  induction nodes with
  | nil => rfl
  | cons node nodes ih =>
    rw [List.flatMap_cons, List.filter_append, List.map_append, gather_append, ← stated_eq, ← ih]
    rfl

/-- A tree states what its recognized sites state, one after another. -/
theorem collect_eq (root : Node Position) :
    collect file tags root = gather ((recognized tags root).map (·.outcome file)) := by
  rw [collect, Node.traverse_single, statedAll_eq, recognized, sites]

end

/-- The records of a site that does not fail. -/
def Site.records (file : String) (site : Site) : List Record :=
  given (site.outcome file)

theorem collect_eq_ok {file : String} {tags : Tags} {root : Node Position} {all : List Record} :
    collect file tags root = .ok all ↔
      (∀ site ∈ recognized tags root, site.outcome file = .ok (site.records file)) ∧
        all = (recognized tags root).flatMap (·.records file) := by
  rw [collect_eq, gather_eq_ok, List.forall_mem_map, List.flatMap_map]
  rfl

/-! ### More names -/

/-- Each list of names is contained in the list of the larger names. -/
structure Tags.Within (tags larger : Tags) : Prop where
  message : tags.message ⊆ larger.message
  plural : tags.plural ⊆ larger.plural
  definition : tags.definition ⊆ larger.definition
  component : tags.component ⊆ larger.component

section

variable {tags larger : Tags}

theorem Tags.Within.names (within : tags.Within larger) (form : Form) :
    tags.names form ⊆ larger.names form := by
  cases form with
  | template => exact within.message
  | structured => exact within.message
  | plural => exact within.plural
  | definition => exact within.definition
  | component => exact within.component

theorem Tags.recognizes_iff {site : Site} :
    tags.recognizes site = true ↔ ∃ name, site.name? = some name ∧ name ∈ tags.names site.2 := by
  cases named : site.name? with
  | none => simp [Tags.recognizes, named]
  | some name => simp [Tags.recognizes, named]

theorem Tags.Within.recognizes (within : tags.Within larger) {site : Site}
    (known : tags.recognizes site = true) : larger.recognizes site = true := by
  obtain ⟨name, named, listed⟩ := Tags.recognizes_iff.mp known
  exact Tags.recognizes_iff.mpr ⟨name, named, within.names site.2 listed⟩

theorem recognized_sublist (within : tags.Within larger) (root : Node Position) :
    (recognized tags root).Sublist (recognized larger root) :=
  List.monotone_filter_right (sites root) fun _ known => within.recognizes known

/-- With more names the sites of before are recognized in their order, and others between them; each
site has its records whatever the names are. If a tree gives its records with more names then
with fewer names it gives those of the sites that are left, and if it fails with fewer names then it
fails with more. -/
theorem collect_mono (within : tags.Within larger) (file : String) (root : Node Position) :
    (recognized tags root).Sublist (recognized larger root) ∧
    (∀ all, collect file larger root = .ok all →
      all = (recognized larger root).flatMap (·.records file) ∧
      ∃ part, collect file tags root = .ok part ∧
        part = (recognized tags root).flatMap (·.records file) ∧ part.Sublist all) ∧
    (∀ fault, collect file tags root = .error fault →
      ∃ other, collect file larger root = .error other) := by
  have fewer := recognized_sublist within root
  have passes : ∀ all, collect file larger root = .ok all →
      all = (recognized larger root).flatMap (·.records file) ∧
      collect file tags root = .ok ((recognized tags root).flatMap (·.records file)) := by
    intro all done
    obtain ⟨each, joined⟩ := collect_eq_ok.mp done
    have left : ∀ site ∈ recognized tags root, site.outcome file = .ok (site.records file) :=
      fun site own => each site (fewer.subset own)
    exact ⟨joined, collect_eq_ok.mpr ⟨left, rfl⟩⟩
  refine ⟨fewer, ?_, ?_⟩
  · intro all done
    obtain ⟨joined, left⟩ := passes all done
    refine ⟨joined, _, left, rfl, ?_⟩
    rw [joined]
    exact fewer.flatMap _
  · intro fault failed
    cases outcome : collect file larger root with
    | error other => exact ⟨other, rfl⟩
    | ok all =>
      rw [(passes all outcome).2] at failed
      cases failed

end

/-- A call with a message and with variations. -/
def twofold : Node Position :=
  .call ⟨1, 0⟩ (.identifier ⟨1, 0⟩ "both")
    [.object ⟨1, 5⟩ [.property ⟨1, 6⟩ (.identifier ⟨1, 6⟩ "message")
        (.literal ⟨1, 15⟩ (.text (.ofString "Hi")) "'Hi'") false false],
      .object ⟨1, 22⟩ [.property ⟨1, 23⟩ (.identifier ⟨1, 23⟩ "one")
        (.literal ⟨1, 28⟩ (.text (.ofString "egg")) "'egg'") false false]]

theorem collect_mono_twofold :
    Tags.Within ⟨[], ["both"], [], []⟩ ⟨["g", "both"], ["both"], [], []⟩ ∧
    ∃ all part, collect "a.js" ⟨["g", "both"], ["both"], [], []⟩ twofold = .ok all ∧
      all.map (·.message) = ["Hi", "\x7bnum, plural, one \x7begg\x7d\x7d"] ∧
      collect "a.js" ⟨[], ["both"], [], []⟩ twofold = .ok part ∧ part.Sublist all ∧
      part.map (·.message) = ["\x7bnum, plural, one \x7begg\x7d\x7d"] := by
  have within : Tags.Within ⟨[], ["both"], [], []⟩ ⟨["g", "both"], ["both"], [], []⟩ :=
    ⟨by decide, by decide, by decide, by decide⟩
  obtain ⟨-, passes, -⟩ := collect_mono within "a.js" twofold
  have more : (collect "a.js" ⟨["g", "both"], ["both"], [], []⟩ twofold).toOption.map
      (·.map (·.message)) = some ["Hi", "\x7bnum, plural, one \x7begg\x7d\x7d"] := by
    decide +kernel
  have fewer : (collect "a.js" ⟨[], ["both"], [], []⟩ twofold).toOption.map
      (·.map (·.message)) = some ["\x7bnum, plural, one \x7begg\x7d\x7d"] := by
    decide +kernel
  obtain ⟨all, done, texts⟩ := Option.map_eq_some_iff.mp more
  have done := Outcome.toOption_eq_some.mp done
  obtain ⟨-, part, left, -, sublist⟩ := passes all done
  rw [left, Except.toOption, Option.map_some, Option.some_inj] at fewer
  exact ⟨within, all, part, done, texts, left, sublist, fewer⟩

end Phrasebook.Extract

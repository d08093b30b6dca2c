import Mathlib.Data.List.Nodup
import Mathlib.Data.List.Perm.Basic
import Phrasebook.Proofs.Extract.Origin
import Phrasebook.Proofs.Project.Found
import Phrasebook.Proofs.Project.Pool

set_option autoImplicit false

/-!
What a scan depends on: the files that are found and what each of them gives by itself, and neither
the order in which files are read nor the order and the overlaps of the sources.
-/
namespace Phrasebook.Scan

open Extract (Fault Origin Record)
open FileTree (IsProper)

/-! ### Files in any order -/

theorem eq_of_file {results : List FileRecords} (distinct : (results.map (·.file)).Nodup)
    {one other : FileRecords} (member : one ∈ results) (otherMember : other ∈ results)
    (same : one.file = other.file) : one = other :=
  List.inj_on_of_nodup_map distinct member otherMember same

theorem mergeSort_perm_eq {results others : List FileRecords}
    (distinct : (results.map (·.file)).Nodup) (perm : others.Perm results) :
    (others.mergeSort fun a b => a.file ≤ b.file) = results.mergeSort fun a b => a.file ≤ b.file := by
  have ordered := List.pairwise_mergeSort' fun a b : FileRecords => a.file ≤ b.file
  apply List.Perm.eq_of_pairwise _ (ordered others) (ordered results)
  · exact (List.mergeSort_perm _ _).trans (perm.trans (List.mergeSort_perm _ _).symm)
  · intro one other member otherMember before after
    rw [List.mem_mergeSort] at member otherMember
    exact eq_of_file distinct (perm.mem_iff.mp member) otherMember
      (String.le_antisymm before after)

/-- It makes no difference in which order the results of files with different names are put
together. -/
theorem ofFiles_perm {results others : List FileRecords} (distinct : (results.map (·.file)).Nodup)
    (perm : others.Perm results) : ofFiles others = ofFiles results := by
  rw [ofFiles, ofFiles, mergeSort_perm_eq distinct perm]

/-- The fault of a file, if it has one. -/
def faultsOf (file : String) : Except Fault (List Record) → List (String × Fault)
  | .error fault => [(file, fault)]
  | .ok _ => []

theorem ofFiles_sorted {results : List FileRecords}
    (sorted : results.Pairwise fun a b => a.file < b.file) :
    ofFiles results = ⟨results.flatMap fun result => result.outcome.toOption.getD [],
      results.flatMap fun result => faultsOf result.file result.outcome⟩ := by
  have inOrder : results.mergeSort (fun a b => a.file ≤ b.file) = results := by
    apply List.mergeSort_of_pairwise
    apply sorted.imp
    intro a b before
    exact decide_eq_true (Std.le_of_lt before)
  rw [ofFiles, inOrder]
  congr 1
  rw [List.filterMap_eq_flatMap_toList]
  congr 1
  funext result
  cases result.outcome <;> rfl

/-! ### A whole scan -/

/-- What a file of a plan gives. -/
def resultOf (plan : ScanPlan) (file : SourceFile) : FileRecords :=
  ⟨file.name, file.records plan.tags⟩

variable {tree : FileTree}

theorem resultOf_sorted (proper : tree.IsProper) (plan : ScanPlan) :
    ((sourceFiles tree plan).map (resultOf plan)).Pairwise fun a b => a.file < b.file :=
  List.pairwise_map.mpr (sourceFiles_sorted proper plan)

theorem names_distinct (proper : tree.IsProper) (plan : ScanPlan) :
    ((sourceFiles tree plan).map SourceFile.name).Nodup := by
  rw [List.nodup_iff_pairwise_ne, List.pairwise_map]
  apply (sourceFiles_sorted proper plan).imp
  intro file other before same
  rw [same] at before
  exact String.lt_irrefl _ before

theorem run_eq (proper : tree.IsProper) (plan : ScanPlan) :
    run tree plan =
      ⟨(sourceFiles tree plan).flatMap fun file => (file.records plan.tags).toOption.getD [],
        (sourceFiles tree plan).flatMap fun file => faultsOf file.name (file.records plan.tags)⟩ := by
  have sorted := ofFiles_sorted (resultOf_sorted proper plan)
  rw [List.flatMap_map, List.flatMap_map] at sorted
  exact sorted

/-- However the results of the files come in, the scan is the same. -/
theorem ofFiles_gathered (proper : tree.IsProper) (plan : ScanPlan) {workers : Nat}
    {results : List FileRecords}
    (gathers : Pool.Gathers workers (resultOf plan) (sourceFiles tree plan) results) :
    ofFiles results = run tree plan := by
  have distinct := names_distinct proper plan
  have perm := gathers.perm
  refine ofFiles_perm ?_ perm
  rw [List.map_map]
  exact distinct

/-- Items that tell where they come from are, of all, those of the one place. -/
theorem filter_flatMap {α ι κ : Type} [DecidableEq κ] (key : α → κ) (keyOf : ι → κ)
    {items : α → List ι} (own : ∀ a, ∀ item ∈ items a, keyOf item = key a) {all : List α}
    (distinct : (all.map key).Nodup) {one : α} (member : one ∈ all) :
    (all.flatMap items).filter (keyOf · = key one) = items one := by
  induction all with
  | nil => cases member
  | cons first rest ih =>
    rw [List.map_cons, List.nodup_cons] at distinct
    rw [List.flatMap_cons, List.filter_append]
    rcases List.mem_cons.mp member with rfl | later
    · have kept : (items one).filter (keyOf · = key one) = items one := by
        rw [List.filter_eq_self]
        intro item listed
        exact decide_eq_true (own one item listed)
      have dropped : (rest.flatMap items).filter (keyOf · = key one) = [] := by
        rw [List.filter_eq_nil_iff]
        intro item listed
        obtain ⟨other, otherMember, held⟩ := List.mem_flatMap.mp listed
        rw [decide_eq_true_eq, own other item held]
        intro same
        exact distinct.1 (same ▸ List.mem_map_of_mem otherMember)
      rw [kept, dropped, List.append_nil]
    · have dropped : (items first).filter (keyOf · = key one) = [] := by
        rw [List.filter_eq_nil_iff]
        intro item listed
        rw [decide_eq_true_eq, own first item listed]
        intro same
        exact distinct.1 (same ▸ List.mem_map_of_mem later)
      rw [dropped, List.nil_append, ih distinct.2 later]

/-- The file in which a record is stated. -/
def fileOf (record : Record) : Option String := record.origin.map Origin.file

theorem fileOf_records (plan : ScanPlan) (file : SourceFile) :
    ∀ record ∈ (file.records plan.tags).toOption.getD [], fileOf record = some file.name := by
  intro record member
  cases outcome : file.records plan.tags with
  | error fault =>
    rw [outcome] at member
    cases member
  | ok records =>
    rw [outcome] at member
    obtain ⟨text, -, read⟩ := Outcome.bind_eq_ok.mp outcome
    obtain ⟨place, origin⟩ := Extract.isIn_extract _ _ _ records read record member
    rw [fileOf, origin]
    rfl

/-! ### Sources -/

/-- Every path of the second list is one of the first or goes down from one. -/
def Covers (sources others : List Path) : Prop :=
  ∀ path ∈ others, ∃ source ∈ sources, ∃ parts, ".." ∉ parts ∧ path = source.join ⟨.relative, parts⟩

theorem covers_of_subset {sources others : List Path} (subset : ∀ path ∈ others, path ∈ sources) :
    Covers sources others := by
  intro path member
  refine ⟨path, subset path member, [], by simp, ?_⟩
  rw [Path.join, if_pos rfl, List.append_nil]

theorem IsAt.outer {source path : Path} {parts : List String} {bytes : List UInt8}
    (down : ".." ∉ parts) (isAt : IsAt tree (source.join ⟨.relative, parts⟩) path bytes) :
    IsAt tree source path bytes := by
  obtain ⟨⟨more, deeper, same⟩, isFile⟩ := isAt
  refine ⟨⟨parts ++ more, ?_, ?_⟩, isFile⟩
  · rw [List.mem_append, not_or]
    exact ⟨down, deeper⟩
  · rw [same]
    simp [Path.join]

/-- A plan with other sources. -/
def withSources (plan : ScanPlan) (sources : List String) : ScanPlan :=
  { plan with sources := sources }

theorem IsFound.covered (plan : ScanPlan) (sources : List String)
    (covers : Covers (sourcesOf plan) (sourcesOf (withSources plan sources))) {file : SourceFile}
    (found : IsFound tree (withSources plan sources) file) : IsFound tree plan file := by
  obtain ⟨path, given, place, parts, isAt, told⟩ := found
  obtain ⟨source, listed, more, down, rfl⟩ := covers path given
  exact ⟨source, listed, place, parts, isAt.outer down, told⟩

/-- A source leads to a file that does not lie below the root. -/
def LeadsOut (tree : FileTree) (plan : ScanPlan) : Prop :=
  ∃ source ∈ sourcesOf plan, ∃ path bytes, IsAt tree source path bytes ∧
    plan.root.below? path = none

theorem LeadsOut.covered (plan : ScanPlan) (sources : List String)
    (covers : Covers (sourcesOf plan) (sourcesOf (withSources plan sources)))
    (out : LeadsOut tree (withSources plan sources)) : LeadsOut tree plan := by
  obtain ⟨path, given, place, bytes, isAt, outside⟩ := out
  obtain ⟨source, listed, more, down, rfl⟩ := covers path given
  exact ⟨source, listed, place, bytes, isAt.outer down, outside⟩

theorem perform_eq_error (proper : tree.IsProper) {plan : ScanPlan} :
    perform tree plan = .error .outside ↔ LeadsOut tree plan := by
  rw [perform]
  by_cases below : (candidates tree plan).all fun found => (plan.root.below? found.1).isSome
  · rw [if_pos below]
    refine ⟨nofun, ?_⟩
    rintro ⟨source, given, path, bytes, isAt, outside⟩
    have listed := (mem_candidates proper).mpr ⟨source, given, isAt⟩
    have inside := List.all_eq_true.mp below _ listed
    rw [outside] at inside
    cases inside
  · rw [if_neg below]
    refine ⟨fun _ => ?_, fun _ => rfl⟩
    rw [List.all_eq_true] at below
    push Not at below
    obtain ⟨⟨path, bytes⟩, listed, outside⟩ := below
    obtain ⟨source, given, isAt⟩ := (mem_candidates proper).mp listed
    exact ⟨source, given, path, bytes, isAt, by simpa using outside⟩

/-- What does not fail has scanned the files below the root. -/
theorem perform_eq_ok (proper : tree.IsProper) {plan : ScanPlan} {scan : Scan} :
    perform tree plan = .ok scan ↔ ¬LeadsOut tree plan ∧ scan = run tree plan := by
  rw [← perform_eq_error proper, perform]
  split
  · simp [eq_comm]
  · simp

/-- Sources that are written without a root lie below the one of the plan. -/
theorem not_leadsOut {plan : ScanPlan}
    (relative : ∀ source ∈ plan.sources, (Path.ofText source).anchor = .relative) :
    ¬LeadsOut tree plan := by
  rintro ⟨source, given, path, bytes, ⟨⟨more, -, rfl⟩, -⟩, outside⟩
  obtain ⟨text, listed, rfl⟩ := List.mem_map.mp given
  have written : (Path.ofText text).anchor = .relative := by
    split at listed
    · rw [List.mem_singleton.mp listed]
      decide
    · exact relative text listed
  have below : plan.root.below? ((plan.root.join (.ofText text)).join ⟨.relative, more⟩) =
      some ((Path.ofText text).parts ++ more) := by
    rw [below?_eq_some, Path.join, if_pos rfl, Path.join, if_pos written, Path.join, if_pos rfl,
      List.append_assoc]
  rw [below] at outside
  cases outside

/-- Files are the same if the same files are found. -/
theorem sourceFiles_congr (proper : tree.IsProper) {plan other : ScanPlan}
    (same : ∀ file, IsFound tree other file ↔ IsFound tree plan file) :
    sourceFiles tree other = sourceFiles tree plan := by
  have distinct (plan : ScanPlan) : (sourceFiles tree plan).Nodup :=
    (names_distinct proper plan).of_map _
  have perm : (sourceFiles tree other).Perm (sourceFiles tree plan) := by
    rw [List.perm_ext_iff_of_nodup (distinct other) (distinct plan)]
    intro file
    rw [mem_sourceFiles proper, mem_sourceFiles proper, same]
  apply perm.eq_of_pairwise _ (sourceFiles_sorted proper other) (sourceFiles_sorted proper plan)
  intro file another _ _ before after
  exact absurd (String.lt_trans before after) (String.lt_irrefl _)

theorem run_withSources (proper : tree.IsProper) {plan : ScanPlan} {sources : List String}
    (covers : Covers (sourcesOf plan) (sourcesOf (withSources plan sources)))
    (covered : Covers (sourcesOf (withSources plan sources)) (sourcesOf plan)) :
    run tree (withSources plan sources) = run tree plan := by
  have same : sourceFiles tree (withSources plan sources) = sourceFiles tree plan := by
    apply sourceFiles_congr proper
    intro file
    exact ⟨IsFound.covered plan sources covers,
      IsFound.covered (withSources plan sources) plan.sources covered⟩
  rw [run, run, same]
  rfl

theorem perform_withSources (proper : tree.IsProper) {plan : ScanPlan} {sources : List String}
    (covers : Covers (sourcesOf plan) (sourcesOf (withSources plan sources)))
    (covered : Covers (sourcesOf (withSources plan sources)) (sourcesOf plan)) :
    perform tree (withSources plan sources) = perform tree plan := by
  by_cases out : LeadsOut tree plan
  · rw [(perform_eq_error proper).mpr out]
    exact (perform_eq_error proper).mpr (out.covered (withSources plan sources) plan.sources covered)
  · have inside : ¬LeadsOut tree (withSources plan sources) :=
      fun outside => out (outside.covered plan sources covers)
    rw [(perform_eq_ok proper).mpr ⟨out, rfl⟩, (perform_eq_ok proper).mpr ⟨inside, rfl⟩,
      run_withSources proper covers covered]

theorem sourcesOf_subset {plan : ScanPlan} {sources : List String}
    (same : ∀ source, source ∈ sources ↔ source ∈ plan.sources) :
    ∀ path, path ∈ sourcesOf (withSources plan sources) ↔ path ∈ sourcesOf plan := by
  intro path
  have empty : sources = [] ↔ plan.sources = [] := by
    rw [List.eq_nil_iff_forall_not_mem, List.eq_nil_iff_forall_not_mem]
    exact forall_congr' fun source => not_congr (same source)
  rw [sourcesOf, sourcesOf, List.mem_map, List.mem_map]
  change (∃ source, source ∈ (if sources = [] then ["."] else sources) ∧
    plan.root.join (.ofText source) = path) ↔ _
  by_cases none : sources = []
  · rw [if_pos none, if_pos (empty.mp none)]
  · rw [if_neg none, if_neg (none ∘ empty.mpr)]
    exact exists_congr fun source => and_congr_left fun _ => same source

/-! ### What a scan depends on -/

/-- A file is named by the parts of its path from the root. -/
def IsNamed (file : SourceFile) (parts : List String) : Prop :=
  (∀ part ∈ parts, IsPart part) ∧ file.name = String.intercalate "/" parts

theorem IsFound.parts_eq (proper : tree.IsProper) {plan : ScanPlan} {file : SourceFile}
    (found : IsFound tree plan file) {parts : List String} (named : IsNamed file parts) :
    (∀ name ∈ plan.excluded, name ∉ parts) ∧
      ∃ bytes, tree.at? (plan.root.join ⟨.relative, parts⟩) = some (.file bytes) := by
  obtain ⟨source, given, path, others, isAt, below, apart, -, name⟩ := found
  obtain ⟨text, -, rfl⟩ := List.mem_map.mp given
  have same : others = parts :=
    name_injective (below?_isPart proper isAt below) named.1 (name.symm.trans named.2)
  subst same
  refine ⟨apart, file.bytes, ?_⟩
  rw [← below?_eq_some.mp below]
  exact isAt.isFile

theorem IsFound.down (proper : tree.IsProper) {plan : ScanPlan} {file : SourceFile}
    (found : IsFound tree plan file)
    (straight : ∀ source ∈ plan.sources, ".." ∉ (Path.ofText source).parts) {parts : List String}
    (named : IsNamed file parts) : ".." ∉ parts := by
  obtain ⟨source, given, path, others, isAt, below, -, -, name⟩ := found
  obtain ⟨text, listed, rfl⟩ := List.mem_map.mp given
  have same : others = parts :=
    name_injective (below?_isPart proper isAt below) named.1 (name.symm.trans named.2)
  subst same
  obtain ⟨more, down, rfl⟩ := isAt.below
  have written : ".." ∉ (Path.ofText text).parts := by
    split at listed
    · rw [List.mem_singleton.mp listed]
      decide
    · exact straight text listed
  intro up
  rcases List.mem_append.mp (below?_subset below ".." up) with here | later
  · exact written here
  · exact down later

/-- A scan is determined by the files that are found and by what each of them gives by itself. -/
structure IsDetermined (tree : FileTree) (plan : ScanPlan) : Prop where
  /-- However many workers read the files and however they get along. -/
  scheduling : ∀ workers results,
    Pool.Gathers workers (resultOf plan) (sourceFiles tree plan) results →
      ofFiles results = run tree plan
  /-- A pool comes to its end from wherever it is. -/
  ending : ∀ workers, 0 < workers →
    (∃ results, Pool.Gathers workers (resultOf plan) (sourceFiles tree plan) results) ∧
      ∀ state, Pool.Run workers (resultOf plan) (.start (sourceFiles tree plan)) state →
        ∃ results, Pool.Run workers (resultOf plan) state (.finished results)
  /-- A scan fails exactly if a source leads to a file outside of the root. -/
  outcome : (perform tree plan = .error .outside ↔ LeadsOut tree plan) ∧
    ∀ scan, perform tree plan = .ok scan ↔ ¬LeadsOut tree plan ∧ scan = run tree plan
  below : (∀ source ∈ plan.sources, (Path.ofText source).anchor = .relative) → ¬LeadsOut tree plan
  found : ∀ file, file ∈ sourceFiles tree plan ↔ IsFound tree plan file
  sorted : (sourceFiles tree plan).Pairwise fun file other => file.name < other.name
  /-- File after file, what each gives by itself. -/
  contents : run tree plan =
    ⟨(sourceFiles tree plan).flatMap fun file => (file.records plan.tags).toOption.getD [],
      (sourceFiles tree plan).flatMap fun file => faultsOf file.name (file.records plan.tags)⟩
  /-- Of each file there are its own records and its own fault, if it has one, and nothing else. -/
  own : ∀ file ∈ sourceFiles tree plan,
    (run tree plan).records.filter (fileOf · = some file.name) =
        (file.records plan.tags).toOption.getD [] ∧
      (run tree plan).failures.filter (·.1 = file.name) =
        faultsOf file.name (file.records plan.tags)
  excluded : ∀ parts, (∀ part ∈ parts, IsPart part) → (∃ name ∈ plan.excluded, name ∈ parts) →
    (∀ record ∈ (run tree plan).records, fileOf record ≠ some (String.intercalate "/" parts)) ∧
      ∀ failure ∈ (run tree plan).failures, failure.1 ≠ String.intercalate "/" parts
  /-- Sources may come in any order, and several times. -/
  permuted : ∀ sources, (∀ source, source ∈ sources ↔ source ∈ plan.sources) →
    perform tree (withSources plan sources) = perform tree plan ∧
      run tree (withSources plan sources) = run tree plan
  /-- Sources may lie in each other. -/
  nested : ∀ sources, Covers (sourcesOf plan) (sourcesOf (withSources plan sources)) →
    Covers (sourcesOf (withSources plan sources)) (sourcesOf plan) →
      perform tree (withSources plan sources) = perform tree plan ∧
        run tree (withSources plan sources) = run tree plan
  /-- No place of the tree is read under two names, unless two points make detours. -/
  once : (∀ source ∈ plan.sources, ".." ∉ (Path.ofText source).parts) →
    ∀ file ∈ sourceFiles tree plan, ∀ other ∈ sourceFiles tree plan, ∀ parts otherParts,
      IsNamed file parts → IsNamed other otherParts →
      tree.place? (plan.root.join ⟨.relative, parts⟩) =
        tree.place? (plan.root.join ⟨.relative, otherParts⟩) → file = other

theorem own_results (proper : tree.IsProper) (plan : ScanPlan) {file : SourceFile}
    (member : file ∈ sourceFiles tree plan) :
    (run tree plan).records.filter (fileOf · = some file.name) =
        (file.records plan.tags).toOption.getD [] ∧
      (run tree plan).failures.filter (·.1 = file.name) =
        faultsOf file.name (file.records plan.tags) := by
  have names := names_distinct proper plan
  have someNames : ((sourceFiles tree plan).map fun file => some file.name).Nodup := by
    have twice : (sourceFiles tree plan).map (fun file => some file.name) =
        ((sourceFiles tree plan).map SourceFile.name).map some := by
      rw [List.map_map]
      rfl
    rw [twice]
    exact names.map fun _ _ => Option.some.inj
  rw [run_eq proper plan]
  refine ⟨filter_flatMap (fun file => some file.name) fileOf (fileOf_records plan) someNames member,
    ?_⟩
  refine filter_flatMap SourceFile.name Prod.fst ?_ names member
  intro other failure listed
  cases outcome : other.records plan.tags with
  | ok records =>
    rw [outcome] at listed
    cases listed
  | error fault =>
    rw [outcome] at listed
    rw [List.mem_singleton.mp listed]

theorem excluded_absent (proper : tree.IsProper) (plan : ScanPlan) {parts : List String}
    (whole : ∀ part ∈ parts, IsPart part) (listed : ∃ name ∈ plan.excluded, name ∈ parts) :
    ∀ file ∈ sourceFiles tree plan, file.name ≠ String.intercalate "/" parts := by
  intro file member same
  obtain ⟨name, given, own⟩ := listed
  exact (((mem_sourceFiles proper).mp member).parts_eq proper ⟨whole, same⟩).1 name given own

theorem eq_of_place (proper : tree.IsProper) {plan : ScanPlan} {file other : SourceFile}
    (found : IsFound tree plan file) (otherFound : IsFound tree plan other)
    (straight : ∀ source ∈ plan.sources, ".." ∉ (Path.ofText source).parts)
    {parts otherParts : List String} (named : IsNamed file parts) (otherNamed : IsNamed other otherParts)
    (same : tree.place? (plan.root.join ⟨.relative, parts⟩) =
      tree.place? (plan.root.join ⟨.relative, otherParts⟩)) : file = other := by
  obtain ⟨-, bytes, there⟩ := found.parts_eq proper named
  rw [FileTree.place?_join tree _ (found.down proper straight named),
    FileTree.place?_join tree _ (otherFound.down proper straight otherNamed)] at same
  obtain ⟨place, root, -⟩ :=
    (FileTree.at?_join_eq_some (found.down proper straight named)).mp there
  rw [root, Option.map_some, Option.map_some, Option.some_inj, List.append_cancel_left_eq] at same
  apply found.eq_of_name proper otherFound
  rw [named.2, otherNamed.2, same]

/-- A scan depends neither on scheduling, nor on the order or the overlaps of its sources, nor, for
what a file gives, on other files. -/
theorem isDetermined (proper : tree.IsProper) (plan : ScanPlan) : IsDetermined tree plan where
  scheduling _ _ gathers := ofFiles_gathered proper plan gathers
  ending _ some := ⟨Pool.exists_gathers some _ _, fun state _ => Pool.exists_run some _ state⟩
  outcome := ⟨perform_eq_error proper, fun _ => perform_eq_ok proper⟩
  below := not_leadsOut
  found _ := mem_sourceFiles proper
  sorted := sourceFiles_sorted proper plan
  contents := run_eq proper plan
  own _ member := own_results proper plan member
  excluded parts whole listed := by
    have absent := excluded_absent proper plan whole listed
    rw [run_eq proper plan]
    constructor
    · intro record member same
      obtain ⟨file, listed, held⟩ := List.mem_flatMap.mp member
      have own := fileOf_records plan file record held
      exact absent file listed (Option.some.inj (own.symm.trans same))
    · intro failure member same
      obtain ⟨file, listed, held⟩ := List.mem_flatMap.mp member
      apply absent file listed
      cases outcome : file.records plan.tags with
      | ok records =>
        rw [outcome] at held
        cases held
      | error fault =>
        rw [outcome] at held
        rw [← same, List.mem_singleton.mp held]
  permuted sources same := by
    have alike := sourcesOf_subset same
    have covers : Covers (sourcesOf plan) (sourcesOf (withSources plan sources)) :=
      covers_of_subset fun path member => (alike path).mp member
    have covered : Covers (sourcesOf (withSources plan sources)) (sourcesOf plan) :=
      covers_of_subset fun path member => (alike path).mpr member
    exact ⟨perform_withSources proper covers covered, run_withSources proper covers covered⟩
  nested _ covers covered :=
    ⟨perform_withSources proper covers covered, run_withSources proper covers covered⟩
  once straight _ member _ otherMember _ _ named otherNamed same :=
    eq_of_place proper ((mem_sourceFiles proper).mp member)
      ((mem_sourceFiles proper).mp otherMember) straight named otherNamed same

/-- A project with a package in it that is not its own. -/
def shopTree : FileTree :=
  let script (text : String) : FileEntry := .file (Text.encode text.toList)
  ⟨[(["shop"], .directory), (["shop", "src"], .directory),
    (["shop", "src", "b.js"], script "g`Basket`"), (["shop", "src", "a.js"], script "g`Account`"),
    (["shop", "src", "c.js"], script "g`"), (["shop", "node_modules"], .directory),
    (["shop", "node_modules", "x.js"], script "g`X`")], ["shop"]⟩

def shopPlan : ScanPlan :=
  ⟨⟨.root, ["shop"]⟩, ["src", ".", "src"], standardExcluded, .standard⟩

def accountFile : SourceFile :=
  ⟨"src/a.js", .script .javascript, Text.encode "g`Account`".toList⟩

theorem isDetermined_shop :
    shopTree.IsProper ∧ IsDetermined shopTree shopPlan ∧
      perform shopTree (withSources shopPlan ["."]) = .ok (run shopTree shopPlan) ∧
      ((run shopTree shopPlan).records.filter (fileOf · = some "src/a.js")).map Record.message =
        ["Account"] := by
  have proper : shopTree.IsProper := by decide
  have determined : IsDetermined shopTree shopPlan := isDetermined proper shopPlan
  have source : (⟨.root, ["shop", "src"]⟩ : Path) ∈ sourcesOf shopPlan := by decide
  have below : Covers (sourcesOf shopPlan) (sourcesOf (withSources shopPlan ["."])) := by
    apply covers_of_subset
    decide
  have within : Covers (sourcesOf (withSources shopPlan ["."])) (sourcesOf shopPlan) := by
    have either : ∀ path ∈ sourcesOf shopPlan,
        path = ⟨.root, ["shop", "src"]⟩ ∨ path = ⟨.root, ["shop"]⟩ := by decide
    intro path member
    refine ⟨⟨.root, ["shop"]⟩, by decide, ?_⟩
    rcases either path member with rfl | rfl
    · exact ⟨["src"], by decide, rfl⟩
    · exact ⟨[], by decide, rfl⟩
  have found : IsFound shopTree shopPlan accountFile :=
    ⟨_, source, ⟨.root, ["shop", "src", "a.js"]⟩, ["src", "a.js"],
      ⟨⟨["a.js"], by decide, rfl⟩, by decide⟩, by decide, by decide, by decide, by decide⟩
  have inside : ¬LeadsOut shopTree shopPlan := determined.below (by decide)
  have same : perform shopTree (withSources shopPlan ["."]) = perform shopTree shopPlan :=
    (determined.nested ["."] below within).1
  refine ⟨proper, determined, same.trans ((determined.outcome.2 _).mpr ⟨inside, rfl⟩), ?_⟩
  have own : (run shopTree shopPlan).records.filter (fileOf · = some "src/a.js") = _ :=
    (determined.own accountFile ((determined.found _).mpr found)).1
  rw [own]
  decide +kernel

end Phrasebook.Scan

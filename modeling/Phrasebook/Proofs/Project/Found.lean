import Mathlib.Data.List.Sort
import Phrasebook.Project.Scan
import Phrasebook.Proofs.Files.Stored
import Phrasebook.Proofs.Text.Pieces

set_option autoImplicit false

/-!
The files that a scan finds. A file is found if a source leads to it; its name tells which file it is,
so the files found have an order of their own, whatever the order of the sources.
-/
namespace Phrasebook.Scan

open Extract (FileKind Record)
open FileTree (IsName IsProper)

/-! ### Files at or below a source -/

/-- A path leads to a file at or below another path. -/
structure IsAt (tree : FileTree) (source path : Path) (bytes : List UInt8) : Prop where
  below : ∃ parts, ".." ∉ parts ∧ path = source.join ⟨.relative, parts⟩
  isFile : tree.at? path = some (.file bytes)

variable {tree : FileTree}

theorem mem_filesBelow (proper : tree.IsProper) {place : Place} {parts : List String}
    {bytes : List UInt8} :
    (parts, bytes) ∈ tree.filesBelow place ↔ tree.entry? (place ++ parts) = some (.file bytes) := by
  rw [FileTree.filesBelow, List.mem_filterMap]
  constructor
  · rintro ⟨⟨found, entry⟩, listed, kept⟩
    cases entry with
    | directory => cases kept
    | file held =>
      dsimp only at kept
      split at kept
      · rename_i within
        obtain ⟨rest, rfl⟩ := List.isPrefixOf_iff_prefix.mp within
        rw [List.drop_left] at kept
        cases kept
        exact proper.entry_of_mem listed
      · cases kept
  · intro there
    have below : place ++ parts ≠ [] := by
      intro root
      rw [root] at there
      cases there
    refine ⟨(place ++ parts, .file bytes), IsProper.mem_of_entry below there, ?_⟩
    dsimp only
    rw [if_pos (List.isPrefixOf_iff_prefix.mpr (List.prefix_append _ _)), List.drop_left]

/-- A scan goes through a source that is a file, or through the files below it. -/
theorem mem_filesAt?_getD {source path : Path} {bytes : List UInt8} :
    (path, bytes) ∈ (filesAt? tree source).getD [] ↔
      (tree.at? source = some (.file bytes) ∧ path = source) ∨
        ∃ place, tree.place? source = some place ∧ tree.entry? place = some .directory ∧
          ∃ parts, (parts, bytes) ∈ tree.filesBelow place ∧
            path = source.join ⟨.relative, parts⟩ := by
  rw [filesAt?, FileTree.at?]
  cases tree.place? source with
  | none => simp
  | some place =>
    cases there : tree.entry? place with
    | none => simp [there]
    | some entry =>
      cases entry with
      | file held => simp [there, and_comm, eq_comm]
      | directory => simp [there, Path.join, eq_comm]

/-- A scan goes through exactly the files at or below its source. -/
theorem mem_filesAt? (proper : tree.IsProper) {source path : Path} {bytes : List UInt8} :
    (path, bytes) ∈ (filesAt? tree source).getD [] ↔ IsAt tree source path bytes := by
  rw [mem_filesAt?_getD]
  constructor
  · rintro (⟨isFile, rfl⟩ | ⟨place, named, -, parts, listed, rfl⟩)
    · exact ⟨⟨[], List.not_mem_nil, (FileTree.join_nil path).symm⟩, isFile⟩
    · have inside := (mem_filesBelow proper).mp listed
      have down : ".." ∉ parts := fun up => (proper.names_of_below inside ".." up).notUp rfl
      exact ⟨⟨parts, down, rfl⟩, (FileTree.at?_join_eq_some down).mpr ⟨place, named, inside⟩⟩
  · rintro ⟨⟨parts, down, rfl⟩, isFile⟩
    by_cases here : parts = []
    · subst here
      rw [FileTree.join_nil] at isFile ⊢
      exact .inl ⟨isFile, rfl⟩
    · obtain ⟨place, named, inside⟩ := (FileTree.at?_join_eq_some down).mp isFile
      have around := of_decide_eq_true (proper.isDirectory_of_below here inside)
      exact .inr ⟨place, named, around, parts, (mem_filesBelow proper).mpr inside, rfl⟩

/-! ### Names -/

/-- A part by which the names of files can be told apart. -/
def IsPart (part : String) : Prop := part ≠ "" ∧ '/' ∉ part.toList

theorem ofText_isPart (text : String) : ∀ part ∈ (Path.ofText text).parts, IsPart part := by
  intro part member
  obtain ⟨listed, kept⟩ := List.mem_filter.mp member
  obtain ⟨piece, cut, rfl⟩ := List.mem_map.mp listed
  rw [Bool.and_eq_true, decide_eq_true_eq] at kept
  refine ⟨kept.1, ?_⟩
  rw [String.toList_ofList]
  exact Text.pieces_noMark '/' _ piece cut

/-- What comes after a root on the way down from a path is written in the path or comes below it. -/
theorem below?_subset {root path : Path} {more parts : List String}
    (below : root.below? ((root.join path).join ⟨.relative, more⟩) = some parts) :
    ∀ part ∈ parts, part ∈ path.parts ++ more := by
  rw [Path.below?] at below
  split at below
  · cases below
    intro part member
    rw [Path.join, if_pos rfl] at member
    dsimp only at member
    rw [Path.join] at member
    split at member
    · rw [List.append_assoc, List.drop_left] at member
      exact member
    · exact List.mem_of_mem_drop member
  · cases below

/-- The parts by which the path to a file goes on from a root. -/
theorem below?_isPart (proper : tree.IsProper) {root : Path} {source : String} {path : Path}
    {bytes : List UInt8} (isAt : IsAt tree (root.join (.ofText source)) path bytes)
    {parts : List String} (below : root.below? path = some parts) : ∀ part ∈ parts, IsPart part := by
  obtain ⟨⟨more, down, rfl⟩, isFile⟩ := isAt
  have deeper : ∀ part ∈ more, IsPart part := by
    obtain ⟨place, -, inside⟩ := (FileTree.at?_join_eq_some down).mp isFile
    intro part member
    have name := proper.names_of_below inside part member
    exact ⟨name.notEmpty, name.noSlash⟩
  intro part member
  rcases List.mem_append.mp (below?_subset below part member) with written | later
  · exact ofText_isPart source part written
  · exact deeper part later

theorem pieces_name {parts : List String} (some : parts ≠ []) (whole : ∀ part ∈ parts, IsPart part) :
    Text.pieces '/' (String.intercalate "/" parts).toList = parts.map String.toList := by
  rw [String.toList_intercalate]
  apply Text.pieces_intercalate
  · simpa using some
  · intro piece member
    obtain ⟨part, own, rfl⟩ := List.mem_map.mp member
    exact (whole part own).2

/-- Only no parts at all have no name. -/
theorem name_ne_empty {parts : List String} (some : parts ≠ []) (whole : ∀ part ∈ parts, IsPart part) :
    String.intercalate "/" parts ≠ "" := by
  intro empty
  have cut := pieces_name some whole
  rw [empty] at cut
  cases parts with
  | nil => exact some rfl
  | cons part parts =>
    have first : part.toList = [] := (List.cons.inj cut).1.symm
    exact (whole part List.mem_cons_self).1 (String.toList_eq_nil_iff.mp first)

/-- Different parts have different names. -/
theorem name_injective {parts others : List String} (whole : ∀ part ∈ parts, IsPart part)
    (otherWhole : ∀ part ∈ others, IsPart part)
    (same : String.intercalate "/" parts = String.intercalate "/" others) : parts = others := by
  by_cases none : parts = []
  · subst none
    by_cases otherNone : others = []
    · exact otherNone.symm
    · exact absurd same.symm (name_ne_empty otherNone otherWhole)
  · by_cases otherNone : others = []
    · subst otherNone
      exact absurd same (name_ne_empty none whole)
    · have cut := pieces_name none whole
      rw [same, pieces_name otherNone otherWhole] at cut
      exact ((List.map_inj_right fun _ _ => String.toList_inj.mp).mp cut).symm

/-! ### Found files -/

/-- A source leads to a file that no part of its path excludes and that can state messages. -/
def IsFound (tree : FileTree) (plan : ScanPlan) (file : SourceFile) : Prop :=
  ∃ source ∈ sourcesOf plan, ∃ path parts, IsAt tree source path file.bytes ∧
    plan.root.below? path = some parts ∧ (∀ name ∈ plan.excluded, name ∉ parts) ∧
    Extract.kindOf? path.name = some file.kind ∧ file.name = String.intercalate "/" parts

theorem sourceFile?_eq_some {plan : ScanPlan} {path : Path} {bytes : List UInt8} {file : SourceFile} :
    sourceFile? plan path bytes = some file ↔
      ∃ parts, plan.root.below? path = some parts ∧ (∀ name ∈ plan.excluded, name ∉ parts) ∧
        Extract.kindOf? path.name = some file.kind ∧ file.name = String.intercalate "/" parts ∧
        file.bytes = bytes := by
  rw [sourceFile?]
  cases plan.root.below? path with
  | none => simp
  | some parts =>
    by_cases isExcluded : plan.excluded.any parts.contains = true
    · have member : ∃ name ∈ plan.excluded, name ∈ parts := by simpa using isExcluded
      obtain ⟨name, listed, own⟩ := member
      simp only [Option.bind_eq_bind, Option.bind_some, isExcluded, if_true]
      constructor
      · intro found
        cases found
      · rintro ⟨others, same, apart, -⟩
        cases same
        exact absurd own (apart name listed)
    · have apart : ∀ name ∈ plan.excluded, name ∉ parts := by simpa using isExcluded
      cases kind : Extract.kindOf? path.name with
      | none => simp
      | some kind =>
        simp only [Option.bind_eq_bind, Option.bind_some, isExcluded]
        constructor
        · intro found
          cases found
          exact ⟨parts, rfl, apart, rfl, rfl, rfl⟩
        · rintro ⟨others, same, -, sameKind, name, held⟩
          cases same
          cases sameKind
          obtain ⟨fileName, fileKind, fileBytes⟩ := file
          cases name
          cases held
          rfl

theorem mem_candidates (proper : tree.IsProper) {plan : ScanPlan} {path : Path}
    {bytes : List UInt8} : (path, bytes) ∈ candidates tree plan ↔
      ∃ source ∈ sourcesOf plan, IsAt tree source path bytes := by
  rw [candidates, List.mem_flatMap]
  exact exists_congr fun source => and_congr_right fun _ => mem_filesAt? proper

/-- A scan reads exactly the files that are found. -/
theorem mem_sourceFiles (proper : tree.IsProper) {plan : ScanPlan} {file : SourceFile} :
    file ∈ sourceFiles tree plan ↔ IsFound tree plan file := by
  rw [sourceFiles, List.mem_eraseDups, List.mem_mergeSort, List.mem_filterMap]
  constructor
  · rintro ⟨⟨path, bytes⟩, listed, made⟩
    obtain ⟨source, given, isAt⟩ := (mem_candidates proper).mp listed
    obtain ⟨parts, below, apart, kind, name, held⟩ := sourceFile?_eq_some.mp made
    rw [← held] at isAt
    exact ⟨source, given, path, parts, isAt, below, apart, kind, name⟩
  · rintro ⟨source, given, path, parts, isAt, below, apart, kind, name⟩
    refine ⟨(path, file.bytes), ?_, ?_⟩
    · exact (mem_candidates proper).mpr ⟨source, given, isAt⟩
    · exact sourceFile?_eq_some.mpr ⟨parts, below, apart, kind, name, rfl⟩

theorem below?_eq_some {root path : Path} {parts : List String} :
    root.below? path = some parts ↔ path = root.join ⟨.relative, parts⟩ := by
  rw [Path.below?, Path.join, if_pos rfl]
  obtain ⟨anchor, all⟩ := path
  constructor
  · intro below
    split at below
    · rename_i both
      obtain ⟨rest, rfl⟩ := List.isPrefixOf_iff_prefix.mp both.2
      cases below
      rw [List.drop_left]
      exact congrArg (Path.mk · _) both.1.symm
    · cases below
  · intro same
    cases same
    rw [if_pos ⟨rfl, List.isPrefixOf_iff_prefix.mpr (List.prefix_append _ _)⟩, List.drop_left]

/-- The name of a found file tells which file it is. -/
theorem IsFound.eq_of_name (proper : tree.IsProper) {plan : ScanPlan} {file other : SourceFile}
    (found : IsFound tree plan file) (otherFound : IsFound tree plan other)
    (same : file.name = other.name) : file = other := by
  obtain ⟨source, given, path, parts, isAt, below, -, kind, name⟩ := found
  obtain ⟨otherSource, otherGiven, otherPath, otherParts, otherAt, otherBelow, -, otherKind,
    otherName⟩ := otherFound
  obtain ⟨text, -, rfl⟩ := List.mem_map.mp given
  obtain ⟨otherText, -, rfl⟩ := List.mem_map.mp otherGiven
  have sameParts : parts = otherParts := by
    apply name_injective (below?_isPart proper isAt below)
      (below?_isPart proper otherAt otherBelow)
    rw [← name, ← otherName, same]
  have samePath : path = otherPath := by
    rw [below?_eq_some.mp below, below?_eq_some.mp otherBelow, sameParts]
  subst samePath
  have sameBytes := isAt.isFile.symm.trans otherAt.isFile
  have sameKind := kind.symm.trans otherKind
  obtain ⟨fileName, fileKind, fileBytes⟩ := file
  obtain ⟨otherFileName, otherFileKind, otherFileBytes⟩ := other
  cases sameBytes
  cases sameKind
  cases same
  rfl

/-! ### The order of the files -/

theorem pairwise_eraseDups {α : Type} [DecidableEq α] {before : α → α → Prop} {items : List α}
    (sorted : items.Pairwise fun a b => a ≠ b → before a b) : items.eraseDups.Pairwise before := by
  -- on the length: what is left after an item is the rest without its copies
  induction length : items.length using Nat.strongRecOn generalizing items with
  | _ length ih =>
    cases items with
    | nil => exact .nil
    | cons item items =>
      obtain ⟨first, rest⟩ := List.pairwise_cons.mp sorted
      rw [List.eraseDups_cons]
      refine List.pairwise_cons.mpr ⟨?_, ?_⟩
      · intro other member
        obtain ⟨listed, differs⟩ := List.mem_filter.mp (List.mem_eraseDups.mp member)
        apply first other listed
        rintro rfl
        simp at differs
      · apply ih _ _ (rest.filter _) rfl
        rw [← length, List.length_cons]
        exact Nat.lt_succ_of_le (List.length_filter_le _ _)

/-- The files of a scan come in the order of their names, each once. -/
theorem sourceFiles_sorted (proper : tree.IsProper) (plan : ScanPlan) :
    (sourceFiles tree plan).Pairwise fun file other => file.name < other.name := by
  apply pairwise_eraseDups
  apply (List.pairwise_mergeSort' (fun a b => SourceFile.name a ≤ b.name) _).imp_of_mem
  intro file other member otherMember inOrder differs
  have found := (mem_sourceFiles proper).mp (List.mem_eraseDups.mpr member)
  have otherFound := (mem_sourceFiles proper).mp (List.mem_eraseDups.mpr otherMember)
  apply Std.lt_of_le_of_ne inOrder
  intro same
  exact differs (found.eq_of_name proper otherFound same)

end Phrasebook.Scan

import Phrasebook.Proofs.Catalog.AnyLocale
import Phrasebook.Proofs.Catalog.Compiled
import Phrasebook.Proofs.Text.Class

set_option autoImplicit false

/-!
The files of several catalogs in one tree. The catalog of a locale and what is compiled of it lie
beside one another, so that compiling catalogs changes none of them.
-/
namespace Phrasebook

/-! ### Two files in a directory -/

namespace Catalog.Template

/-- The text of a path for a locale, without ending. -/
def filled (template : Template) (locale : String) : List Char :=
  Text.replaceAll localePlaceholder.toList locale.toList template.text.toList

/-- The directory in which the files of a locale lie. -/
def directory (template : Template) (locale : String) : Path :=
  ⟨.ofSlashes ((template.filled locale).takeWhile (· = '/')).length,
    ((Text.pieces '/' (template.filled locale)).dropLast.map String.ofList).filter fun part =>
      part ≠ "" && part ≠ "."⟩

/-- The name of the files of a locale, without ending. -/
def stem (template : Template) (locale : String) : String :=
  String.ofList ((Text.pieces '/' (template.filled locale)).getLastD [])

/-- An ending of a file. -/
structure IsEnding (ending : String) : Prop where
  noSlash : '/' ∉ ending.toList
  long : 1 < ending.toList.length
  last : ending.toList.getLast? ≠ some '.'

theorem isEnding_catalog : IsEnding catalogEnding := ⟨by decide, by decide, by decide⟩

theorem isEnding_compiled : IsEnding compiledEnding := ⟨by decide, by decide, by decide⟩

theorem IsEnding.behind_ne {ending : String} (ends : IsEnding ending) (text : List Char) :
    String.ofList (text ++ ending.toList) ≠ "" ∧ String.ofList (text ++ ending.toList) ≠ "." ∧
      String.ofList (text ++ ending.toList) ≠ ".." := by
  have notEmpty : ending.toList ≠ [] := List.ne_nil_of_length_pos (Nat.lt_of_succ_lt ends.long)
  have last : (text ++ ending.toList).getLast? ≠ some '.' := by
    rw [List.getLast?_append_of_ne_nil _ notEmpty]
    exact ends.last
  refine ⟨fun same => ?_, fun same => ?_, fun same => ?_⟩
  · have empty : text ++ ending.toList = [] := by simpa using congrArg String.toList same
    exact notEmpty (List.append_eq_nil_iff.mp empty).2
  · have point : text ++ ending.toList = ['.'] := by simpa using congrArg String.toList same
    exact last (by rw [point]; rfl)
  · have points : text ++ ending.toList = ['.', '.'] := by simpa using congrArg String.toList same
    exact last (by rw [points]; rfl)

theorem stem_ne (template : Template) (locale : String) {ending : String} (ends : IsEnding ending) :
    template.stem locale ++ ending ≠ ".." := by
  have behind := (ends.behind_ne ((Text.pieces '/' (template.filled locale)).getLastD [])).2.2
  rwa [String.ofList_append, String.ofList_toList] at behind

/-- The files of a locale lie in one directory, and their names differ in the ending. -/
theorem path_eq (template : Template) (locale : String) {ending : String} (ends : IsEnding ending) :
    template.path locale ending =
      (template.directory locale).child (template.stem locale ++ ending) := by
  have slashes : (template.filled locale ++ ending.toList).takeWhile (· = '/') =
      (template.filled locale).takeWhile (· = '/') := by
    apply Text.takeWhile_append_of_stops
    rintro c first
    exact decide_eq_false fun slash => ends.noSlash (slash ▸ List.mem_of_mem_head? first)
  have kept : ∀ last : List Char,
      [String.ofList (last ++ ending.toList)].filter (fun part => part ≠ "" && part ≠ ".") =
        [String.ofList (last ++ ending.toList)] := by
    intro last
    obtain ⟨notEmpty, notHere, -⟩ := ends.behind_ne last
    rw [List.filter_eq_self]
    intro part member
    rw [List.mem_singleton.mp member, Bool.and_eq_true, decide_eq_true_iff, decide_eq_true_iff]
    exact ⟨notEmpty, notHere⟩
  rw [path, Path.ofText, String.toList_append, String.toList_ofList, ← filled]
  rw [slashes, Text.pieces_behind ends.noSlash, List.map_append, List.filter_append, List.map_cons,
    List.map_nil, kept, String.ofList_append, String.ofList_toList]
  rfl

end Catalog.Template

/-! ### Files that do not stand in the way of one another -/

/-- A path leads to the directory that another one leads to, or to one around it. -/
def FileTree.isAbove (tree : FileTree) (path directory : Path) : Bool :=
  match tree.place? path, tree.place? directory with
  | some place, some below => place.isPrefixOf below
  | _, _ => false

theorem FileTree.isAbove_of_prefix {tree : FileTree} {path directory : Path} {place below : Place}
    (leads : tree.place? path = some place) (leadsBelow : tree.place? directory = some below)
    (above : place <+: below) : tree.isAbove path directory = true := by
  rw [isAbove, leads, leadsBelow]
  exact List.isPrefixOf_iff_prefix.mpr above

namespace CatalogFiles

open Catalog (Template)
open Catalog.Template (catalogEnding compiledEnding isEnding_catalog isEnding_compiled)
open FileTree (Within)

/-- The files of catalogs, with one of the locales. -/
abbrev Target := CatalogFiles × String

namespace Target

def path (target : Target) (ending : String) : Path := target.1.template.path target.2 ending

def directory (target : Target) : Path := target.1.template.directory target.2

def fileName (target : Target) (ending : String) : String :=
  target.1.template.stem target.2 ++ ending

end Target

/-- Catalogs can be compiled one after another: each is loaded, each compiled file can be written, and
no file is wanted where another one needs a directory. -/
structure AreReady [Catalog.Codecs] (tree : FileTree) (targets : List Target) : Prop where
  loads : ∀ target ∈ targets, ∃ header catalog,
    target.1.load tree target.2 = .ok (header, catalog)
  stores : ∀ target ∈ targets, ∃ written,
    tree.store (target.1.template.compiledPath target.2) [] = .ok written
  apart : ∀ target ∈ targets, ∀ other ∈ targets, ∀ ending ∈ [catalogEnding, compiledEnding],
    tree.isAbove (target.path ending) other.directory = false

/-- A tree in which compiled files have been written since. -/
structure Laid (tree now : FileTree) (targets : List Target) : Prop where
  within : Within tree now
  entries : ∀ place, now.entry? place = tree.entry? place ∨
    (now.entry? place = some .directory ∧ ∃ target ∈ targets, ∃ parent,
      tree.place? target.directory = some parent ∧ place <+: parent) ∨
    ((∃ bytes, now.entry? place = some (.file bytes)) ∧ ∃ target ∈ targets,
      tree.place? (target.path compiledEnding) = some place)

variable {tree now : FileTree} {targets : List Target} {target : Target} {parent : Place}

theorem Laid.refl (tree : FileTree) (targets : List Target) : Laid tree tree targets :=
  ⟨.refl tree, fun _ => .inl rfl⟩

theorem Laid.place? (laid : Laid tree now targets) {path : Path} {place : Place}
    (leads : tree.place? path = some place) : now.place? path = some place :=
  laid.within.place? leads

theorem Target.place?_path (leads : tree.place? target.directory = some parent) {ending : String}
    (ends : Template.IsEnding ending) :
    tree.place? (target.path ending) = some (parent ++ [target.fileName ending]) := by
  rw [path, Template.path_eq _ _ ends, FileTree.place?_child (Template.stem_ne _ _ ends)]
  exact congrArg (Option.map _) leads

theorem AreReady.leads [Catalog.Codecs] (ready : AreReady tree targets)
    (member : target ∈ targets) :
    ∃ parent, tree.place? target.directory = some parent ∧ tree.IsOpen parent ∧
      tree.entry? (parent ++ [target.fileName compiledEnding]) ≠ some .directory := by
  have stores := ready.stores target member
  rw [Template.compiledPath, Template.path_eq _ _ isEnding_compiled,
    FileTree.store_child_ok_iff (Template.stem_ne _ _ isEnding_compiled)] at stores
  exact stores

theorem AreReady.not_prefix [Catalog.Codecs] (ready : AreReady tree targets)
    (member : target ∈ targets) {other : Target} (otherMember : other ∈ targets) {ending : String}
    (known : ending ∈ [catalogEnding, compiledEnding]) {place below : Place}
    (leads : tree.place? (target.path ending) = some place)
    (leadsBelow : tree.place? other.directory = some below) : ¬ place <+: below := by
  intro above
  have blocked := FileTree.isAbove_of_prefix leads leadsBelow above
  rw [ready.apart target member other otherMember ending known] at blocked
  cases blocked

/-- A compiled file can be written at any time, and everything else stays. -/
theorem Laid.store [Catalog.Codecs] (ready : AreReady tree targets) (laid : Laid tree now targets)
    (member : target ∈ targets) (leads : tree.place? target.directory = some parent)
    (bytes : List UInt8) :
    ∃ after, now.store (target.1.template.compiledPath target.2) bytes = .ok after ∧
      Laid tree after targets ∧ ∀ place, after.entry? place =
        if place = parent ++ [target.fileName compiledEnding] then some (.file bytes)
        else if place <+: parent then some .directory else now.entry? place := by
  obtain ⟨_, leadsToo, opened, free⟩ := ready.leads member
  obtain rfl := Option.some.inj (leads.symm.trans leadsToo)
  have down := Template.stem_ne target.1.template target.2 isEnding_compiled
  have own := Target.place?_path leads isEnding_compiled
  have stillOpen : now.IsOpen parent := by
    intro above below bytes held
    rcases laid.entries above with same | ⟨isDirectory, -⟩ | ⟨-, other, otherMember, otherLeads⟩
    · exact opened above below bytes (same.symm.trans held)
    · rw [isDirectory] at held
      cases held
    · exact ready.not_prefix otherMember member (by simp) otherLeads leads below
  have stillFree : now.entry? (parent ++ [target.fileName compiledEnding]) ≠ some .directory := by
    intro isDirectory
    rcases laid.entries _ with same | ⟨-, other, otherMember, below, otherLeads, above⟩ |
      ⟨⟨bytes, isFile⟩, -⟩
    · exact free (same.symm.trans isDirectory)
    · exact ready.not_prefix member otherMember (by simp) own otherLeads above
    · rw [isDirectory] at isFile
      cases isFile
  obtain ⟨after, stored⟩ : ∃ after, now.store
      ((target.1.template.directory target.2).child (target.fileName compiledEnding)) bytes =
        .ok after :=
    (FileTree.store_child_ok_iff down).mpr ⟨parent, laid.place? leads, stillOpen, stillFree⟩
  have changed := FileTree.entry?_store_child down stored (laid.place? leads)
  refine ⟨after, ?_, ⟨?_, fun place => ?_⟩, changed⟩
  · rw [Template.compiledPath, Template.path_eq _ _ isEnding_compiled]
    exact stored
  · exact laid.within.trans (FileTree.within_store_child down stored)
  · rw [changed place]
    split
    · rename_i here
      exact .inr (.inr ⟨⟨bytes, rfl⟩, target, member, here ▸ own⟩)
    · split
      · exact .inr (.inl ⟨rfl, target, member, parent, leads, ‹_›⟩)
      · exact laid.entries place

/-! ### Loading and compiling in such a tree -/

theorem at?_of_place? {path : Path} {place : Place} (leads : tree.place? path = some place) :
    tree.at? path = tree.entry? place := by
  rw [FileTree.at?, leads]
  rfl

theorem place_of_at? {path : Path} {entry : FileEntry} (there : tree.at? path = some entry) :
    ∃ place, tree.place? path = some place ∧ tree.entry? place = some entry :=
  Option.bind_eq_some_iff.mp there

theorem readBytes_of_at? {path : Path} {bytes : List UInt8}
    (there : tree.at? path = some (.file bytes)) : tree.readBytes path = .ok bytes := by
  obtain ⟨place, leads, there⟩ := place_of_at? there
  rw [FileTree.readBytes, leads]
  dsimp only
  rw [there]

/-- Loading a catalog depends on what is in its file. -/
theorem load_eq [Catalog.Codecs] (files : CatalogFiles) (tree : FileTree) (locale : String) :
    files.load tree locale =
      match tree.at? (files.template.path locale catalogEnding) with
      | some (.file bytes) => (Catalog.read locale bytes).mapError .catalog
      | some .directory => .error (.file .isDirectory)
      | none => if Catalog.isLocaleName locale then .ok (.ofLocale locale, .empty)
        else .error (.catalog (.header .badValue)) := by
  rw [load, FileTree.has, Template.catalogPath]
  cases there : tree.at? (files.template.path locale catalogEnding) with
  | none => rfl
  | some entry =>
    cases entry with
    | file bytes =>
      rw [Option.isSome_some, if_pos rfl, readBytes_of_at? there]
      rfl
    | directory =>
      obtain ⟨place, leads, there⟩ := place_of_at? there
      rw [Option.isSome_some, if_pos rfl, FileTree.readBytes, leads]
      dsimp only
      rw [there]
      rfl

/-- Of one file the same is compiled, whichever locale it is loaded for. -/
theorem compile_of_at? [Catalog.Codecs] {other : Target} {header otherHeader : Catalog.Header}
    {catalog otherCatalog : Catalog}
    (same : tree.at? (target.path catalogEnding) = tree.at? (other.path catalogEnding))
    (loaded : target.1.load tree target.2 = .ok (header, catalog))
    (otherLoaded : other.1.load tree other.2 = .ok (otherHeader, otherCatalog)) :
    catalog.compile = otherCatalog.compile := by
  rw [load_eq, ← Target.path] at loaded otherLoaded
  rw [same] at loaded
  cases there : tree.at? (other.path catalogEnding) with
  | none =>
    rw [there] at loaded otherLoaded
    dsimp only at loaded otherLoaded
    split at loaded <;> cases loaded
    split at otherLoaded <;> cases otherLoaded
    rfl
  | some entry =>
    rw [there] at loaded otherLoaded
    cases entry with
    | file bytes =>
      exact Catalog.compile_read (Outcome.mapError_eq_ok.mp loaded)
        (Outcome.mapError_eq_ok.mp otherLoaded)
    | directory => cases loaded

theorem Laid.at?_catalog [Catalog.Codecs] (ready : AreReady tree targets)
    (laid : Laid tree now targets) (member : target ∈ targets) :
    now.at? (target.path catalogEnding) = tree.at? (target.path catalogEnding) := by
  obtain ⟨parent, leads, -⟩ := ready.leads member
  have own := Target.place?_path leads isEnding_catalog
  rw [at?_of_place? own, at?_of_place? (laid.place? own)]
  rcases laid.entries (parent ++ [target.fileName catalogEnding]) with same |
    ⟨-, other, otherMember, below, otherLeads, above⟩ | ⟨-, other, otherMember, compiled⟩
  · exact same
  · exact absurd above (ready.not_prefix member otherMember (by simp) own otherLeads)
  · -- The endings tell a catalog from a compiled file.
    obtain ⟨otherParent, otherLeads, -⟩ := ready.leads otherMember
    rw [Target.place?_path otherLeads isEnding_compiled, Option.some_inj] at compiled
    have names : other.fileName compiledEnding = target.fileName catalogEnding :=
      List.singleton_inj.mp (List.append_inj' compiled (by simp)).2
    have last := congrArg (fun name => name.toList.getLast?) names
    simp [Target.fileName, compiledEnding, catalogEnding] at last

theorem Laid.load [Catalog.Codecs] (ready : AreReady tree targets) (laid : Laid tree now targets)
    (member : target ∈ targets) : target.1.load now target.2 = target.1.load tree target.2 := by
  rw [load_eq, load_eq, ← Target.path, laid.at?_catalog ready member]

/-- The bytes of a compiled file. -/
def written (catalog : Catalog) : List UInt8 :=
  Text.encode (((Catalog.compiledText catalog.compile).toChars?).getD [])

/-- The compiled file holds what is compiled of the catalog as it was at first. -/
def IsPublished [Catalog.Codecs] (tree now : FileTree) (target : Target) : Prop :=
  ∃ header catalog place, target.1.load tree target.2 = .ok (header, catalog) ∧
    tree.place? (target.path compiledEnding) = some place ∧
    now.entry? place = some (.file (written catalog))

theorem IsPublished.loadCompiled [Catalog.Codecs] (laid : Laid tree now targets)
    (published : IsPublished tree now target) :
    ∃ header catalog, target.1.load tree target.2 = .ok (header, catalog) ∧
      target.1.loadCompiled now target.2 =
        .ok (CompiledCatalog.ofTexts (Catalog.inOrder catalog.compile)) := by
  obtain ⟨header, catalog, place, loaded, leads, held⟩ := published
  have there : now.at? (target.path compiledEnding) = some (.file (written catalog)) := by
    rw [at?_of_place? (laid.place? leads), held]
  refine ⟨header, catalog, loaded, ?_⟩
  have present : now.has (target.path compiledEnding) = true := congrArg Option.isSome there
  rw [CatalogFiles.loadCompiled, Template.compiledPath, ← Target.path, if_pos present]
  exact CompiledCatalog.read_written (Dictionary.nodup_ofPairs _) (readBytes_of_at? there)

/-- What was published stays so when a further catalog is compiled; where both have one compiled file,
both have one catalog file, too. -/
theorem IsPublished.stays [Catalog.Codecs] (ready : AreReady tree targets) {after : FileTree}
    {other : Target} (member : target ∈ targets) (otherMember : other ∈ targets)
    (leads : tree.place? target.directory = some parent) {header : Catalog.Header}
    {catalog : Catalog} (loaded : target.1.load tree target.2 = .ok (header, catalog))
    (changed : ∀ place, after.entry? place =
      if place = parent ++ [target.fileName compiledEnding] then some (.file (written catalog))
      else if place <+: parent then some .directory else now.entry? place)
    (published : IsPublished tree now other) : IsPublished tree after other := by
  obtain ⟨otherHeader, otherCatalog, place, otherLoaded, otherPlace, held⟩ := published
  refine ⟨otherHeader, otherCatalog, place, otherLoaded, otherPlace, ?_⟩
  have beside : ¬ place <+: parent := ready.not_prefix otherMember member (by simp) otherPlace leads
  rw [changed]
  split
  · rename_i here
    obtain ⟨otherParent, otherLeads, -⟩ := ready.leads otherMember
    have places := Target.place?_path otherLeads isEnding_compiled
    rw [otherPlace, here, Option.some_inj] at places
    obtain ⟨rfl, names⟩ := List.append_inj' places (by simp)
    have stems : target.1.template.stem target.2 = other.1.template.stem other.2 :=
      String.toList_inj.mp (by
        simpa [Target.fileName] using congrArg String.toList (List.singleton_inj.mp names))
    have same : tree.at? (target.path catalogEnding) = tree.at? (other.path catalogEnding) := by
      rw [at?_of_place? (Target.place?_path leads isEnding_catalog),
        at?_of_place? (Target.place?_path otherLeads isEnding_catalog), Target.fileName,
        Target.fileName, stems]
    rw [written, written, compile_of_at? same loaded otherLoaded]
  · exact held

/-- Compiling a catalog at any time gives what it gives at first. -/
theorem Laid.compile [Catalog.Codecs] (ready : AreReady tree targets) (laid : Laid tree now targets)
    (member : target ∈ targets) :
    ∃ header catalog after, target.1.load tree target.2 = .ok (header, catalog) ∧
      target.1.compile now target.2 = .ok (catalog.compile, after) ∧ Laid tree after targets ∧
      IsPublished tree after target ∧
      ∀ other ∈ targets, IsPublished tree now other → IsPublished tree after other := by
  obtain ⟨header, catalog, loaded⟩ := ready.loads target member
  obtain ⟨parent, leads, -⟩ := ready.leads member
  obtain ⟨after, stored, further, changed⟩ := laid.store ready member leads (written catalog)
  refine ⟨header, catalog, after, loaded, ?_, further, ?_, ?_⟩
  · rw [written] at stored
    rw [CatalogFiles.compile, laid.load ready member, loaded, Outcome.ok_bind]
    dsimp only
    rw [stored]
    rfl
  · refine ⟨header, catalog, _, loaded, Target.place?_path leads isEnding_compiled, ?_⟩
    rw [changed, if_pos rfl]
  · intro other otherMember published
    exact published.stays ready member otherMember leads loaded changed

end CatalogFiles

end Phrasebook

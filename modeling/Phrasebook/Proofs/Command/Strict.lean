import Phrasebook.Command.Tasks
import Phrasebook.Proofs.Catalog.Beside
import Phrasebook.Proofs.Settings.Accepted

set_option autoImplicit false

/-!
The strict way to compile. It fails if an entry is not translated; forms of plurals count as a
translation there, although they are never compiled.
-/
namespace Phrasebook

open Catalog (usable? Entry)

/-! ### What is compiled and what counts as translated -/

namespace Catalog

/-- The id of an entry in a compiled file. -/
def Entry.identifier (entry : Entry) : String := Message.identifier entry.id.first entry.context

/-- Every active entry has a translation of its own under its id. -/
def IsCovered (catalog : Catalog) (texts : Dictionary String String) : Prop :=
  ∀ entry ∈ catalog.all, ∃ text ∈ entry.translation.texts,
    texts.get? entry.identifier = some text

/-- No two active entries have one id. -/
def HasOwnIds (catalog : Catalog) : Prop := (catalog.all.map Entry.identifier).Nodup

theorem usable?_eq_some {entry : Entry} {pair : String × String}
    (usable : usable? entry = some pair) :
    pair.1 = entry.identifier ∧ entry.translation = .single pair.2 := by
  unfold usable? at usable
  split at usable
  · rename_i message text spelled translated
    split at usable
    · cases usable
    · cases usable
      refine ⟨?_, translated⟩
      rw [Entry.identifier, spelled]
      rfl
  · cases usable

/-- An entry is compiled if it is of a single text and counts as translated. -/
theorem isSome_usable? {entry : Entry} (shown : entry.isHeader = false)
    (uniform : entry.IsUniform) :
    (usable? entry).isSome = (entry.isPlain && (!entry.translation.isEmpty && !entry.isFuzzy)) := by
  obtain ⟨id, translation, context, locations, flags, comments, notes⟩ := entry
  cases id with
  | forms ids => rfl
  | single message =>
    have named : message.isEmpty = false := by
      by_contra empty
      have blank : message = "" := by simpa using empty
      rw [blank] at shown
      cases shown
    cases translation with
    | forms texts => cases uniform.1
    | single text =>
      simp only [usable?, named, Bool.false_or, Entry.isPlain, Wording.isForms, Wording.isEmpty,
        Bool.not_false, Bool.true_and]
      generalize Entry.isFuzzy ⟨.single message, .single text, context, locations, flags, comments,
        notes⟩ = isFuzzy
      cases isFuzzy <;> cases text.isEmpty <;> rfl

theorem keys_usable_sublist (entries : List Entry) :
    ((entries.filterMap usable?).map (·.1)).Sublist (entries.map Entry.identifier) := by
  induction entries with
  | nil => exact .slnil
  | cons entry entries ih =>
    rw [List.map_cons]
    cases usable : usable? entry with
    | none =>
      rw [List.filterMap_cons_none usable]
      exact ih.cons _
    | some pair =>
      rw [List.filterMap_cons_some usable, List.map_cons, (usable?_eq_some usable).1]
      exact ih.cons_cons _

/-- Where ids are apart, each translation that is compiled is one entry's. -/
theorem compile_of_ownIds {catalog : Catalog} (own : catalog.HasOwnIds) :
    catalog.compile = catalog.all.filterMap usable? :=
  Dictionary.ofPairs_of_nodup (own.sublist (keys_usable_sublist catalog.all))

theorem get?_compile {catalog : Catalog} (own : catalog.HasOwnIds) {entry : Entry}
    (member : entry ∈ catalog.all) :
    catalog.compile.get? entry.identifier = (usable? entry).map (·.2) := by
  have once : (Dictionary.keys (catalog.all.filterMap usable?)).Nodup :=
    own.sublist (keys_usable_sublist catalog.all)
  rw [compile_of_ownIds own]
  cases usable : usable? entry with
  | some pair =>
    rw [← (usable?_eq_some usable).1]
    exact Dictionary.get?_of_mem once (List.mem_filterMap.mpr ⟨entry, member, usable⟩)
  | none =>
    refine Dictionary.get?_eq_none.mpr fun present => ?_
    obtain ⟨pair, listed, id⟩ := List.mem_map.mp present
    obtain ⟨other, otherMember, otherUsable⟩ := List.mem_filterMap.mp listed
    have same : other = entry := List.inj_on_of_nodup_map own otherMember member
      ((usable?_eq_some otherUsable).1.symm.trans id)
    rw [same, usable] at otherUsable
    cases otherUsable

/-- What is compiled has a translation for an entry exactly if that one can be used. -/
theorem isCovered_compile {catalog : Catalog} (own : catalog.HasOwnIds) :
    catalog.IsCovered catalog.compile ↔ ∀ entry ∈ catalog.all, (usable? entry).isSome = true := by
  refine forall₂_congr fun entry member => ?_
  rw [get?_compile own member]
  cases usable : usable? entry with
  | none => simp
  | some pair => simp [(usable?_eq_some usable).2, Wording.texts]

theorem missing_eq_zero (catalog : Catalog) :
    catalog.statistics.missing = 0 ↔
      ∀ entry ∈ catalog.all, (!entry.translation.isEmpty && !entry.isFuzzy) = true := by
  have most : catalog.statistics.translated ≤ catalog.statistics.total := List.countP_le_length
  rw [← List.countP_eq_length, Statistics.missing, Nat.sub_eq_zero_iff_le]
  exact ⟨fun all => Nat.le_antisymm most all, fun all => all.ge⟩

/-- A catalog is covered by what is compiled of it if nothing is missing and no entry has forms. -/
theorem isCovered_compile_iff {catalog : Catalog} (keyed : catalog.WellKeyed)
    (uniform : ∀ entry ∈ catalog.all, entry.IsUniform) (own : catalog.HasOwnIds) :
    catalog.IsCovered catalog.compile ↔
      catalog.statistics.missing = 0 ∧ ∀ entry ∈ catalog.all, entry.isPlain = true := by
  rw [isCovered_compile own, missing_eq_zero, ← forall₂_and]
  refine forall₂_congr fun entry member => ?_
  obtain ⟨key, present⟩ := mem_all.mp member
  rw [isSome_usable? (keyed.shown _ present) (uniform entry member), Bool.and_eq_true, and_comm]

/-- What counts as translated is what is compiled, and the entries with forms that are not in
doubt. -/
theorem translated_eq {catalog : Catalog} (keyed : catalog.WellKeyed)
    (uniform : ∀ entry ∈ catalog.all, entry.IsUniform) (own : catalog.HasOwnIds) :
    catalog.statistics.translated = catalog.compile.length +
      catalog.all.countP fun entry => !entry.isPlain && !entry.isFuzzy := by
  rw [compile_of_ownIds own, List.length_filterMap_eq_countP, statistics]
  dsimp only
  rw [List.countP_eq_countP_filter_add catalog.all _ Entry.isPlain, List.countP_filter,
    List.countP_filter]
  congr 1
  · refine List.countP_congr fun entry member => ?_
    obtain ⟨key, present⟩ := mem_all.mp member
    rw [isSome_usable? (keyed.shown _ present) (uniform entry member), Bool.and_comm]
  · refine List.countP_congr fun entry member => ?_
    cases plain : entry.isPlain with
    | true => simp
    | false =>
      have some := (uniform entry member).2 (by simpa [Entry.isPlain] using plain)
      simp [some]

end Catalog

namespace Command

open CatalogFiles (AreReady IsPublished Laid Target)

/-! ### Jobs that come to an end -/

/-- A job gives a value and leaves other files, whatever has been said. -/
def Gives {α : Type} (job : Job α) (start : FileTree) (value : α) (last : FileTree) : Prop :=
  ∀ output, ∃ said, job.run ⟨start, output⟩ = (.ok value, ⟨last, said⟩)

variable {α β : Type} {start next last : FileTree}

theorem gives_pure (value : α) (start : FileTree) : Gives (pure value) start value start :=
  fun output => ⟨output, rfl⟩

/-- What comes after a job starts where that one ended. -/
theorem run_bind (first : Job α) (rest : α → Job β) (start : Progress) :
    (first >>= rest).run start =
      match first.run start with
      | (.ok value, next) => (rest value).run next
      | (.error fault, next) => (.error fault, next) := by
  change StateT.run (first >>= rest).run start = _
  rw [ExceptT.run_bind, StateT.run_bind]
  change _ = match StateT.run first.run start with
    | (.ok value, next) => _
    | (.error fault, next) => _
  rcases StateT.run first.run start with ⟨outcome, next⟩
  cases outcome <;> rfl

theorem Gives.bind {first : Job α} {rest : α → Job β} {value : α} {result : β}
    (gives : Gives first start value next) (later : Gives (rest value) next result last) :
    Gives (first >>= rest) start result last := by
  intro output
  obtain ⟨said, stepped⟩ := gives output
  obtain ⟨saidThen, ended⟩ := later said
  refine ⟨saidThen, ?_⟩
  rw [run_bind, stepped]
  exact ended

theorem gives_say (line : String) (files : FileTree) : Gives (Job.say line) files () files :=
  fun _ => ⟨_, rfl⟩

theorem gives_sayAll (lines : List String) (files : FileTree) :
    Gives (Job.sayAll lines) files () files := by
  induction lines with
  | nil => exact gives_pure () files
  | cons line lines ih => exact (gives_say line files).bind ih

/-- What follows on reading the files starts from them. -/
theorem run_get (rest : Progress → Job α) (progress : Progress) :
    (get >>= rest : Job α).run progress = (rest progress).run progress := rfl

theorem gives_change (step : FileTree → Except Fault (α × FileTree)) {value : α}
    (stepped : step start = .ok (value, last)) : Gives (Job.change step) start value last := by
  intro output
  refine ⟨output, ?_⟩
  rw [Job.change, run_get]
  dsimp only
  rw [stepped]
  rfl

theorem gives_look (read : FileTree → Except Catalog.Fault α) {value : α}
    (seen : read start = .ok value) : Gives (Job.look read) start value start := by
  intro output
  refine ⟨output, ?_⟩
  rw [Job.look, run_get]
  dsimp only
  rw [seen]
  rfl

/-! ### Compiling all catalogs -/

variable {tree : FileTree} {targets : List Target}

/-- Some catalogs have been compiled, and none of those before has been lost. -/
structure Advances [Catalog.Codecs] (tree : FileTree) (targets compiled : List Target)
    (start last : FileTree) : Prop where
  laid : Laid tree last targets
  published : ∀ target ∈ compiled, target ∈ targets ∧ IsPublished tree last target
  kept : ∀ target ∈ targets, IsPublished tree start target → IsPublished tree last target

/-- Going through a list compiles the catalogs of each item. -/
theorem gives_mapM [Catalog.Codecs] {step : α → Job β} {value : α → β} {own : α → List Target}
    {items : List α} (each : ∀ item ∈ items, ∀ start, Laid tree start targets → ∃ last,
      Gives (step item) start (value item) last ∧ Advances tree targets (own item) start last)
    (laid : Laid tree start targets) :
    ∃ last, Gives (items.mapM step) start (items.map value) last ∧
      Advances tree targets (items.flatMap own) start last := by
  induction items generalizing start with
  | nil => exact ⟨start, gives_pure _ _, laid, nofun, fun _ _ before => before⟩
  | cons item items ih =>
    obtain ⟨next, gives, first⟩ := each item List.mem_cons_self start laid
    obtain ⟨last, rest, later⟩ :=
      ih (fun other member => each other (List.mem_cons_of_mem _ member)) first.laid
    refine ⟨last, ?_, later.laid, ?_, fun target member before =>
      later.kept target member (first.kept target member before)⟩
    · rw [List.mapM_cons]
      exact gives.bind (rest.bind (gives_pure _ _))
    · intro target compiled
      rw [List.flatMap_cons, List.mem_append] at compiled
      rcases compiled with here | there
      · obtain ⟨member, published⟩ := first.published target here
        exact ⟨member, later.kept target member published⟩
      · exact later.published target there

/-- How many translations a catalog lacks as it is at first. -/
def missingAt [Catalog.Codecs] (tree : FileTree) (target : Target) : Nat :=
  match target.1.load tree target.2 with
  | .ok (_, catalog) => catalog.statistics.missing
  | .error _ => 0

theorem compileLocale_advances [Catalog.Codecs] (ready : AreReady tree targets)
    (laid : Laid tree start targets) {files : CatalogFiles} {locale : String}
    (member : (files, locale) ∈ targets) :
    ∃ last, Gives (compileLocale files locale) start (missingAt tree (files, locale)) last ∧
      Advances tree targets [(files, locale)] start last := by
  obtain ⟨header, catalog, after, loaded, compiled, further, published, kept⟩ :=
    laid.compile ready member
  dsimp only at loaded compiled
  have missing : missingAt tree (files, locale) = catalog.statistics.missing := by
    rw [missingAt, loaded]
  have counted : files.statistics after locale = .ok catalog.statistics := by
    rw [CatalogFiles.statistics, further.load ready member, loaded]
    rfl
  have changed : (files.compile start locale).mapError Fault.catalog =
      .ok (catalog.compile, after) := by
    rw [compiled]
    rfl
  refine ⟨after, ?_, further, fun other same => ?_, kept⟩
  · rw [missing, compileLocale]
    refine (gives_change (fun tree => (files.compile tree locale).mapError .catalog) changed).bind ?_
    refine (gives_look (fun tree => files.statistics tree locale) counted).bind ?_
    exact (gives_say _ _).bind (gives_pure _ _)
  · rw [List.mem_singleton.mp same]
    exact ⟨member, published⟩

/-- The catalogs of a project for each of its locales, in the order in which they are compiled. -/
def targetsOf (project : Project) : List Target :=
  (project.settings.catalogs.filterMap fun catalog =>
    (project.catalogFiles catalog).toOption).flatMap fun files =>
      project.settings.locales.map fun locale => (files, locale)

theorem gives_catalogsOf {project : Project} (start : FileTree)
    (usable : ∀ catalog ∈ project.settings.catalogs, ∃ files,
      project.catalogFiles catalog = .ok files) :
    ∃ catalogs, Gives (catalogsOf project) start catalogs start ∧
      catalogs.map (·.2) = project.settings.catalogs.filterMap fun catalog =>
        (project.catalogFiles catalog).toOption := by
  unfold catalogsOf
  generalize project.settings.catalogs = catalogs at usable
  induction catalogs with
  | nil => exact ⟨[], gives_pure _ _, rfl⟩
  | cons catalog catalogs ih =>
    obtain ⟨⟨files, found⟩, later⟩ := List.forall_mem_cons.mp usable
    obtain ⟨rest, gives, same⟩ := ih later
    refine ⟨(catalog, files) :: rest, ?_, ?_⟩
    · rw [List.mapM_cons, found]
      exact (gives_pure _ _).bind (gives.bind (gives_pure _ _))
    · rw [List.filterMap_cons, found, List.map_cons, same]
      rfl

theorem total_eq_zero {counts : List Nat} : total counts = 0 ↔ ∀ count ∈ counts, count = 0 := by
  have from_start : ∀ start, counts.foldl (· + ·) start = 0 ↔
      start = 0 ∧ ∀ count ∈ counts, count = 0 := by
    induction counts with
    | nil => simp
    | cons count counts ih => intro start; simp [ih, and_assoc]
  rw [total, from_start, and_iff_right rfl]

/-- Some catalogs, and every locale of each, are compiled one after another. -/
theorem compileAll_advances [Catalog.Codecs] {targets : List Target} (ready : AreReady tree targets)
    {locales : List String} {catalogs : List (CatalogSettings × CatalogFiles)}
    (known : ∀ pair ∈ catalogs, ∀ locale ∈ locales, (pair.2, locale) ∈ targets) :
    ∃ last, Gives (catalogs.mapM fun pair => do
        pure (total (← locales.mapM (compileLocale pair.2)))) tree
      (catalogs.map fun pair => total (locales.map fun locale => missingAt tree (pair.2, locale)))
      last ∧
      Advances tree targets (catalogs.flatMap fun pair => locales.map fun locale => (pair.2, locale))
        tree last := by
  have each : ∀ pair ∈ catalogs, ∀ start, Laid tree start targets → ∃ last,
      Gives (do pure (total (← locales.mapM (compileLocale pair.2)))) start
        (total (locales.map fun locale => missingAt tree (pair.2, locale))) last ∧
        Advances tree targets (locales.map fun locale => (pair.2, locale)) start last := by
    intro pair listed start laid
    obtain ⟨last, gives, advances⟩ := gives_mapM (fun locale own start laid =>
      compileLocale_advances ready laid (known pair listed locale own)) laid
    refine ⟨last, gives.bind (gives_pure _ _), ?_⟩
    rwa [← List.map_eq_flatMap] at advances
  exact gives_mapM each (Laid.refl tree targets)

/-- Accepted settings whose catalogs can be compiled are compiled, and the strict way fails exactly if
a translation is missing. -/
theorem compile_advances [Catalog.Codecs] {project : Project}
    (accepted : project.settings.IsUsable project.root)
    (ready : AreReady tree (targetsOf project)) :
    ∃ code last, Gives (compile project true) tree code last ∧ code ≤ 1 ∧
      (code = 0 ↔ ∀ target ∈ targetsOf project, missingAt tree target = 0) ∧
      Laid tree last (targetsOf project) ∧
      ∀ target ∈ targetsOf project, IsPublished tree last target := by
  obtain ⟨catalogs, found, files⟩ := gives_catalogsOf tree accepted.catalogFiles
  have targets : targetsOf project = catalogs.flatMap fun pair =>
      project.settings.locales.map fun locale => (pair.2, locale) := by
    rw [targetsOf, ← files, List.flatMap_map]
  have known : ∀ pair ∈ catalogs, ∀ locale ∈ project.settings.locales,
      (pair.2, locale) ∈ targetsOf project := by
    intro pair listed locale own
    rw [targets]
    exact List.mem_flatMap.mpr ⟨pair, listed, List.mem_map_of_mem own⟩
  obtain ⟨last, compiles, advances⟩ := compileAll_advances ready known
  rw [← targets] at advances
  have published := fun target member => (advances.published target member).2
  generalize counts_eq : (catalogs.map fun pair => total (project.settings.locales.map fun locale =>
    missingAt tree (pair.2, locale))) = counts at compiles
  have counted : total counts = 0 ↔ ∀ target ∈ targetsOf project, missingAt tree target = 0 := by
    rw [← counts_eq, targets, total_eq_zero, List.forall_mem_map, List.forall_mem_flatMap]
    simp only [total_eq_zero, List.forall_mem_map]
  have ends : Gives (compile project true) tree (if total counts = 0 then 0 else 1) last := by
    rw [compile]
    refine (gives_sayAll _ _).bind (found.bind (compiles.bind ?_))
    dsimp only
    split
    · rename_i missing
      rw [if_neg missing.2]
      exact (gives_sayAll _ _).bind (gives_pure _ _)
    · rename_i complete
      rw [if_pos (by simpa using complete)]
      exact gives_pure _ _
  refine ⟨_, last, ends, ?_, ?_, advances.laid, published⟩
  · split <;> decide
  · rw [← counted]
    split <;> simp_all

/-- In the compiled file, as it is after, every active entry that the catalog had before has its
translation. -/
def IsCovered [Catalog.Codecs] (before after : FileTree) (target : Target) : Prop :=
  ∃ header catalog stored, target.1.load before target.2 = .ok (header, catalog) ∧
    target.1.loadCompiled after target.2 = .ok stored ∧ catalog.IsCovered stored.texts

/-- The active entries of a catalog are of single texts. -/
def LacksForms [Catalog.Codecs] (tree : FileTree) (target : Target) : Prop :=
  ∀ header catalog, target.1.load tree target.2 = .ok (header, catalog) →
    ∀ entry ∈ catalog.all, entry.isPlain = true

theorem isCovered_iff [Catalog.Codecs] (laid : Laid tree last targets) {target : Target}
    (published : IsPublished tree last target)
    (own : ∀ header catalog, target.1.load tree target.2 = .ok (header, catalog) →
      catalog.HasOwnIds) :
    IsCovered tree last target ↔ missingAt tree target = 0 ∧ LacksForms tree target := by
  obtain ⟨header, catalog, loaded, stored⟩ := published.loadCompiled laid
  have covered : catalog.IsCovered (CompiledCatalog.ofTexts (Catalog.inOrder catalog.compile)).texts ↔
      catalog.statistics.missing = 0 ∧ ∀ entry ∈ catalog.all, entry.isPlain = true := by
    have found := Catalog.get?_inOrder (Dictionary.nodup_ofPairs (catalog.all.filterMap usable?))
    rw [← Catalog.isCovered_compile_iff (CatalogFiles.load_wellKeyed loaded)
      (CatalogFiles.load_uniform loaded) (own header catalog loaded)]
    simp only [CompiledCatalog.texts_ofTexts, Catalog.IsCovered, Catalog.compile, found]
  have missing : missingAt tree target = catalog.statistics.missing := by rw [missingAt, loaded]
  rw [missing]
  constructor
  · rintro ⟨_, _, _, loadedToo, storedToo, all⟩
    obtain ⟨rfl, rfl⟩ := Prod.mk.inj (Except.ok.inj (loaded.symm.trans loadedToo))
    obtain rfl := Except.ok.inj (stored.symm.trans storedToo)
    obtain ⟨none, plain⟩ := covered.mp all
    refine ⟨none, fun _ _ loadedToo => ?_⟩
    obtain ⟨rfl, rfl⟩ := Prod.mk.inj (Except.ok.inj (loaded.symm.trans loadedToo))
    exact plain
  · rintro ⟨none, plain⟩
    exact ⟨header, catalog, _, loaded, stored, covered.mpr ⟨none, plain header catalog loaded⟩⟩

/-- Accepted settings and catalogs that can be compiled, each with ids of its own: then the strict way
ends with 0 or 1. The compiled files have all translations if and only if it ends with 0 and no entry
has forms; and as translated it counts what is compiled, and beyond that the entries with forms. -/
theorem compile_strict [Catalog.Codecs] {project : Project}
    (accepted : project.settings.IsUsable project.root) (ready : AreReady tree (targetsOf project))
    (own : ∀ target ∈ targetsOf project, ∀ header catalog,
      target.1.load tree target.2 = .ok (header, catalog) → catalog.HasOwnIds) (output : String) :
    ∃ code after said, (compile project true).run ⟨tree, output⟩ = (.ok code, ⟨after, said⟩) ∧
      code ≤ 1 ∧
      ((∀ target ∈ targetsOf project, IsCovered tree after target) ↔
        code = 0 ∧ ∀ target ∈ targetsOf project, LacksForms tree target) ∧
      ∀ target ∈ targetsOf project, ∃ header catalog stored statistics,
        target.1.load tree target.2 = .ok (header, catalog) ∧
        target.1.loadCompiled after target.2 = .ok stored ∧
        target.1.statistics after target.2 = .ok statistics ∧
        statistics.translated = stored.texts.length +
          catalog.all.countP fun entry => !entry.isPlain && !entry.isFuzzy := by
  obtain ⟨code, last, gives, bound, complete, laid, published⟩ := compile_advances accepted ready
  obtain ⟨said, ended⟩ := gives output
  refine ⟨code, last, said, ended, bound, ?_, ?_⟩
  · rw [complete, ← forall₂_and]
    exact forall₂_congr fun target member =>
      isCovered_iff laid (published target member) (own target member)
  · intro target member
    obtain ⟨header, catalog, loaded, stored⟩ := (published target member).loadCompiled laid
    refine ⟨header, catalog, _, catalog.statistics, loaded, stored, ?_, ?_⟩
    · rw [CatalogFiles.statistics, laid.load ready member, loaded]
      rfl
    · rw [CompiledCatalog.texts_ofTexts, Catalog.inOrder, List.length_mergeSort]
      exact Catalog.translated_eq (CatalogFiles.load_wellKeyed loaded)
        (CatalogFiles.load_uniform loaded) (own target member header catalog loaded)

/-! ### Two projects -/

open CatalogFiles (localeFiles treeOf)

def localeCatalog : CatalogSettings :=
  { CatalogSettings.standard with path := "locales/\x7blocale\x7d" }

/-- A project with one catalog for its only locale. -/
def localeProject : Project :=
  ⟨⟨.relative, []⟩, { Settings.standard with catalogs := [localeCatalog] }⟩

theorem catalogFiles_localeCatalog : localeProject.catalogFiles localeCatalog = .ok localeFiles := by
  have template : (localeCatalog.template localeProject.root).text = localeFiles.template.text := by
    decide +kernel
  have placed := localeFiles.template.hasPlaceholder
  rw [Project.catalogFiles, template, CatalogFiles.ofTemplate, Catalog.Template.ofText?,
    dif_pos placed]
  rfl

theorem localeProject_accepted : localeProject.settings.IsUsable localeProject.root where
  someLocale := by decide
  sourceListed := by decide
  someWorker := by decide
  catalogFiles catalog member := by
    rw [List.mem_singleton.mp member]
    exact ⟨localeFiles, catalogFiles_localeCatalog⟩

theorem targetsOf_localeProject : targetsOf localeProject = [(localeFiles, "en")] := by
  have files : (localeProject.catalogFiles localeCatalog).toOption = some localeFiles := by
    rw [catalogFiles_localeCatalog]
    rfl
  have all : ([localeCatalog].filterMap fun catalog =>
      (localeProject.catalogFiles catalog).toOption) = [localeFiles] := by
    rw [List.filterMap_cons, files, List.filterMap_nil]
  change ([localeCatalog].filterMap fun catalog =>
    (localeProject.catalogFiles catalog).toOption).flatMap _ = _
  rw [all]
  rfl

theorem ready_localeProject [Catalog.Codecs] {tree : FileTree}
    (loads : ∃ header catalog, localeFiles.load tree "en" = .ok (header, catalog))
    (stores : (tree.store (localeFiles.template.compiledPath "en") []).toOption.isSome = true)
    (apart : ∀ ending ∈ [Catalog.Template.catalogEnding, Catalog.Template.compiledEnding],
      tree.isAbove (Target.path (localeFiles, "en") ending)
        (Target.directory (localeFiles, "en")) = false) :
    AreReady tree (targetsOf localeProject) := by
  rw [targetsOf_localeProject]
  refine ⟨?_, ?_, ?_⟩
  · intro target member
    rw [List.mem_singleton.mp member]
    exact loads
  · intro target member
    rw [List.mem_singleton.mp member]
    exact CatalogFiles.writable_of_isSome stores
  · intro target member other otherMember
    rw [List.mem_singleton.mp member, List.mem_singleton.mp otherMember]
    exact apart

def dayText : String := "msgid \"day\"\nmsgstr \"jour\"\n"

/-- An entry that is translated is compiled, so that nothing is missing. -/
theorem compile_strict_day :
    ∃ code after said, (compile localeProject true).run ⟨treeOf "en.po" dayText, ""⟩ =
        (.ok code, ⟨after, said⟩) ∧ code ≤ 1 ∧
      (IsCovered (treeOf "en.po" dayText) after (localeFiles, "en") ↔ code = 0) := by
  obtain ⟨header, catalog, loaded, all⟩ := CatalogFiles.load_of_all (treeOf "en.po" dayText) "en"
    [⟨.single "day", .single "jour", none, [], [], [], []⟩] (by decide +kernel)
  have only : ∀ header' catalog', localeFiles.load (treeOf "en.po" dayText) "en" =
      .ok (header', catalog') → catalog' = catalog := by
    intro header' catalog' loadedToo
    exact (Prod.mk.inj (Except.ok.inj (loadedToo.symm.trans loaded))).2
  have ready : AreReady (treeOf "en.po" dayText) (targetsOf localeProject) :=
    ready_localeProject ⟨header, catalog, loaded⟩ (by decide +kernel) (by decide +kernel)
  obtain ⟨code, after, said, ended, bound, covered, -⟩ :=
    compile_strict localeProject_accepted ready (by
      rw [targetsOf_localeProject]
      intro target member header' catalog' loadedToo
      obtain rfl := List.mem_singleton.mp member
      rw [only header' catalog' loadedToo, Catalog.HasOwnIds, all]
      exact List.nodup_singleton _) ""
  refine ⟨code, after, said, ended, bound, ?_⟩
  rw [targetsOf_localeProject] at covered
  have plain : LacksForms (treeOf "en.po" dayText) (localeFiles, "en") := by
    intro header' catalog' loadedToo
    rw [only header' catalog' loadedToo, all]
    decide
  simpa [plain] using covered

/-- One entry with its only form. -/
def daysText : String :=
  "msgid \"\"\nmsgstr \"Plural-Forms: nplurals=1;\\n\"\n\n" ++
    "msgid \"day\"\nmsgid_plural \"days\"\nmsgstr[0] \"jour\"\n"

/-- The strict way ends with 0, although the compiled file has nothing for the entry with forms. -/
theorem compile_strict_days :
    ∃ after said, (compile localeProject true).run ⟨treeOf "en.po" daysText, ""⟩ =
        (.ok 0, ⟨after, said⟩) ∧
      ¬ IsCovered (treeOf "en.po" daysText) after (localeFiles, "en") := by
  obtain ⟨header, catalog, loaded, all⟩ := CatalogFiles.load_of_all (treeOf "en.po" daysText) "en"
    [⟨.forms ["day", "days"], .forms ["jour"], none, [], [], [], []⟩] (by decide +kernel)
  have ready : AreReady (treeOf "en.po" daysText) (targetsOf localeProject) :=
    ready_localeProject ⟨header, catalog, loaded⟩ (by decide +kernel) (by decide +kernel)
  obtain ⟨code, last, gives, -, complete, laid, published⟩ :=
    compile_advances localeProject_accepted ready
  rw [targetsOf_localeProject] at complete laid published
  obtain ⟨said, ended⟩ := gives ""
  have missing : missingAt (treeOf "en.po" daysText) (localeFiles, "en") = 0 := by
    have none : catalog.statistics.missing = 0 := by
      rw [Catalog.missing_eq_zero, all]
      decide
    rw [missingAt, loaded]
    exact none
  obtain rfl : code = 0 := complete.mpr fun target member => List.mem_singleton.mp member ▸ missing
  refine ⟨last, said, ended, fun covered => ?_⟩
  have own : ∀ header' catalog', localeFiles.load (treeOf "en.po" daysText) "en" =
      .ok (header', catalog') → catalog'.HasOwnIds := by
    intro header' catalog' loadedToo
    rw [(Prod.mk.inj (Except.ok.inj (loadedToo.symm.trans loaded))).2, Catalog.HasOwnIds, all]
    exact List.nodup_singleton _
  have plain := ((isCovered_iff laid (published _ (List.mem_singleton_self _)) own).mp covered).2
    header catalog loaded _ (all ▸ List.mem_cons_self)
  cases plain

end Command

end Phrasebook

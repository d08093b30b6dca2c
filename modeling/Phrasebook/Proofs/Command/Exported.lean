import Phrasebook.Proofs.Command.Strict
import Phrasebook.Proofs.Json.Apart

set_option autoImplicit false

/-!
The records that an extraction exports. Each catalog is scanned when its turn comes, and its records
are written to the one file of the export before they are merged, so that in the end the file holds
the records of the last catalog.
-/
namespace Phrasebook

open Extract (Origin Record)
open Text (CodePoints)

/-! ### The records in a file -/

/-- A record as text shows it: a comment of other code points than those of Unicode is no text. -/
def Extract.Record.shown (record : Record) : Record :=
  { record with comment := record.comment.map fun text => CodePoints.ofString text.shown }

namespace Scan

theorem isWhole_exported (root : Path) (scan : Scan) : (exported root scan).isWhole = true := by
  have origins : ∀ origin, (originJson origin).isWhole = true := fun _ => rfl
  have records : ∀ record, (recordJson record).isWhole = true := by
    rintro ⟨id, message, context, comment, origin⟩
    cases context <;> cases comment <;> cases origin <;> rfl
  simp [exported, reportJson, Json.ofEntries, Json.isWhole, Json.haveWhole, Json.areWhole_eq,
    Json.haveWhole_eq, Json.ofString, Json.ofNat, records]

theorem ofString_injective {text other : String} (same : Json.ofString text = Json.ofString other) :
    text = other := CodePoints.ofString_injective (Json.string.inj same)

theorem originJson_injective {origin other : Origin} (same : originJson origin = originJson other) :
    origin = other := by
  obtain ⟨file, line, column⟩ := origin
  obtain ⟨file', line', column'⟩ := other
  simp only [originJson, Json.ofEntries, List.map_cons, List.map_nil, Json.object.injEq,
    List.cons.injEq, Prod.mk.injEq, true_and, and_true, Json.ofNat, Json.int.injEq,
    Int.ofNat_inj] at same
  obtain ⟨files, rfl, rfl⟩ := same
  rw [ofString_injective files]

/-- What may be absent is told from what is there. -/
theorem getD_null_injective {α : Type} {json : α → Json}
    (injective : ∀ {value other}, json value = json other → value = other)
    (given : ∀ value, json value ≠ .null) {value other : Option α}
    (same : (value.map json).getD .null = (other.map json).getD .null) : value = other := by
  cases value with
  | none =>
    cases other with
    | none => rfl
    | some other => exact absurd same.symm (given other)
  | some value =>
    cases other with
    | none => exact absurd same (given value)
    | some other => exact congrArg some (injective same)

theorem recordJson_injective {record other : Record} (same : recordJson record = recordJson other) :
    record = other := by
  obtain ⟨id, message, context, comment, origin⟩ := record
  obtain ⟨id', message', context', comment', origin'⟩ := other
  simp only [recordJson, Json.ofEntries, List.map_cons, List.map_nil, Json.object.injEq,
    List.cons.injEq, Prod.mk.injEq, true_and, and_true] at same
  obtain ⟨ids, messages, contexts, comments, origins⟩ := same
  obtain rfl := ofString_injective ids
  obtain rfl := ofString_injective messages
  obtain rfl := getD_null_injective ofString_injective (by simp [Json.ofString]) contexts
  obtain rfl := getD_null_injective Json.string.inj (by simp) comments
  obtain rfl := getD_null_injective originJson_injective (by simp [originJson, Json.ofEntries]) origins
  rfl

theorem shown_recordJson (record : Record) : (recordJson record).shown = recordJson record.shown := by
  have origins : ∀ origin, (originJson origin).shown = originJson origin := by
    intro origin
    simp [originJson, Json.ofEntries, Json.shown, Json.shownEntries, Json.ofNat]
  obtain ⟨id, message, context, comment, origin⟩ := record
  cases context <;> cases comment <;> cases origin <;>
    simp [recordJson, Record.shown, Json.ofEntries, Json.shown, Json.shownEntries, Json.ofString,
      origins]

/-- The text of an export tells the records in it. -/
theorem shown_eq_of_exported {root other : Path} {scan another : Scan} {text : List Char}
    (written : (Json.write (exported root scan)).toChars? = some text)
    (writtenToo : (Json.write (exported other another)).toChars? = some text) :
    scan.records.map Record.shown = another.records.map Record.shown := by
  have same := Json.shown_eq_of_write (isWhole_exported root scan)
    (isWhole_exported other another) written writtenToo
  simp only [exported, Json.ofEntries, List.map_cons, List.map_nil, Json.shown, Json.shownEntries,
    Json.shownItems_eq, List.map_map, Json.object.injEq, List.cons.injEq, Prod.mk.injEq,
    Json.array.injEq, true_and, and_true] at same
  have alike : Json.shown ∘ recordJson = recordJson ∘ Record.shown := funext shown_recordJson
  have records := same.2
  rw [alike, ← List.map_map, ← List.map_map] at records
  exact List.map_injective_iff.mpr (fun _ _ => recordJson_injective) records

theorem save_eq_ok {tree after : FileTree} {path root : Path} {scan : Scan} :
    scan.save tree path root = .ok after ↔
      ∃ text, (Json.write (exported root scan)).toChars? = some text ∧
        tree.store path (Text.encode text) = .ok after := by
  rw [save]
  cases written : (Json.write (exported root scan)).toChars? with
  | none => simp
  | some text => simp [Outcome.mapError_eq_ok]

end Scan

namespace Command

open Catalog.Template (catalogEnding isEnding_catalog)
open CatalogFiles (Target)
open FileTree (Within)

/-- A file is an export of records. -/
def HoldsRecords (tree : FileTree) (path : Path) (records : List Record) : Prop :=
  ∃ root scan text, (Json.write (Scan.exported root scan)).toChars? = some text ∧
    tree.readBytes path = .ok (Text.encode text) ∧
    scan.records.map Record.shown = records.map Record.shown

/-- A file is the export of no two lists of records. -/
theorem HoldsRecords.unique {tree : FileTree} {path : Path} {records others : List Record}
    (holds : HoldsRecords tree path records) (holdsOthers : HoldsRecords tree path others) :
    records.map Record.shown = others.map Record.shown := by
  obtain ⟨root, scan, text, written, read, same⟩ := holds
  obtain ⟨root', scan', text', written', read', same'⟩ := holdsOthers
  have bytes : Text.encode text = Text.encode text' := Except.ok.inj (read.symm.trans read')
  have texts : text = text' := by
    have decoded := congrArg Text.decode bytes
    rw [Text.decode_encode, Text.decode_encode] at decoded
    exact Except.ok.inj decoded
  rw [← texts] at written'
  rw [← same, ← same', Scan.shown_eq_of_exported written written']

theorem HoldsRecords.iff {tree : FileTree} {path : Path} {records : List Record}
    (holds : HoldsRecords tree path records) (others : List Record) :
    HoldsRecords tree path others ↔ others.map Record.shown = records.map Record.shown := by
  refine ⟨fun holdsOthers => holdsOthers.unique holds, fun same => ?_⟩
  obtain ⟨root, scan, text, written, read, shown⟩ := holds
  exact ⟨root, scan, text, written, read, shown.trans same.symm⟩

/-- A record is in a file if it shows as one of the records there does. -/
theorem HoldsRecords.exists_mem {tree : FileTree} {path : Path} {records : List Record}
    (holds : HoldsRecords tree path records) (record : Record) :
    (∃ others, HoldsRecords tree path others ∧ record ∈ others) ↔
      record.shown ∈ records.map Record.shown := by
  constructor
  · rintro ⟨others, holdsOthers, member⟩
    rw [← (holds.iff others).mp holdsOthers]
    exact List.mem_map_of_mem member
  · intro member
    obtain ⟨own, ownMember, same⟩ := List.mem_map.mp member
    obtain ⟨front, back, rfl⟩ := List.append_of_mem ownMember
    refine ⟨front ++ record :: back, (holds.iff _).mpr ?_, by simp⟩
    rw [List.map_append, List.map_append, List.map_cons, List.map_cons, same]

/-! ### Steps that come to an end -/

variable {α β : Type} {start last : Progress}

/-- A job ends with a value. -/
def Ends (job : Job α) (start : Progress) (value : α) (last : Progress) : Prop :=
  job.run start = (.ok value, last)

theorem ends_bind {first : Job α} {rest : α → Job β} {result : β} :
    Ends (first >>= rest) start result last ↔
      ∃ value next, Ends first start value next ∧ Ends (rest value) next result last := by
  unfold Ends
  rw [run_bind]
  rcases first.run start with ⟨outcome, next⟩
  cases outcome with
  | ok value =>
    refine ⟨fun ended => ⟨value, next, rfl, ended⟩, ?_⟩
    rintro ⟨_, _, same, ended⟩
    cases same
    exact ended
  | error fault =>
    refine ⟨fun ended => ?_, ?_⟩
    · cases ended
    · rintro ⟨_, _, same, -⟩
      cases same

theorem ends_pure {value result : α} :
    Ends (pure value) start result last ↔ value = result ∧ start = last := by
  constructor
  · intro ended
    cases ended
    exact ⟨rfl, rfl⟩
  · rintro ⟨rfl, rfl⟩
    rfl

theorem Ends.said {line : String} {value : Unit} (ended : Ends (Job.say line) start value last) :
    last.files = start.files := by
  cases ended
  rfl

theorem Ends.saidAll {lines : List String} {value : Unit}
    (ended : Ends (Job.sayAll lines) start value last) : last.files = start.files := by
  rw [Job.sayAll] at ended
  induction lines generalizing start with
  | nil => exact congrArg Progress.files (ends_pure.mp ended).2.symm
  | cons line lines ih =>
    obtain ⟨_, next, said, rest⟩ := ends_bind.mp ended
    rw [ih rest, said.said]

theorem Ends.changed {step : FileTree → Except Fault (α × FileTree)} {value : α}
    (ended : Ends (Job.change step) start value last) :
    step start.files = .ok (value, last.files) := by
  rw [Ends, Job.change, run_get] at ended
  cases stepped : step start.files with
  | error fault =>
    rw [stepped] at ended
    cases ended
  | ok stepped' =>
    rw [stepped] at ended
    cases ended
    rfl

/-- A scan that does not fail leaves the files as they are. -/
theorem Ends.scanned {project : Project} {catalog : CatalogSettings} {scan : Scan}
    (ended : Ends (scanSources project catalog) start scan last) :
    Scan.perform start.files (project.scanPlan catalog) = .ok scan ∧ last = start := by
  rw [Ends, scanSources, run_get] at ended
  cases performed : Scan.perform start.files (project.scanPlan catalog) with
  | error fault =>
    rw [performed] at ended
    cases ended
  | ok performed' =>
    rw [performed] at ended
    cases ended
    exact ⟨rfl, rfl⟩

theorem ends_catalogsOf {project : Project} {catalogs : List (CatalogSettings × CatalogFiles)} :
    Ends (catalogsOf project) start catalogs last →
      last = start ∧ List.Forall₂ (fun catalog pair => pair.1 = catalog ∧
        project.catalogFiles catalog = .ok pair.2) project.settings.catalogs catalogs := by
  rw [catalogsOf]
  generalize project.settings.catalogs = settings
  intro ended
  induction settings generalizing start catalogs with
  | nil =>
    obtain ⟨rfl, rfl⟩ := ends_pure.mp ended
    exact ⟨rfl, .nil⟩
  | cons catalog settings ih =>
    rw [List.mapM_cons, ends_bind] at ended
    obtain ⟨pair, next, first, ended⟩ := ended
    obtain ⟨pairs, after, later, ended⟩ := ends_bind.mp ended
    obtain ⟨rfl, rfl⟩ := ends_pure.mp ended
    obtain ⟨rfl, others⟩ := ih later
    cases found : project.catalogFiles catalog with
    | error fault =>
      rw [found] at first
      cases first
    | ok files =>
      rw [found] at first
      obtain ⟨rfl, rfl⟩ := ends_pure.mp first
      exact ⟨rfl, .cons ⟨rfl, found⟩ others⟩

/-! ### What merging leaves alone -/

variable {tree after : FileTree} {path : Path} {bytes : List UInt8}

theorem within_save {files : CatalogFiles} {locale : String} {header : Catalog.Header}
    {catalog : Catalog} (saved : files.save tree locale header catalog = .ok after) :
    Within tree after := by
  have stored := Outcome.mapError_eq_ok.mp saved
  rw [Catalog.Template.catalogPath, Catalog.Template.path_eq _ _ isEnding_catalog] at stored
  exact FileTree.within_store_child (Catalog.Template.stem_ne _ _ isEnding_catalog) stored

/-- Saving a catalog leaves what is in another file. -/
theorem readBytes_save {files : CatalogFiles} {locale : String} {header : Catalog.Header}
    {catalog : Catalog} (saved : files.save tree locale header catalog = .ok after)
    (apart : after.place? (files.template.catalogPath locale) ≠ after.place? path)
    (held : tree.readBytes path = .ok bytes) : after.readBytes path = .ok bytes := by
  have stored := Outcome.mapError_eq_ok.mp saved
  rw [Catalog.Template.catalogPath, Catalog.Template.path_eq _ _ isEnding_catalog] at stored apart
  exact FileTree.readBytes_store_child (Catalog.Template.stem_ne _ _ isEnding_catalog) stored apart
    held

variable {files : CatalogFiles} {messages : List Extract.UniqueMessage} {isClean : Bool}

theorem Ends.merged [Catalog.Codecs] {locale : String} {value : Unit}
    (ended : Ends (mergeLocale files messages isClean locale) start value last) :
    ∃ header catalog, files.save start.files locale header catalog = .ok last.files := by
  obtain ⟨counts, next, merged, ended⟩ := ends_bind.mp ended
  have changed := Outcome.mapError_eq_ok.mp merged.changed
  obtain ⟨⟨header, catalog⟩, -, changed⟩ := Outcome.bind_eq_ok.mp changed
  dsimp only at changed
  obtain ⟨saved, kept, pair⟩ := Outcome.bind_eq_ok.mp changed
  obtain ⟨-, rfl⟩ := Prod.mk.inj (Except.ok.inj pair)
  exact ⟨header, _, by rw [ended.said]; exact kept⟩

/-- Merging for all locales leaves what is in a file that is none of the catalogs. -/
theorem Ends.mergedAll [Catalog.Codecs] {locales : List String} {value : Unit}
    (ended : Ends (locales.forM (mergeLocale files messages isClean)) start value last) :
    Within start.files last.files ∧
      ((∀ locale ∈ locales,
        last.files.place? (files.template.catalogPath locale) ≠ last.files.place? path) →
        start.files.readBytes path = .ok bytes → last.files.readBytes path = .ok bytes) := by
  induction locales generalizing start with
  | nil =>
    obtain ⟨-, rfl⟩ := ends_pure.mp ended
    exact ⟨.refl _, fun _ held => held⟩
  | cons locale locales ih =>
    obtain ⟨_, next, first, ended⟩ := ends_bind.mp ended
    obtain ⟨header, catalog, saved⟩ := first.merged
    obtain ⟨within, keeps⟩ := ih ended
    have begun := within_save saved
    refine ⟨begun.trans within, fun apart held => ?_⟩
    obtain ⟨apartFirst, apartLater⟩ := List.forall_mem_cons.mp apart
    obtain ⟨place, leads, -⟩ := FileTree.readBytes_eq_ok.mp held
    refine keeps apartLater (readBytes_save saved (fun same => apartFirst ?_) held)
    have here := begun.place? leads
    rw [here] at same
    rw [within.place? same, within.place? here]

/-! ### One catalog after another -/

/-- The catalogs are scanned one after another, each with the files as they are when its turn comes,
and brought up to date with what was found. -/
inductive Turns [Catalog.Codecs] (project : Project) (isClean : Bool) (path : String) :
    FileTree → List CatalogSettings → List Scan → FileTree → Prop where
  | done (tree : FileTree) : Turns project isClean path tree [] [] tree
  | next {start next last : FileTree} {output said : String} {catalog : CatalogSettings}
      {catalogs : List CatalogSettings} {files : CatalogFiles} {failed : Nat} {scan : Scan}
      {scans : List Scan} :
      project.catalogFiles catalog = .ok files →
      Scan.perform start (project.scanPlan catalog) = .ok scan →
      (extractCatalog project isClean (some path) catalog files).run ⟨start, output⟩ =
        (.ok failed, ⟨next, said⟩) →
      Turns project isClean path next catalogs scans last →
      Turns project isClean path start (catalog :: catalogs) (scan :: scans) last

theorem turns_of_ends [Catalog.Codecs] {project : Project} {path : String}
    {settings : List CatalogSettings} {catalogs : List (CatalogSettings × CatalogFiles)}
    {counts : List Nat}
    (found : List.Forall₂ (fun catalog pair => pair.1 = catalog ∧
      project.catalogFiles catalog = .ok pair.2) settings catalogs)
    (ended : Ends (catalogs.mapM fun (catalog, files) =>
      extractCatalog project isClean (some path) catalog files) start counts last) :
    ∃ scans, Turns project isClean path start.files settings scans last.files := by
  induction found generalizing start counts with
  | nil =>
    obtain ⟨-, rfl⟩ := ends_pure.mp ended
    exact ⟨[], .done _⟩
  | cons own _ ih =>
    obtain ⟨rfl, files⟩ := own
    rw [List.mapM_cons, ends_bind] at ended
    obtain ⟨failed, next, first, ended⟩ := ended
    obtain ⟨failures, after, later, ended⟩ := ends_bind.mp ended
    obtain ⟨-, rfl⟩ := ends_pure.mp ended
    obtain ⟨scans, turns⟩ := ih later
    obtain ⟨scan, _, scanned, -⟩ := ends_bind.mp first
    exact ⟨scan :: scans, .next files scanned.scanned.1 first turns⟩

theorem Ends.exported {path root : Path} {scan : Scan} {value : Unit}
    (ended : Ends (exportRecords path root scan) start value last) :
    scan.save start.files path root = .ok last.files := by
  have changed := Outcome.mapError_eq_ok.mp ended.changed
  cases saved : scan.save start.files path root with
  | error fault =>
    rw [saved] at changed
    cases changed
  | ok after =>
    rw [saved] at changed
    cases changed
    rfl

/-- After its turn, the records of a catalog are in the file of the export. -/
theorem holdsRecords_extractCatalog [Catalog.Codecs] {project : Project} {path : String}
    {catalog : CatalogSettings} {failed : Nat} {scan : Scan}
    (performed : Scan.perform start.files (project.scanPlan catalog) = .ok scan)
    (ended : Ends (extractCatalog project isClean (some path) catalog files) start failed last)
    (apart : ∀ locale ∈ project.settings.locales,
      last.files.place? (files.template.catalogPath locale) ≠ last.files.place? (.ofText path)) :
    HoldsRecords last.files (.ofText path) scan.records := by
  obtain ⟨found, _, scanned, ended⟩ := ends_bind.mp ended
  cases performed.symm.trans scanned.scanned.1
  obtain ⟨_, shown, said, ended⟩ := ends_bind.mp ended
  obtain ⟨_, exported, saved, ended⟩ := ends_bind.mp ended
  obtain ⟨_, merged, merges, ended⟩ := ends_bind.mp ended
  obtain ⟨-, rfl⟩ := ends_pure.mp ended
  obtain ⟨text, written, stored⟩ := Scan.save_eq_ok.mp saved.exported
  have held := merges.mergedAll.2 apart (FileTree.readBytes_stored stored).1
  exact ⟨project.root, _, text, written, held, rfl⟩

/-- After the last turn, the records of the last catalog are in the file. -/
theorem Turns.holdsRecords [Catalog.Codecs] {project : Project} {path : String}
    {settings : List CatalogSettings} {scans : List Scan} {tree last : FileTree}
    (turns : Turns project isClean path tree settings scans last)
    (apart : ∀ catalog ∈ settings, ∀ files, project.catalogFiles catalog = .ok files →
      ∀ locale ∈ project.settings.locales,
        last.place? (files.template.catalogPath locale) ≠ last.place? (.ofText path))
    {earlier : List Scan} {scan : Scan} (cut : scans = earlier ++ [scan]) :
    HoldsRecords last (.ofText path) scan.records := by
  induction turns generalizing earlier with
  | done => simp at cut
  | next found performed ended rest ih =>
    obtain ⟨own, others⟩ := List.forall_mem_cons.mp apart
    cases earlier with
    | nil =>
      obtain ⟨rfl, rfl⟩ := List.cons.inj cut
      cases rest
      exact holdsRecords_extractCatalog performed ended (own _ found)
    | cons first earlier => exact ih others (List.cons.inj cut).2

theorem turns_of_extract [Catalog.Codecs] {project : Project} {path : String} {code : Nat}
    (ended : Ends (extract project isClean (some path)) start code last) :
    code = 0 ∧ ∃ scans,
      Turns project isClean path start.files project.settings.catalogs scans last.files := by
  rw [extract] at ended
  obtain ⟨_, begun, said, ended⟩ := ends_bind.mp ended
  obtain ⟨catalogs, listed, gathered, ended⟩ := ends_bind.mp ended
  obtain ⟨unchanged, pairs⟩ := ends_catalogsOf gathered
  obtain ⟨counts, done, turned, ended⟩ := ends_bind.mp ended
  obtain ⟨scans, turns⟩ := turns_of_ends pairs turned
  rw [unchanged, said.saidAll] at turns
  dsimp only at ended
  split at ended
  · obtain ⟨_, noted, failed, ended⟩ := ends_bind.mp ended
    obtain ⟨rfl, rfl⟩ := ends_pure.mp ended
    exact ⟨rfl, scans, failed.saidAll ▸ turns⟩
  · obtain ⟨rfl, rfl⟩ := ends_pure.mp ended
    exact ⟨rfl, scans, turns⟩

theorem mem_targetsOf {project : Project} {catalog : CatalogSettings} {locale : String}
    (listed : catalog ∈ project.settings.catalogs) (found : project.catalogFiles catalog = .ok files)
    (known : locale ∈ project.settings.locales) : (files, locale) ∈ targetsOf project := by
  refine List.mem_flatMap.mpr ⟨files, List.mem_filterMap.mpr ⟨catalog, listed, ?_⟩,
    List.mem_map.mpr ⟨locale, known, rfl⟩⟩
  rw [found]
  rfl

/-- The export of an extraction has the records of the last catalog, and no others. -/
theorem extract_exported [Catalog.Codecs] {project : Project} {path : String} {code : Nat}
    (ended : (extract project isClean (some path)).run start = (.ok code, last))
    (apart : ∀ target ∈ targetsOf project,
      last.files.place? (target.path catalogEnding) ≠ last.files.place? (.ofText path)) :
    code = 0 ∧ ∃ scans,
      Turns project isClean path start.files project.settings.catalogs scans last.files ∧
      ∀ earlier scan, scans = earlier ++ [scan] →
        (∀ records, HoldsRecords last.files (.ofText path) records ↔
          records.map Record.shown = scan.records.map Record.shown) ∧
        (HoldsRecords last.files (.ofText path) (scans.flatMap Scan.records) ↔
          ∀ other ∈ earlier, other.records = []) ∧
        ((∀ other ∈ scans, ∀ record ∈ other.records, ∃ records,
            HoldsRecords last.files (.ofText path) records ∧ record ∈ records) ↔
          ∀ other ∈ earlier, ∀ record ∈ other.records,
            record.shown ∈ scan.records.map Record.shown) := by
  obtain ⟨rfl, scans, turns⟩ := turns_of_extract ended
  refine ⟨rfl, scans, turns, ?_⟩
  rintro earlier scan rfl
  have holds : HoldsRecords last.files (.ofText path) scan.records :=
    turns.holdsRecords (fun catalog listed files found locale known =>
      apart (files, locale) (mem_targetsOf listed found known)) rfl
  refine ⟨holds.iff, ?_, ?_⟩
  · rw [holds.iff, List.flatMap_append, List.flatMap_singleton, List.map_append,
      List.append_left_eq_self, List.map_eq_nil_iff, List.flatMap_eq_nil_iff]
  · simp only [holds.exists_mem, List.forall_mem_append, List.forall_mem_singleton]
    exact and_iff_left fun record member => List.mem_map_of_mem member

/-! ### Two catalogs -/

def scriptOf (text : String) : FileEntry := .file (Text.encode text.toList)

/-- A project with one source for each of its two catalogs. -/
def pairTree : FileTree :=
  ⟨[(["shop"], .directory), (["shop", "a.js"], scriptOf "g`Account`"),
    (["shop", "b.js"], scriptOf "g`Basket`")], ["shop"]⟩

def pairCatalog (name source : String) : CatalogSettings :=
  { CatalogSettings.standard with path := name ++ "/\x7blocale\x7d", sources := [source] }

def pairProject : Project :=
  ⟨⟨.root, ["shop"]⟩,
    { Settings.standard with catalogs := [pairCatalog "first" "a.js", pairCatalog "second" "b.js"] }⟩

/-- The extraction from both sources, with an export. -/
@[irreducible]
def pairEnd : Except Fault Nat × Progress :=
  (extract pairProject false (some "out.json")).run ⟨pairTree, ""⟩

def accountRecord : Record :=
  .create "Account" none none (some ⟨"a.js", ⟨1, 1⟩⟩)

def basketRecord : Record :=
  .create "Basket" none none (some ⟨"b.js", ⟨1, 1⟩⟩)

/-- How the extraction ends, evaluated at once. -/
theorem pairEnd_evaluated :
    pairEnd.1.toOption = some 0 ∧
      (∀ target ∈ targetsOf pairProject, pairEnd.2.files.place? (target.path catalogEnding) ≠
        pairEnd.2.files.place? (.ofText "out.json")) ∧
      (pairEnd.2.files.readBytes (.ofText "out.json")).toOption =
        (Json.write (Scan.exported pairProject.root ⟨[basketRecord], []⟩)).toChars?.map
          Text.encode := by
  decide +kernel

theorem ends_pair :
    (extract pairProject false (some "out.json")).run ⟨pairTree, ""⟩ = (.ok 0, pairEnd.2) := by
  have whole : ∀ ended : Except Fault Nat × Progress, ended.1.toOption = some 0 →
      ended = (.ok 0, ended.2) := by
    rintro ⟨outcome, progress⟩ code
    rw [← Outcome.toOption_eq_some.mp code]
  rw [← pairEnd]
  exact whole pairEnd pairEnd_evaluated.1

theorem extract_exported_pair :
    ∃ scans, Turns pairProject false "out.json" pairTree pairProject.settings.catalogs scans
        pairEnd.2.files ∧
      ∀ earlier scan, scans = earlier ++ [scan] → ∀ records,
        HoldsRecords pairEnd.2.files (.ofText "out.json") records ↔
          records.map Record.shown = scan.records.map Record.shown := by
  obtain ⟨-, scans, turns, each⟩ := extract_exported ends_pair pairEnd_evaluated.2.1
  exact ⟨scans, turns, fun earlier scan cut => (each earlier scan cut).1⟩

theorem holdsRecords_pair :
    HoldsRecords pairEnd.2.files (.ofText "out.json") [basketRecord] := by
  have read := pairEnd_evaluated.2.2
  cases written : (Json.write (Scan.exported pairProject.root ⟨[basketRecord], []⟩)).toChars? with
  | none =>
    have whole : (Json.write (Scan.exported pairProject.root ⟨[basketRecord], []⟩)).toChars?.isSome =
      true := by decide +kernel
    rw [written] at whole
    cases whole
  | some text =>
    rw [written, Option.map_some] at read
    exact ⟨_, _, text, written, Outcome.toOption_eq_some.mp read, rfl⟩

/-- What was scanned, and merged, for the first of two catalogs is not in the export. -/
theorem extract_exports_last :
    ∃ last scans, (extract pairProject false (some "out.json")).run ⟨pairTree, ""⟩ = (.ok 0, last) ∧
      Turns pairProject false "out.json" pairTree pairProject.settings.catalogs scans last.files ∧
      ¬HoldsRecords last.files (.ofText "out.json") (scans.flatMap Scan.records) ∧
      ∃ record ∈ scans.flatMap Scan.records, ∀ records,
        HoldsRecords last.files (.ofText "out.json") records → record ∉ records := by
  obtain ⟨-, scans, turns⟩ := turns_of_extract ends_pair
  have found : ∃ scan, Scan.perform pairTree (pairProject.scanPlan (pairCatalog "first" "a.js")) =
      .ok scan ∧ accountRecord ∈ scan.records := by
    have evaluated : (Scan.perform pairTree (pairProject.scanPlan (pairCatalog "first" "a.js"))
        ).toOption.any (fun scan => decide (accountRecord ∈ scan.records)) = true := by
      decide +kernel
    obtain ⟨scan, performed, member⟩ := (Option.any_eq_true _ _).mp evaluated
    exact ⟨scan, Outcome.toOption_eq_some.mp performed, of_decide_eq_true member⟩
  have scanned : accountRecord ∈ scans.flatMap Scan.records := by
    have begun : Turns pairProject false "out.json" pairTree
        [pairCatalog "first" "a.js", pairCatalog "second" "b.js"] scans pairEnd.2.files := turns
    obtain ⟨scan, performed, member⟩ := found
    cases begun with
    | next _ same =>
      cases performed.symm.trans same
      exact List.mem_flatMap.mpr ⟨scan, List.mem_cons_self, member⟩
  have absent : ∀ records, HoldsRecords pairEnd.2.files (.ofText "out.json") records →
      accountRecord ∉ records := by
    intro records holds member
    have shown := (holdsRecords_pair.exists_mem accountRecord).mp ⟨records, holds, member⟩
    rw [List.map_singleton, List.mem_singleton] at shown
    exact absurd (congrArg Record.message shown) (by decide)
  exact ⟨_, scans, ends_pair, turns, fun holds => absent _ holds scanned,
    accountRecord, scanned, absent⟩

end Command

end Phrasebook

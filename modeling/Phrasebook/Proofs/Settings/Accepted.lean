import Phrasebook.Project.Load
import Phrasebook.Proofs.Outcome
import Phrasebook.Proofs.Text.Pieces
import Phrasebook.Settings.Json

set_option autoImplicit false

/-!
What settings from JSON promise once they are accepted, and when they can neither be accepted nor
refused.
-/
namespace Phrasebook

/-! ### The place for the locale -/

namespace Path

theorem part_infix_text {path : Path} {part : String} (member : part ∈ path.parts) :
    part.toList <:+: path.text.toList := by
  have parts : path.parts ≠ [] := List.ne_nil_of_mem member
  have inside : part.toList ∈ path.parts.map String.toList := List.mem_map_of_mem member
  rw [Path.text, if_neg fun none => parts none.2, String.toList_append, String.toList_intercalate]
  exact (Text.part_infix_intercalate inside).trans (List.suffix_append _ _).isInfix

/-- A word that is no slash, and more than one point, stands in a part of the path. -/
theorem exists_part_infix {word text : List Char} (whole : '/' ∉ word) (long : 1 < word.length)
    (inside : word <:+: text) :
    ∃ part ∈ (ofText (String.ofList text)).parts, word <:+: part.toList := by
  obtain ⟨piece, member, within⟩ := Text.exists_piece_infix whole inside
  have longer : 1 < piece.length := Nat.lt_of_lt_of_le long within.length_le
  refine ⟨String.ofList piece, ?_, by rwa [String.toList_ofList]⟩
  rw [ofText, List.mem_filter, String.toList_ofList]
  refine ⟨List.mem_map_of_mem member, ?_⟩
  have notEmpty : String.ofList piece ≠ "" := by
    intro empty
    have same := congrArg (List.length ∘ String.toList) empty
    simp only [Function.comp_apply, String.toList_ofList, String.toList_empty,
      List.length_nil] at same
    omega
  have notHere : String.ofList piece ≠ "." := by
    intro here
    have same := congrArg (List.length ∘ String.toList) here
    simp only [Function.comp_apply, String.toList_ofList] at same
    rw [same] at longer
    exact absurd longer (by decide)
  simp [notEmpty, notHere]

theorem part_mem_join {base path : Path} {part : String} (member : part ∈ path.parts) :
    part ∈ (base.join path).parts := by
  rw [join]
  split
  · exact List.mem_append_right _ member
  · exact member

end Path

/-- The place for the locale is still there when the path is seen from a directory. -/
theorem hasLocalePlaceholder_template {catalog : CatalogSettings}
    (placed : hasLocalePlaceholder catalog.path = true) (root : Path) :
    hasLocalePlaceholder (catalog.template root).text = true := by
  rw [hasLocalePlaceholder, Text.occurs_iff] at placed ⊢
  obtain ⟨part, member, inside⟩ := Path.exists_part_infix (by decide) (by decide) placed
  rw [String.ofList_toList] at member
  exact inside.trans (Path.part_infix_text (Path.part_mem_join member))

/-! ### Data from JSON -/

namespace Data

theorem get?_ofJsonEntries {key : String} {entries : List (Text.CodePoints × Json)} {value : Data}
    (found : get? key (ofJsonEntries entries) = some value) : ∃ json, value = ofJson json := by
  induction entries with
  | nil => cases found
  | cons entry entries ih =>
    rw [ofJsonEntries, get?, Dictionary.get?, List.lookup_cons] at found
    split at found
    · exact ⟨entry.2, (Option.some.inj found).symm⟩
    · exact ih found

theorem key_ofJsonEntries {entries : List (Text.CodePoints × Json)} {entry : Data × Data}
    (member : entry ∈ ofJsonEntries entries) : ∃ key, entry.1 = .text key := by
  induction entries with
  | nil => cases member
  | cons first entries ih =>
    rcases List.mem_cons.mp member with rfl | later
    · exact ⟨_, rfl⟩
    · exact ih later

theorem texts?_of_forall_text {items : List Data}
    (texts : ∀ item ∈ items, ∃ content, item = text content) :
    ∃ contents, texts? items = some contents := by
  induction items with
  | nil => exact ⟨[], rfl⟩
  | cons item items ih =>
    obtain ⟨⟨content, rfl⟩, later⟩ := List.forall_mem_cons.mp texts
    obtain ⟨contents, rest⟩ := ih later
    refine ⟨characters content :: contents, ?_⟩
    rw [texts?] at rest ⊢
    rw [List.mapM_cons, rest]
    rfl

theorem texts?_keys (entries : List (Text.CodePoints × Json)) (chosen : Data → Bool) :
    ∃ contents, texts? (((ofJsonEntries entries).map (·.1)).filter chosen) = some contents := by
  apply texts?_of_forall_text
  intro key kept
  obtain ⟨entry, member, rfl⟩ := List.mem_map.mp (List.mem_filter.mp kept).1
  exact key_ofJsonEntries member

end Data

namespace Settings

open Outcome (bind_eq_ok bind_eq_error mapM_eq_error)

/-! ### Refusals -/

/-- A failure that no rule about settings states. -/
def IsStray (failure : SettingsFailure) : Prop := ∀ error, failure ≠ .refused error

/-- A reading that fails, if at all, with a refusal. -/
def Refuses {α : Type} (reading : Reading α) : Prop :=
  ∀ failure, IsStray failure → reading ≠ .error failure

theorem refuses_ok {α : Type} (value : α) : Refuses (.ok value : Reading α) := nofun

theorem refuses_refuse {α : Type} (error : SettingsError) : Refuses (refuse error : Reading α) := by
  rintro failure stray failed
  exact stray error (Except.error.inj failed).symm

theorem Refuses.bind {α β : Type} {first : Reading α} {next : α → Reading β}
    (refuses : Refuses first) (later : ∀ value, Refuses (next value)) : Refuses (first >>= next) := by
  intro failure stray failed
  rcases bind_eq_error.mp failed with here | ⟨value, -, failed⟩
  · exact refuses failure stray here
  · exact later value failure stray failed

theorem Refuses.foldlM {α β : Type} {step : β → α → Reading β}
    (each : ∀ state item, Refuses (step state item)) (items : List α) (state : β) :
    Refuses (items.foldlM step state) := by
  induction items generalizing state with
  | nil => exact refuses_ok state
  | cons item items ih =>
    rw [List.foldlM_cons]
    exact (each state item).bind ih

theorem refuses_textsOf (key : String) (data : Data) : Refuses (textsOf key data) := by
  unfold textsOf
  split
  · exact refuses_ok _
  · split
    · exact refuses_ok _
    · exact refuses_refuse _
  · exact refuses_refuse _

theorem refuses_textsAt (key : String) (standard : List String) (entries : List (Data × Data)) :
    Refuses (textsAt key standard entries) := by
  unfold textsAt
  split
  · exact refuses_textsOf key _
  · exact refuses_ok _

/-- Keys that are texts can be listed in order, so that unknown ones are refused. -/
theorem refuses_readTags (standard : Extract.Tags) (kind : String) (json : Json) :
    Refuses (readTags standard kind (.ofJson json)) := by
  cases json with
  | null => exact refuses_ok _
  | object members =>
    rw [Data.ofJson, readTags]
    split
    · obtain ⟨contents, texts⟩ := Data.texts?_keys members fun key =>
        !(tagKeys.map Data.ofString).any (Data.sameKey key ·)
      rw [texts]
      exact refuses_refuse _
    · exact Refuses.foldlM (fun _ _ => (refuses_textsOf _ _).bind fun _ => refuses_ok _) _ _
  | _ => exact refuses_refuse _

theorem refuses_check (settings : Settings) : Refuses (check settings) := by
  unfold check
  repeat' split
  all_goals first | exact refuses_refuse _ | exact refuses_ok _

/-! ### Failures without a rule -/

variable {entries : List (Data × Data)} {failure : SettingsFailure}

theorem textAt_eq_error (key standard : String) :
    textAt key standard entries = .error failure ↔
      failure = .unwritable ∧ ∃ value, Data.get? key entries = some value ∧
        value.isWritable = false := by
  unfold textAt
  cases Data.get? key entries with
  | none => simp
  | some value =>
    cases writable : value.isWritable with
    | true => simp [writable]
    | false => simpa [writable] using eq_comm

theorem readCatalog_eq_error (stray : IsStray failure) :
    readCatalog entries = .error failure ↔
      failure = .unwritable ∧ ∃ path, Data.get? "path" entries = some path ∧
        path.isWritable = false := by
  have rest : ∀ path : String, Refuses (do
      let sources ← textsAt "include" CatalogSettings.standard.sources entries
      let excluded ← textsAt "exclude" CatalogSettings.standard.excluded entries
      .ok (⟨path, sources, excluded⟩ : CatalogSettings)) := fun path =>
    (refuses_textsAt _ _ _).bind fun _ => (refuses_textsAt _ _ _).bind fun _ => refuses_ok _
  rw [readCatalog, bind_eq_error, ← textAt_eq_error "path" CatalogSettings.standard.path]
  exact or_iff_left fun ⟨path, _, failed⟩ => rest path failure stray failed

theorem wholeNumber_eq_error (stray : IsStray failure) {value : Data} :
    wholeNumber value = .error failure ↔
      failure = .unbounded ∧ ∃ negative, value = .double (.infinity negative) := by
  constructor
  · intro failed
    unfold wholeNumber at failed
    split at failed
    case h_4 negative => exact ⟨(Except.error.inj failed).symm, negative, rfl⟩
    case h_5 =>
      split at failed
      · cases failed
      · exact absurd failed (refuses_refuse _ failure stray)
    case h_6 => exact absurd failed (refuses_refuse _ failure stray)
    all_goals cases failed
  · rintro ⟨rfl, negative, rfl⟩
    rfl

/-- One of the catalogs that are listed. -/
def readItem : Data → Reading CatalogSettings
  | .map entries => readCatalog entries
  | _ => refuse .catalogNotMapping

theorem readCatalogs_eq {value : Data} (some : value.isEmpty = false) :
    readCatalogs value = listed value >>= (·.mapM readItem) := by
  rw [readCatalogs, if_neg (Bool.eq_false_iff.mp some)]
  rfl

theorem readItem_eq_error (stray : IsStray failure) {item : Data} :
    readItem item = .error failure ↔ failure = .unwritable ∧ ∃ entries path,
      item = .map entries ∧ Data.get? "path" entries = some path ∧ path.isWritable = false := by
  cases item with
  | map entries => simp [readItem, readCatalog_eq_error stray]
  | _ =>
    constructor
    · exact fun failed => absurd failed (refuses_refuse _ failure stray)
    · rintro ⟨-, _, _, other, -⟩
      cases other

theorem listed_eq_error {value : Data} :
    listed value = .error failure ↔
      failure = .wrongKind ∧ ∀ items, listed value ≠ .ok items := by
  cases value <;> simp [listed, eq_comm]

/-- Of what JSON lists, only items of an array can be mappings. -/
theorem eq_list_of_listed {json : Json} {items : List Data} {entries : List (Data × Data)}
    (lists : listed (.ofJson json) = .ok items) (member : .map entries ∈ items) :
    Data.ofJson json = .list items := by
  cases json with
  | array members =>
    rw [← Except.ok.inj lists]
    rfl
  | object members =>
    rw [← Except.ok.inj lists] at member
    obtain ⟨entry, listed, same⟩ := List.mem_map.mp member
    obtain ⟨key, text⟩ := Data.key_ofJsonEntries listed
    cases text.symm.trans same
  | string points =>
    rw [← Except.ok.inj lists] at member
    obtain ⟨_, -, same⟩ := List.mem_map.mp member
    cases same
  | _ => cases lists

/-- The catalogs are stated by what can neither be gone through nor counts as absent. -/
def LacksItems (value : Data) : Prop :=
  value.isEmpty = false ∧ ∀ items, listed value ≠ .ok items

/-- After catalogs that are in order there is one whose path is a number, or holds a number, with too
many digits. -/
def HasLongPath (value : Data) : Prop :=
  ∃ before catalog after path, value = .list (before ++ .map catalog :: after) ∧
    (∀ item ∈ before, ∃ settings, readItem item = .ok settings) ∧
    Data.get? "path" catalog = some path ∧ path.isWritable = false

theorem readCatalogs_eq_error (stray : IsStray failure) {json : Json} :
    readCatalogs (.ofJson json) = .error failure ↔
      (failure = .wrongKind ∧ LacksItems (.ofJson json)) ∨
        (failure = .unwritable ∧ HasLongPath (.ofJson json)) := by
  cases empty : (Data.ofJson json).isEmpty with
  | true =>
    have lacks : ¬ LacksItems (.ofJson json) := fun lacks => nomatch empty.symm.trans lacks.1
    have short : ¬ HasLongPath (.ofJson json) := by
      rintro ⟨before, catalog, after, -, same, -⟩
      rw [same, Data.isEmpty] at empty
      simp at empty
    simp [readCatalogs, empty, lacks, short]
  | false =>
    rw [readCatalogs_eq empty, bind_eq_error, listed_eq_error, LacksItems]
    refine or_congr (by simp [empty]) ⟨?_, ?_⟩
    · rintro ⟨items, lists, failed⟩
      obtain ⟨before, item, after, rfl, earlier, failed⟩ := mapM_eq_error.mp failed
      obtain ⟨rfl, catalog, path, rfl, stated, long⟩ := (readItem_eq_error stray).mp failed
      exact ⟨rfl, before, catalog, after, path,
        eq_list_of_listed lists (List.mem_append_right _ List.mem_cons_self), earlier, stated, long⟩
    · rintro ⟨rfl, before, catalog, after, path, same, earlier, stated, long⟩
      refine ⟨_, congrArg listed same, mapM_eq_error.mpr ⟨before, _, after, rfl, earlier, ?_⟩⟩
      exact (readItem_eq_error stray).mpr ⟨rfl, catalog, path, rfl, stated, long⟩

/-! ### Settings that escape the rules -/

/-- The value of a key; what is absent is nothing. -/
abbrev valueAt (key : String) (entries : List (Data × Data)) : Data :=
  (Data.get? key entries).getD .null

theorem valueAt_ofJsonEntries (key : String) (members : List (Text.CodePoints × Json)) :
    ∃ json, valueAt key (Data.ofJsonEntries members) = .ofJson json := by
  rw [valueAt]
  cases stated : Data.get? key (Data.ofJsonEntries members) with
  | none => exact ⟨.null, rfl⟩
  | some value => exact Data.get?_ofJsonEntries stated

/-- The catalogs and the kinds of files, which come first, are in order. -/
structure StartsWell (entries : List (Data × Data)) : Prop where
  catalogs : ∃ catalogs, readCatalogs (valueAt "catalogs" entries) = .ok catalogs
  kinds : (valueAt "extractors" entries).isEmpty = true ∨
    ∃ kinds, valueAt "extractors" entries = .map kinds

/-- Settings are stated in a way that no rule is about, so that reading them fails without being a
refusal. -/
inductive Escapes (entries : List (Data × Data)) : SettingsFailure → Prop
  | catalogs (lacks : LacksItems (valueAt "catalogs" entries)) : Escapes entries .wrongKind
  | path (long : HasLongPath (valueAt "catalogs" entries)) : Escapes entries .unwritable
  | workers (start : StartsWell entries) {negative : Bool}
      (endless : Data.get? "max_workers" entries = some (.double (.infinity negative))) :
      Escapes entries .unbounded
  | source (start : StartsWell entries) {number : Int}
      (workers : wholeNumber ((Data.get? "max_workers" entries).getD (.int 4)) = .ok number)
      {value : Data} (stated : Data.get? "source_locale" entries = some value)
      (long : value.isWritable = false) : Escapes entries .unwritable

/-- The kinds of files for which names are stated. -/
def readKinds : Data → Reading (List (Data × Data))
  | .map kinds => .ok kinds
  | other => if other.isEmpty then .ok [] else refuse .tagsNotMapping

theorem refuses_readKinds (value : Data) : Refuses (readKinds value) := by
  unfold readKinds
  split
  · exact refuses_ok _
  · split
    · exact refuses_ok _
    · exact refuses_refuse _

theorem exists_readKinds {value : Data} :
    (∃ kinds, readKinds value = .ok kinds) ↔
      value.isEmpty = true ∨ ∃ kinds, value = .map kinds := by
  cases value with
  | map kinds => simp [readKinds]
  | _ =>
    rw [readKinds]
    split <;> simp_all [refuse]
    all_goals nofun

/-- What is read after the source locale. -/
def readRest (entries kinds : List (Data × Data)) (catalogs : List CatalogSettings) (workers : Int)
    (source : String) : Reading Settings := do
  let locales ← textsAt "locales" Settings.standard.locales entries
  let components ← readTags Settings.standard.tags.component "svelte" (valueAt "svelte" kinds)
  let scripts ← readTags Settings.standard.tags.script "script" (valueAt "script" kinds)
  check ⟨source, locales, catalogs, workers, ⟨components, scripts⟩⟩

theorem ofData_map (entries : List (Data × Data)) :
    ofData (.map entries) = (do
      let catalogs ← readCatalogs (valueAt "catalogs" entries)
      let kinds ← readKinds (valueAt "extractors" entries)
      let workers ← wholeNumber ((Data.get? "max_workers" entries).getD (.int 4))
      let source ← textAt "source_locale" Settings.standard.sourceLocale entries
      readRest entries kinds catalogs workers source) := by
  rw [ofData, valueAt, valueAt]
  refine Outcome.bind_congr_ok fun catalogs _ => ?_
  generalize (Data.get? "extractors" entries).getD .null = value
  split
  · rfl
  · rename_i unmapped
    rw [readKinds]
    · split <;> rfl
    · exact unmapped

theorem readKinds_ofJson {json : Json} {kinds : List (Data × Data)}
    (read : readKinds (.ofJson json) = .ok kinds) : ∃ members, kinds = Data.ofJsonEntries members := by
  cases json with
  | object members => exact ⟨members, (Except.ok.inj read).symm⟩
  | _ =>
    rw [Data.ofJson, readKinds] at read
    · split at read
      · exact ⟨[], (Except.ok.inj read).symm⟩
      · cases read
    · nofun

theorem refuses_readRest {members : List (Text.CodePoints × Json)} {kinds : List (Data × Data)}
    (read : readKinds (valueAt "extractors" (Data.ofJsonEntries members)) = .ok kinds)
    (entries : List (Data × Data)) (catalogs : List CatalogSettings) (workers : Int)
    (source : String) : Refuses (readRest entries kinds catalogs workers source) := by
  obtain ⟨json, extractors_eq⟩ := valueAt_ofJsonEntries "extractors" members
  rw [extractors_eq] at read
  obtain ⟨members, rfl⟩ := readKinds_ofJson read
  obtain ⟨components, components_eq⟩ := valueAt_ofJsonEntries "svelte" members
  obtain ⟨scripts, scripts_eq⟩ := valueAt_ofJsonEntries "script" members
  rw [readRest, components_eq, scripts_eq]
  exact (refuses_textsAt _ _ _).bind fun _ => (refuses_readTags _ _ _).bind fun _ =>
    (refuses_readTags _ _ _).bind fun _ => refuses_check _

theorem readCatalogs_stated_eq_error (stray : IsStray failure)
    (members : List (Text.CodePoints × Json)) :
    readCatalogs (valueAt "catalogs" (Data.ofJsonEntries members)) = .error failure ↔
      (failure = .wrongKind ∧ LacksItems (valueAt "catalogs" (Data.ofJsonEntries members))) ∨
        (failure = .unwritable ∧
          HasLongPath (valueAt "catalogs" (Data.ofJsonEntries members))) := by
  obtain ⟨json, catalogs_eq⟩ := valueAt_ofJsonEntries "catalogs" members
  rw [catalogs_eq]
  exact readCatalogs_eq_error stray

/-- After a good start come the number of workers, the source locale and the rest. -/
theorem StartsWell.ofData_eq {entries : List (Data × Data)} (start : StartsWell entries) :
    ∃ kinds catalogs, ofData (.map entries) = (do
      let workers ← wholeNumber ((Data.get? "max_workers" entries).getD (.int 4))
      let source ← textAt "source_locale" Settings.standard.sourceLocale entries
      readRest entries kinds catalogs workers source) := by
  obtain ⟨catalogs, catalogsRead⟩ := start.catalogs
  obtain ⟨kinds, kindsRead⟩ := exists_readKinds.mpr start.kinds
  refine ⟨kinds, catalogs, ?_⟩
  rw [ofData_map, catalogsRead, Outcome.ok_bind, kindsRead, Outcome.ok_bind]

/-- What is no refusal comes from one of the ways around the rules. -/
theorem escapes_of_ofData (stray : IsStray failure) {members : List (Text.CodePoints × Json)}
    (failed : ofData (.map (Data.ofJsonEntries members)) = .error failure) :
    Escapes (Data.ofJsonEntries members) failure := by
  rw [ofData_map] at failed
  obtain failed | ⟨catalogs, catalogsRead, failed⟩ := bind_eq_error.mp failed
  · rcases (readCatalogs_stated_eq_error stray members).mp failed with ⟨rfl, lacks⟩ | ⟨rfl, long⟩
    · exact .catalogs lacks
    · exact .path long
  obtain failed | ⟨kinds, kindsRead, failed⟩ := bind_eq_error.mp failed
  · exact absurd failed (refuses_readKinds _ failure stray)
  have start : StartsWell (Data.ofJsonEntries members) :=
    ⟨⟨catalogs, catalogsRead⟩, exists_readKinds.mp ⟨kinds, kindsRead⟩⟩
  obtain failed | ⟨workers, workersRead, failed⟩ := bind_eq_error.mp failed
  · obtain ⟨rfl, negative, endless⟩ := (wholeNumber_eq_error stray).mp failed
    -- The standard number of workers is bounded, so the key is there.
    cases stated : Data.get? "max_workers" (Data.ofJsonEntries members) with
    | none =>
      rw [stated] at endless
      cases endless
    | some value =>
      rw [stated] at endless
      exact .workers start (stated.trans (congrArg some endless))
  obtain failed | ⟨source, -, failed⟩ := bind_eq_error.mp failed
  · obtain ⟨rfl, value, stated, long⟩ := (textAt_eq_error _ _).mp failed
    exact .source start workersRead stated long
  · exact absurd failed (refuses_readRest kindsRead _ _ _ _ failure stray)

theorem ofData_map_eq_error (stray : IsStray failure) (members : List (Text.CodePoints × Json)) :
    ofData (.map (Data.ofJsonEntries members)) = .error failure ↔
      Escapes (Data.ofJsonEntries members) failure := by
  refine ⟨escapes_of_ofData stray, ?_⟩
  rintro (lacks | long | ⟨start, endless⟩ | ⟨start, workers, stated, long⟩)
  · rw [ofData_map, (readCatalogs_stated_eq_error stray members).mpr (.inl ⟨rfl, lacks⟩)]
    rfl
  · rw [ofData_map, (readCatalogs_stated_eq_error stray members).mpr (.inr ⟨rfl, long⟩)]
    rfl
  · obtain ⟨kinds, catalogs, reading⟩ := start.ofData_eq
    rw [reading, endless]
    rfl
  · obtain ⟨kinds, catalogs, reading⟩ := start.ofData_eq
    rw [reading, workers, Outcome.ok_bind, (textAt_eq_error _ _).mpr ⟨rfl, _, stated, long⟩]
    rfl

/-! ### Accepted settings -/

/-- What every use of settings relies on. -/
structure IsUsable (root : Path) (settings : Settings) : Prop where
  someLocale : settings.locales ≠ []
  sourceListed : settings.sourceLocale ∈ settings.locales
  someWorker : 1 ≤ settings.workers
  catalogFiles : ∀ catalog ∈ settings.catalogs,
    ∃ files, (Project.mk root settings).catalogFiles catalog = .ok files

theorem catalogFiles_of_placeholder {catalog : CatalogSettings}
    (placed : hasLocalePlaceholder catalog.path = true) (project : Project) :
    ∃ files, project.catalogFiles catalog = .ok files := by
  have placed := hasLocalePlaceholder_template placed project.root
  exact ⟨⟨⟨_, placed⟩, project.settings.sourceLocale⟩,
    by simp only [Project.catalogFiles, CatalogFiles.ofTemplate, Catalog.Template.ofText?, placed,
      ↓reduceDIte]⟩

theorem isUsable_of_check {settings accepted : Settings} (passed : check settings = .ok accepted)
    (root : Path) : IsUsable root accepted := by
  unfold check at passed
  split at passed
  · cases passed
  rename_i someLocale
  split at passed
  · cases passed
  rename_i sourceListed
  split at passed
  · cases passed
  rename_i someWorker
  split at passed
  · cases passed
  rename_i placed
  obtain rfl := Except.ok.inj passed
  refine ⟨someLocale, by simpa using sourceListed, Int.not_lt.mp someWorker, fun catalog member => ?_⟩
  have found := List.find?_eq_none.mp placed catalog member
  exact catalogFiles_of_placeholder (by simpa using found) _

theorem isUsable_of_ofData {data : Data} {settings : Settings} (read : ofData data = .ok settings)
    (root : Path) : IsUsable root settings := by
  cases data with
  | map entries =>
    rw [ofData_map] at read
    obtain ⟨catalogs, -, read⟩ := bind_eq_ok.mp read
    obtain ⟨kinds, -, read⟩ := bind_eq_ok.mp read
    obtain ⟨workers, -, read⟩ := bind_eq_ok.mp read
    obtain ⟨source, -, read⟩ := bind_eq_ok.mp read
    obtain ⟨locales, -, read⟩ := bind_eq_ok.mp read
    obtain ⟨components, -, read⟩ := bind_eq_ok.mp read
    obtain ⟨scripts, -, read⟩ := bind_eq_ok.mp read
    exact isUsable_of_check read root
  | _ => cases read

/-- Settings that are accepted are usable. Reading settings fails with something else than a refusal
exactly when they are stated in one of four ways that no rule is about. -/
theorem ofData_ofJson (json : Json) (root : Path) :
    (∀ settings, ofData (.ofJson json) = .ok settings → IsUsable root settings) ∧
      ∀ failure, IsStray failure → (ofData (.ofJson json) = .error failure ↔
        ∃ entries, Data.ofJson json = .map entries ∧ Escapes entries failure) := by
  refine ⟨fun settings read => isUsable_of_ofData read root, fun failure stray => ?_⟩
  cases json with
  | object members =>
    rw [Data.ofJson, ofData_map_eq_error stray]
    exact ⟨fun escapes => ⟨_, rfl, escapes⟩, fun ⟨_, same, escapes⟩ => Data.map.inj same ▸ escapes⟩
  | _ =>
    constructor
    · exact fun failed => absurd failed (refuses_refuse _ failure stray)
    · rintro ⟨_, other, -⟩
      cases other

local instance decidableOutcome {ε α : Type} [DecidableEq ε] [DecidableEq α] :
    DecidableEq (Except ε α)
  | .ok a, .ok b => decidable_of_iff (a = b) ⟨congrArg _, Except.ok.inj⟩
  | .error a, .error b => decidable_of_iff (a = b) ⟨congrArg _, Except.error.inj⟩
  | .ok _, .error _ => .isFalse nofun
  | .error _, .ok _ => .isFalse nofun

/-- Two locales, and all else as it is by default. -/
theorem isUsable_two_locales :
    IsUsable ⟨.root, ["srv"]⟩ { Settings.standard with locales := ["en", "ja"] } ∧
      ¬ ∃ entries, Data.ofJson (.ofEntries [("max_workers", .ofNat 0)]) = .map entries ∧
        Escapes entries .unbounded := by
  refine ⟨?_, fun escapes => ?_⟩
  · exact (ofData_ofJson (.ofEntries [("locales", .array [.ofString "en", .ofString "ja"])])
      ⟨.root, ["srv"]⟩).1 _ (by decide +kernel)
  · have failed := ((ofData_ofJson (.ofEntries [("max_workers", .ofNat 0)]) ⟨.root, ["srv"]⟩).2
      .unbounded nofun).mpr escapes
    exact absurd failed (by decide +kernel)

/-- A number in the place of the catalogs, and a number of workers without bound, are neither
accepted nor refused. -/
theorem stray_scalars :
    ofData (.ofJson (.ofEntries [("catalogs", .ofNat 5)])) = .error .wrongKind ∧
      ofData (.ofJson (.ofEntries [("max_workers", .double (.infinity false))])) =
        .error .unbounded ∧
      IsStray .wrongKind ∧ IsStray .unbounded :=
  ⟨by decide +kernel, by decide +kernel, nofun, nofun⟩

end Settings

end Phrasebook

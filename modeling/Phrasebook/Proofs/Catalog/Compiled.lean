import Phrasebook.Catalog.Compiled
import Phrasebook.Proofs.Catalog.Files
import Phrasebook.Proofs.Catalog.Merging
import Phrasebook.Proofs.Json.Texts
import Phrasebook.Proofs.Text.Utf8
import Phrasebook.Translate

set_option autoImplicit false

/-!
From a catalog to the application. What is compiled and written is read back as it was compiled, and
looking a message up there finds the last translation of it in the catalog that an application may
use; without one it finds the message itself.
-/
namespace Phrasebook

open Catalog (Header)
open Outcome (bind_eq_ok)

/-! ### Looking up what was compiled -/

/-- No context and an empty one make the same id. -/
theorem Message.identifier_congr {message : String} {context other : Option String}
    (same : Catalog.properContext context = Catalog.properContext other) :
    identifier message context = identifier message other := by
  have text : ∀ context : Option String,
      context.getD "" = (Catalog.properContext context).getD "" := by
    intro context
    rcases Catalog.properContext_cases context with proper | ⟨blank, none⟩
    · rw [proper]
    · rw [none, blank]
      rfl
  rw [identifier, identifier, text context, text other, same]

namespace Catalog

/-- The text that an entry gives for a message: none if it is of another message, if it is in doubt
or if it has no translation. -/
def Entry.textFor? (message : String) (context : Option String) (entry : Entry) : Option String :=
  match entry.id, entry.translation with
  | .single id, .single text =>
    if id = message ∧ properContext entry.context = properContext context ∧
        entry.isFuzzy = false ∧ text.isEmpty = false then some text
    else none
  | _, _ => none

/-- The text that an application shows for a message: the last one that an entry gives, or the
message itself. -/
def textFor (catalog : Catalog) (message : String) (context : Option String) : String :=
  (catalog.all.filterMap (Entry.textFor? message context)).getLast?.getD message

/-- The entries whose ids are that of a message are entries of that message. -/
def IsApart (catalog : Catalog) (message : String) (context : Option String) : Prop :=
  ∀ entry ∈ catalog.all, ∀ id, entry.id = .single id →
    Message.identifier id entry.context = Message.identifier message context →
      id = message ∧ properContext entry.context = properContext context

theorem textFor?_given {message : String} {context : Option String} {entry : Entry}
    {text : String} (given : entry.textFor? message context = some text) :
    text.isEmpty = false := by
  unfold Entry.textFor? at given
  split at given
  · split at given
    · rename_i conditions
      rw [← Option.some.inj given]
      exact conditions.2.2.2
    · cases given
  · cases given

/-- What is compiled of an entry is the text that it gives for the message of its id. -/
theorem usable?_textFor? {message : String} {context : Option String} {entry : Entry}
    (visible : entry.isHeader = false)
    (apart : ∀ id, entry.id = .single id →
      Message.identifier id entry.context = Message.identifier message context →
        id = message ∧ properContext entry.context = properContext context) :
    ((usable? entry).bind fun pair =>
      if pair.1 == Message.identifier message context then some pair.2 else none) =
      entry.textFor? message context := by
  unfold usable? Entry.textFor?
  cases spelled : entry.id with
  | forms texts => rfl
  | single id =>
    cases translated : entry.translation with
    | forms texts => rfl
    | single text =>
      have named : id.isEmpty = false := by
        by_contra empty
        have blank : id = "" := by simpa using empty
        rw [blank] at spelled
        simp [Entry.isHeader, spelled] at visible
      by_cases use : entry.isFuzzy = false ∧ text.isEmpty = false
      · have own : Message.identifier id entry.context = Message.identifier message context ↔
            id = message ∧ properContext entry.context = properContext context := by
          constructor
          · exact apart id spelled
          · rintro ⟨rfl, same⟩
            exact Message.identifier_congr same
        simp [named, use, own]
      · have unused : (id.isEmpty || entry.isFuzzy || text.isEmpty) = true := by
          rw [named, Bool.false_or, Bool.or_eq_true]
          rcases Bool.eq_false_or_eq_true entry.isFuzzy with fuzzy | sure
          · exact .inl fuzzy
          · refine .inr ?_
            by_contra full
            exact use ⟨sure, by simpa using full⟩
        dsimp only
        rw [if_pos unused, if_neg (fun all => use all.2.2)]
        rfl

/-- Looking a message up in what was compiled finds the text for it. -/
theorem lookup_compile {catalog : Catalog} (keyed : catalog.WellKeyed) {message : String}
    {context : Option String} (apart : catalog.IsApart message context) :
    lookup message context catalog.compile = catalog.textFor message context := by
  have found : catalog.compile.get? (Message.identifier message context) =
      (catalog.all.filterMap (Entry.textFor? message context)).getLast? := by
    rw [compile, Dictionary.get?_ofPairs, List.filterMap_filterMap]
    refine congrArg List.getLast? (List.filterMap_congr fun entry member => ?_)
    obtain ⟨key, present⟩ := mem_all.mp member
    exact usable?_textFor? (keyed.shown _ present) (apart entry member)
  rw [lookup, found, textFor]
  cases last : (catalog.all.filterMap (Entry.textFor? message context)).getLast? with
  | none => rfl
  | some text =>
    obtain ⟨entry, -, given⟩ := List.mem_filterMap.mp (List.mem_of_getLast? last)
    dsimp only
    rw [textFor?_given given]
    rfl

end Catalog

/-! ### Files -/

namespace Catalog

/-- The entries of a compiled catalog as they stand in its file. -/
def inOrder (compiled : Dictionary String String) : Dictionary String String :=
  compiled.mergeSort fun a b => a.1 ≤ b.1

theorem compiledText_eq (compiled : Dictionary String String) :
    compiledText compiled = Text.CodePoints.ofChars (Json.objectChars (inOrder compiled)) :=
  Json.write_ofTexts (inOrder compiled)

theorem keys_inOrder {compiled : Dictionary String String} (once : (Dictionary.keys compiled).Nodup) :
    (Dictionary.keys (inOrder compiled)).Nodup :=
  ((List.mergeSort_perm compiled _).map _).nodup_iff.mpr once

theorem get?_inOrder {compiled : Dictionary String String}
    (once : (Dictionary.keys compiled).Nodup) (key : String) :
    (inOrder compiled).get? key = compiled.get? key := by
  have perm : (inOrder compiled).Perm compiled := List.mergeSort_perm compiled _
  cases found : compiled.get? key with
  | none =>
    rw [Dictionary.get?_eq_none] at found ⊢
    intro present
    exact found ((perm.map _).mem_iff.mp present)
  | some text =>
    have member := perm.mem_iff.mpr (Dictionary.mem_of_get? found)
    exact Dictionary.get?_of_mem (keys_inOrder once) member

end Catalog

namespace CompiledCatalog

/-- Texts under texts, as a file may hold them. -/
def ofTexts (entries : Dictionary String String) : CompiledCatalog :=
  entries.map fun (id, text) => (Text.CodePoints.ofString id, Text.CodePoints.ofString text)

theorem texts_ofTexts (entries : Dictionary String String) : (ofTexts entries).texts = entries := by
  induction entries with
  | nil => rfl
  | cons entry rest ih =>
    have same : (ofTexts rest).texts = rest := ih
    simp only [texts, ofTexts, List.map_cons, List.filterMap_cons,
      Text.CodePoints.toString?_ofString] at same ⊢
    rw [same]
    rfl

theorem ofJson?_ofTexts (entries : Dictionary String String) :
    ofJson? (Json.ofTexts entries) = some (ofTexts entries) := by
  unfold Json.ofTexts Json.ofEntries ofJson? ofTexts
  rw [List.map_map]
  induction entries with
  | nil => rfl
  | cons entry rest ih =>
    dsimp only at ih ⊢
    rw [List.map_cons, List.mapM_cons, ih]
    rfl

/-- A file that holds the text of a compiled catalog is read as that catalog. -/
theorem read_written {tree : FileTree} {path : Path} {compiled : Dictionary String String}
    (once : (Dictionary.keys compiled).Nodup)
    (stored : tree.readBytes path =
      .ok (Text.encode (((Catalog.compiledText compiled).toChars?).getD []))) :
    read tree path = .ok (ofTexts (Catalog.inOrder compiled)) := by
  rw [Catalog.compiledText_eq, Text.CodePoints.toChars?_ofChars, Option.getD_some] at stored
  have decoded := Text.decode_encode (Json.objectChars (Catalog.inOrder compiled))
  have value := Json.read_objectChars (Catalog.keys_inOrder once)
  rw [read, stored]
  simp only [Except.mapError, Outcome.ok_bind, decoded, value, ofJson?_ofTexts]

end CompiledCatalog

namespace CatalogFiles

/-- A catalog that can be loaded is compiled whenever its file can be written, and what was compiled
is loaded afterwards. -/
theorem loadCompiled_compile [Catalog.Codecs] {files : CatalogFiles} {tree : FileTree}
    {locale : String} {header : Header} {catalog : Catalog}
    (loaded : files.load tree locale = .ok (header, catalog))
    (writable : ∃ written, tree.store (files.template.compiledPath locale) [] = .ok written) :
    ∃ after, files.compile tree locale = .ok (catalog.compile, after) ∧
      files.loadCompiled after locale =
        .ok (CompiledCatalog.ofTexts (Catalog.inOrder catalog.compile)) := by
  obtain ⟨written, possible⟩ := writable
  obtain ⟨after, stored⟩ := FileTree.store_any possible
    (Text.encode (((Catalog.compiledText catalog.compile).toChars?).getD []))
  obtain ⟨bytes, present⟩ := FileTree.readBytes_stored stored
  refine ⟨after, ?_, ?_⟩
  · unfold compile
    rw [loaded, Outcome.ok_bind]
    dsimp only
    rw [stored]
    rfl
  · unfold loadCompiled
    dsimp only
    rw [if_pos present]
    exact CompiledCatalog.read_written (Dictionary.nodup_ofPairs _) bytes

/-- What has been compiled is loaded afterwards. -/
theorem loadCompiled_of_compile [Catalog.Codecs] {files : CatalogFiles} {tree after : FileTree}
    {locale : String} {compiled : Dictionary String String}
    (made : files.compile tree locale = .ok (compiled, after)) :
    files.loadCompiled after locale =
      .ok (CompiledCatalog.ofTexts (Catalog.inOrder compiled)) := by
  obtain ⟨⟨header, catalog⟩, loaded, written⟩ := bind_eq_ok.mp made
  obtain ⟨stored, possible, rest⟩ := bind_eq_ok.mp written
  obtain ⟨same, rfl⟩ := Prod.mk.inj (Except.ok.inj rest)
  obtain ⟨other, again, read⟩ := loadCompiled_compile loaded
    (FileTree.store_any (Outcome.mapError_eq_ok.mp possible) [])
  obtain ⟨rfl, rfl⟩ := Prod.mk.inj (Except.ok.inj (again.symm.trans made))
  exact read

/-- Looking a message up in what is loaded finds the text for it in the catalog. -/
theorem lookup_loaded {catalog : Catalog} (keyed : catalog.WellKeyed) {message : String}
    {context : Option String} (apart : catalog.IsApart message context) :
    lookup message context (CompiledCatalog.ofTexts (Catalog.inOrder catalog.compile)).texts =
      catalog.textFor message context := by
  have once : (Dictionary.keys catalog.compile).Nodup := Dictionary.nodup_ofPairs _
  have same := Catalog.get?_inOrder once (Message.identifier message context)
  rw [CompiledCatalog.texts_ofTexts, ← Catalog.lookup_compile keyed apart, lookup, same]
  rfl

/-- Whatever catalog is loaded from a file: it is compiled if its compiled file can be written; and if
no entry of another message has the id of a message, then looking up that message in what is loaded
afterwards gives the last text that an active entry of it gives, or the message itself. -/
theorem lookup_compiled [Catalog.Codecs] {files : CatalogFiles} {tree : FileTree} {locale : String}
    {header : Header} {catalog : Catalog} (loaded : files.load tree locale = .ok (header, catalog))
    (writable : ∃ written, tree.store (files.template.compiledPath locale) [] = .ok written) :
    ∃ after stored, files.compile tree locale = .ok (catalog.compile, after) ∧
      files.loadCompiled after locale = .ok stored ∧
      ∀ message context, catalog.IsApart message context →
        lookup message context stored.texts = catalog.textFor message context := by
  obtain ⟨after, compiled, stored⟩ := loadCompiled_compile loaded writable
  refine ⟨after, _, compiled, stored, ?_⟩
  intro message context apart
  exact lookup_loaded (load_wellKeyed loaded) apart

/-! ### Two catalogs -/

theorem writable_of_isSome {tree : FileTree} {path : Path}
    (computed : (tree.store path []).toOption.isSome = true) :
    ∃ written, tree.store path [] = .ok written := by
  cases result : tree.store path [] with
  | error fault =>
    rw [result] at computed
    cases computed
  | ok written => exact ⟨written, rfl⟩

/-- A translation with a context, one that is in doubt, and an obsolete one. -/
def frenchText : String :=
  "msgctxt \"menu\"\nmsgid \"open\"\nmsgstr \"ouvrir\"\n\n#, fuzzy\nmsgid \"shut\"\n" ++
    "msgstr \"fermer\"\n\n#~ msgid \"exit\"\n#~ msgstr \"sortir\"\n"

theorem lookup_compiled_french :
    ∃ after stored, (localeFiles.compile (treeOf "fr.po" frenchText) "fr").map (·.2) = .ok after ∧
      localeFiles.loadCompiled after "fr" = .ok stored ∧
      lookup "open" (some "menu") stored.texts = "ouvrir" ∧
      lookup "shut" none stored.texts = "shut" := by
  obtain ⟨header, catalog, loaded, all⟩ := load_of_all (treeOf "fr.po" frenchText) "fr"
    [⟨.single "open", .single "ouvrir", some "menu", [], [], [], []⟩,
      ⟨.single "shut", .single "fermer", none, [], [.fuzzy], [], []⟩] (by decide +kernel)
  obtain ⟨after, stored, compiled, read, found⟩ :=
    lookup_compiled loaded (writable_of_isSome (by decide +kernel))
  have different : Message.identifier "open" (some "menu") ≠ Message.identifier "shut" none := by
    decide +kernel
  have apart : catalog.IsApart "open" (some "menu") ∧ catalog.IsApart "shut" none := by
    unfold Catalog.IsApart
    rw [all]
    constructor
    · intro entry member id spelled same
      simp only [List.mem_cons, List.not_mem_nil, or_false] at member
      rcases member with rfl | rfl
      · cases spelled
        exact ⟨rfl, rfl⟩
      · cases spelled
        exact absurd same.symm different
    · intro entry member id spelled same
      simp only [List.mem_cons, List.not_mem_nil, or_false] at member
      rcases member with rfl | rfl
      · cases spelled
        exact absurd same different
      · cases spelled
        exact ⟨rfl, rfl⟩
  refine ⟨after, stored, by rw [compiled]; rfl, read, ?_, ?_⟩
  · rw [found _ _ apart.1, Catalog.textFor, all]
    decide
  · rw [found _ _ apart.2, Catalog.textFor, all]
    decide

/-- One message without a context, and once more with a context that is written but empty. -/
def twinsText : String :=
  "msgid \"\"\nmsgstr \"\"\n\"Content-Type: text/plain; charset=utf-8\\n\"\n\n" ++
    "msgid \"m\"\nmsgstr \"A\"\n\nmsgctxt \"\"\nmsgid \"m\"\nmsgstr \"B\"\n"

/-- The active entry without a context is translated and not in doubt, but the application shows the
translation of the other one. -/
theorem lookup_compiled_twins :
    ∃ header catalog after stored,
      localeFiles.load (treeOf "ja.po" twinsText) "ja" = .ok (header, catalog) ∧
      localeFiles.compile (treeOf "ja.po" twinsText) "ja" = .ok (catalog.compile, after) ∧
      localeFiles.loadCompiled after "ja" = .ok stored ∧ catalog.IsApart "m" none ∧
      ⟨.single "m", .single "A", none, [], [], [], []⟩ ∈ catalog.all ∧
      lookup "m" none stored.texts = "B" := by
  obtain ⟨header, catalog, loaded, all⟩ := load_of_all (treeOf "ja.po" twinsText) "ja"
    [⟨.single "m", .single "A", none, [], [], [], []⟩,
      ⟨.single "m", .single "B", some "", [], [], [], []⟩] (by decide +kernel)
  obtain ⟨after, compiled, read⟩ :=
    loadCompiled_compile loaded (writable_of_isSome (by decide +kernel))
  have apart : catalog.IsApart "m" none := by
    unfold Catalog.IsApart
    rw [all]
    intro entry member id spelled same
    simp only [List.mem_cons, List.not_mem_nil, or_false] at member
    rcases member with rfl | rfl
    · cases spelled
      exact ⟨rfl, rfl⟩
    · cases spelled
      exact ⟨rfl, rfl⟩
  refine ⟨header, catalog, after, _, loaded, compiled, read, apart, ?_, ?_⟩
  · rw [all]
    exact List.mem_cons_self
  · rw [lookup_loaded (load_wellKeyed loaded) apart, Catalog.textFor, all]
    decide

end CatalogFiles

end Phrasebook

import Phrasebook.Catalog.Files
import Phrasebook.Proofs.Catalog.Header
import Phrasebook.Proofs.Catalog.Written
import Phrasebook.Proofs.Files.Stored

set_option autoImplicit false

/-!
Catalogs and their files: what every catalog that is loaded satisfies, and that a catalog that has been
saved is loaded as it was written.
-/
namespace Phrasebook

open Catalog (Header)
open Extract (UniqueMessage)
open Outcome (bind_eq_ok)

theorem Catalog.isLocaleName_of_read [Catalog.Codecs] {locale : String} {bytes : List UInt8}
    {header : Header} {catalog : Catalog}
    (loaded : Catalog.read locale bytes = .ok (header, catalog)) :
    Catalog.isLocaleName locale = true := by
  simp only [Catalog.read] at loaded
  split at loaded
  · simp at loaded
  · rename_i named
    simpa using named

namespace CatalogFiles

variable {files : CatalogFiles} {tree after : FileTree} {locale : String} {header : Header}
  {catalog : Catalog}

/-- A catalog is loaded from bytes, or it is empty. -/
theorem load_cases [Catalog.Codecs] (loaded : files.load tree locale = .ok (header, catalog)) :
    (∃ bytes, Catalog.read locale bytes = .ok (header, catalog)) ∨
      Catalog.isLocaleName locale = true ∧ header = .ofLocale locale ∧ catalog = .empty := by
  unfold load at loaded
  dsimp only at loaded
  split at loaded
  · obtain ⟨bytes, -, loaded⟩ := bind_eq_ok.mp loaded
    cases result : Catalog.read locale bytes with
    | ok pair =>
      rw [result] at loaded
      cases loaded
      exact .inl ⟨bytes, result⟩
    | error fault =>
      rw [result] at loaded
      cases loaded
  · split at loaded
    · rename_i named
      cases loaded
      exact .inr ⟨named, rfl, rfl⟩
    · cases loaded

theorem isLocaleName_of_load [Catalog.Codecs]
    (loaded : files.load tree locale = .ok (header, catalog)) :
    Catalog.isLocaleName locale = true := by
  rcases load_cases loaded with ⟨bytes, read⟩ | ⟨named, -, -⟩
  · exact Catalog.isLocaleName_of_read read
  · exact named

theorem load_wellKeyed [Catalog.Codecs] (loaded : files.load tree locale = .ok (header, catalog)) :
    catalog.WellKeyed := by
  rcases load_cases loaded with ⟨bytes, read⟩ | ⟨-, -, rfl⟩
  · exact Catalog.read_wellKeyed read
  · exact Catalog.empty_wellKeyed

theorem load_uniform [Catalog.Codecs] (loaded : files.load tree locale = .ok (header, catalog)) :
    ∀ entry ∈ catalog.all, entry.IsUniform := by
  rcases load_cases loaded with ⟨bytes, read⟩ | ⟨-, -, rfl⟩
  · exact Catalog.read_uniform read
  · exact fun _ member => nomatch member

theorem load_sound [Catalog.Codecs] (named : Header.IsFieldName locale)
    (loaded : files.load tree locale = .ok (header, catalog)) : header.IsSound := by
  rcases load_cases loaded with ⟨bytes, read⟩ | ⟨-, rfl, -⟩
  · exact Catalog.read_sound named read
  · exact ⟨named, nofun⟩

/-! ### Saving -/

theorem save_eq_ok : files.save tree locale header catalog = .ok after ↔
    tree.store (files.template.catalogPath locale) (Catalog.write header catalog) = .ok after := by
  unfold save
  cases tree.store (files.template.catalogPath locale) (Catalog.write header catalog) with
  | error fault => simp [Except.mapError]
  | ok stored => simp [Except.mapError]

/-- A catalog that has been saved is loaded as it is read from what is written. -/
theorem load_save [Catalog.Codecs] (named : Catalog.isLocaleName locale = true)
    (steady : header.IsSteady) (unicode : header.charset.isUtf8 = true) (keyed : catalog.WellKeyed)
    (plain : catalog.Plain) (saved : files.save tree locale header catalog = .ok after) :
    files.load after locale = .ok (header.asRead, catalog.asRead) := by
  obtain ⟨bytes, present⟩ := FileTree.readBytes_stored (save_eq_ok.mp saved)
  have stated := Header.read_text locale steady unicode
  have read : Catalog.read locale (Catalog.write header catalog) =
      .ok (header.asRead, catalog.asRead) :=
    Catalog.read_write named unicode stated unicode plain fun entry member =>
      keyed.first_ne member (plain.active entry member)
  unfold load
  dsimp only
  rw [if_pos present, bytes]
  refine (Outcome.ok_bind ..).trans ?_
  rw [read]
  rfl

/-- Where a catalog has been saved, another one can be. -/
theorem save_again (saved : files.save tree locale header catalog = .ok after) (other : Header)
    (changed : Catalog) : ∃ another, files.save after locale other changed = .ok another := by
  obtain ⟨another, stored⟩ :=
    FileTree.store_again (save_eq_ok.mp saved) (Catalog.write other changed)
  exact ⟨another, save_eq_ok.mpr stored⟩

/-- A merge saves what becomes of the catalog that is loaded. -/
theorem merge_eq_ok [Catalog.Codecs] (loaded : files.load tree locale = .ok (header, catalog))
    {messages : List UniqueMessage} {isClean : Bool} {counts : Catalog.MergeCounts} :
    files.merge tree locale messages isClean = .ok (counts, after) ↔
      (catalog.merge ⟨locale = files.sourceLocale, isClean⟩ messages).2 = counts ∧
        files.save tree locale header
          (catalog.merge ⟨locale = files.sourceLocale, isClean⟩ messages).1 = .ok after := by
  unfold merge
  rw [loaded, Outcome.ok_bind]
  dsimp only
  constructor
  · intro merged
    obtain ⟨stored, saved, done⟩ := bind_eq_ok.mp merged
    cases done
    exact ⟨rfl, saved⟩
  · rintro ⟨rfl, saved⟩
    rw [saved]
    rfl

/-! ### Files in memory -/

/-- Catalogs beside one another in a directory. -/
def localeFiles : CatalogFiles := ⟨⟨"locales/\x7blocale\x7d", by decide +kernel⟩, "en"⟩

/-- A tree with the catalog of one locale. -/
def treeOf (name text : String) : FileTree :=
  ⟨[(["locales"], .directory), (["locales", name], .file (Text.encode text.toList))], []⟩

/-- A catalog is loaded if something of it can be computed. -/
theorem load_of_computed [Catalog.Codecs] {α : Type} {part : Header × Catalog → α} {value : α}
    (computed : (files.load tree locale).toOption.map part = some value) :
    ∃ header catalog, files.load tree locale = .ok (header, catalog) ∧
      part (header, catalog) = value := by
  obtain ⟨pair, found, same⟩ := Option.map_eq_some_iff.mp computed
  cases result : files.load tree locale with
  | error fault =>
    rw [result] at found
    cases found
  | ok pair =>
    rw [result] at found
    cases found
    exact ⟨pair.1, pair.2, rfl, same⟩

/-- A catalog whose entries are known is loaded if its entries can be computed. -/
theorem load_of_all [Catalog.Codecs] (tree : FileTree) (locale : String)
    (entries : List Catalog.Entry) (computed : (localeFiles.load tree locale).toOption.map
      (fun pair => pair.2.all) = some entries) :
    ∃ header catalog, localeFiles.load tree locale = .ok (header, catalog) ∧
      catalog.all = entries := load_of_computed computed

/-- A catalog can be saved wherever something can be stored. -/
theorem exists_merge [Catalog.Codecs] (loaded : files.load tree locale = .ok (header, catalog))
    (writable : (tree.store (files.template.catalogPath locale) []).toOption.isSome = true)
    (messages : List UniqueMessage) (isClean : Bool) :
    ∃ after, files.merge tree locale messages isClean =
      .ok ((catalog.merge ⟨locale = files.sourceLocale, isClean⟩ messages).2, after) := by
  cases result : tree.store (files.template.catalogPath locale) [] with
  | error fault =>
    rw [result] at writable
    cases writable
  | ok written =>
    obtain ⟨after, stored⟩ := FileTree.store_any result _
    exact ⟨after, (merge_eq_ok loaded).mpr ⟨rfl, save_eq_ok.mpr stored⟩⟩

end CatalogFiles

end Phrasebook

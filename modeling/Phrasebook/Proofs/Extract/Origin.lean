import Phrasebook.Extract.File
import Phrasebook.Proofs.Extract.Forms
import Phrasebook.Proofs.Outcome

set_option autoImplicit false

/-!
Where messages are stated: every record of a file has an origin in that file.
-/
namespace Phrasebook.Extract

open Outcome (bind_eq_ok)
open Source (Node Position)

/-- All records that are stated have an origin in a file. -/
def IsIn (file : String) (stated : Stated) : Prop :=
  ∀ records, stated = .ok records → ∀ one ∈ records, ∃ place, one.origin = some ⟨file, place⟩

variable {file : String}

theorem isIn_nothing : IsIn file (.ok []) := by
  intro records same
  cases same
  simp

theorem isIn_fault (fault : Fault) : IsIn file (.error fault) := by
  intro records same
  cases same

/-- What comes one after another is in the file if each part is. -/
theorem IsIn.append {first later : Stated} (isIn : IsIn file first) (next : IsIn file later) :
    IsIn file (first >>= fun records => later >>= fun others => .ok (records ++ others)) := by
  intro records same one member
  obtain ⟨front, read, same⟩ := bind_eq_ok.mp same
  obtain ⟨back, readBack, same⟩ := bind_eq_ok.mp same
  cases same
  rcases List.mem_append.mp member with early | late
  · exact isIn front read one early
  · exact next back readBack one late

theorem isIn_record (place : Position) (message : Text.CodePoints)
    (context comment : Option Text.CodePoints) :
    IsIn file (record file place message context comment) := by
  rw [record]
  split
  · exact isIn_fault _
  · intro records same one member
    cases same
    cases List.mem_singleton.mp member
    exact ⟨place, rfl⟩

theorem isIn_taggedTemplate (tags : Tags) (tag body : Node Position) :
    IsIn file (taggedTemplate file tags tag body) := by
  unfold taggedTemplate
  split
  · split
    · exact isIn_record _ _ _ _
    · exact isIn_nothing
  · exact isIn_nothing

theorem isIn_structuredCall (place : Position) (args : List (Node Position)) :
    IsIn file (structuredCall file place args) := by
  rw [structuredCall]
  split
  · exact isIn_nothing
  · split
    · exact isIn_fault _
    · split
      · exact isIn_nothing
      · exact isIn_fault _
      · split
        · exact isIn_record _ _ _ _
        · exact isIn_nothing

theorem isIn_pluralCall (place : Position) (args : List (Node Position)) (index : Nat) :
    IsIn file (pluralCall file place args index) := by
  rw [pluralCall]
  split
  · exact isIn_nothing
  · exact isIn_nothing
  · split
    · exact isIn_record _ _ _ _
    · exact isIn_nothing

theorem isIn_listed {names : List String} {name : String} {stated : Stated}
    (isIn : IsIn file stated) : IsIn file (if names.contains name then stated else .ok []) := by
  split
  · exact isIn
  · exact isIn_nothing

theorem isIn_call (tags : Tags) (place : Position) (callee : Node Position)
    (args : List (Node Position)) : IsIn file (call file tags place callee args) := by
  cases callee with
  | identifier spot name =>
    rw [call_eq]
    intro records same one member
    obtain ⟨first, read, same⟩ := bind_eq_ok.mp same
    obtain ⟨second, readSecond, same⟩ := bind_eq_ok.mp same
    obtain ⟨third, readThird, same⟩ := bind_eq_ok.mp same
    cases same
    rcases List.mem_append.mp member with early | late
    · rcases List.mem_append.mp early with structured | plural
      · exact isIn_listed (isIn_structuredCall place args) first read one structured
      · exact isIn_listed (isIn_pluralCall place args 1) second readSecond one plural
    · exact isIn_listed (isIn_pluralCall place args 0) third readThird one late
  | _ => exact isIn_nothing

theorem isIn_component (tags : Tags) (place : Position) (name : String)
    (attributes : List (Node Position)) :
    IsIn file (component file tags place name attributes) := by
  rw [component]
  split
  · exact isIn_nothing
  · split
    · exact isIn_nothing
    · split
      · exact isIn_fault _
      · split
        · split
          · exact isIn_fault _
          · intro records same one member
            cases same
            cases List.mem_singleton.mp member
            exact ⟨place, rfl⟩
        · exact isIn_nothing

theorem isIn_stated (tags : Tags) (node : Node Position) : IsIn file (stated file tags node) := by
  cases node with
  | tagged place tag body => exact isIn_taggedTemplate tags tag body
  | call place callee args => exact isIn_call tags place callee args
  | component place name attributes children => exact isIn_component tags place name attributes
  | _ => exact isIn_nothing

theorem isIn_statedAll (tags : Tags) (nodes : List (Node Position)) :
    IsIn file (statedAll file tags nodes) := by
  induction nodes with
  | nil => exact isIn_nothing
  | cons node nodes ih => exact (isIn_stated tags node).append ih

/-- Every record of a file has an origin in that file. -/
theorem isIn_extract (kind : FileKind) (tags : Tags) (source : List Char) :
    IsIn file (extract file kind tags source) := by
  intro records same
  obtain ⟨root, -, same⟩ := bind_eq_ok.mp same
  exact isIn_statedAll tags _ records same

end Phrasebook.Extract

import Mathlib.Data.List.Induction
import Phrasebook.Files.Tree
import Phrasebook.Proofs.Dictionary
import Phrasebook.Proofs.Outcome

set_option autoImplicit false

/-!
Trees as file systems have them: every entry is there once, lies in a directory, and has a name that
can stand in a path. What is put into a file is there afterwards; a file takes the place of no
directory, so every path leads where it led before.
-/
namespace Phrasebook.FileTree

/-- A name that an entry of a directory can have. -/
structure IsName (part : String) : Prop where
  notEmpty : part ≠ ""
  notHere : part ≠ "."
  notUp : part ≠ ".."
  noSlash : '/' ∉ part.toList

instance (part : String) : Decidable (IsName part) :=
  decidable_of_iff (part ≠ "" ∧ part ≠ "." ∧ part ≠ ".." ∧ '/' ∉ part.toList)
    ⟨fun all => ⟨all.1, all.2.1, all.2.2.1, all.2.2.2⟩,
      fun name => ⟨name.notEmpty, name.notHere, name.notUp, name.noSlash⟩⟩

structure IsProper (tree : FileTree) : Prop where
  distinct : (Dictionary.keys tree.entries).Nodup
  notRoot : [] ∉ Dictionary.keys tree.entries
  names : ∀ place ∈ Dictionary.keys tree.entries, ∀ part ∈ place, IsName part
  parents : ∀ place ∈ Dictionary.keys tree.entries, tree.isDirectory place.dropLast = true

instance (tree : FileTree) : Decidable tree.IsProper :=
  decidable_of_iff ((Dictionary.keys tree.entries).Nodup ∧ [] ∉ Dictionary.keys tree.entries ∧
      (∀ place ∈ Dictionary.keys tree.entries, ∀ part ∈ place, IsName part) ∧
      ∀ place ∈ Dictionary.keys tree.entries, tree.isDirectory place.dropLast = true)
    ⟨fun all => ⟨all.1, all.2.1, all.2.2.1, all.2.2.2⟩,
      fun proper => ⟨proper.distinct, proper.notRoot, proper.names, proper.parents⟩⟩

variable {tree : FileTree} {place : Place} {entry : FileEntry}

namespace IsProper

theorem entry_of_mem (proper : tree.IsProper) (listed : (place, entry) ∈ tree.entries) :
    tree.entry? place = some entry := by
  have key := Dictionary.mem_keys_of_mem listed
  have below : place ≠ [] := by
    rintro rfl
    exact proper.notRoot key
  unfold entry?
  rw [if_neg below]
  exact Dictionary.get?_of_mem proper.distinct listed

theorem mem_of_entry (below : place ≠ []) (there : tree.entry? place = some entry) :
    (place, entry) ∈ tree.entries := by
  unfold entry? at there
  rw [if_neg below] at there
  exact Dictionary.mem_of_get? there

/-- What holds something is a directory. -/
theorem isDirectory_of_below (proper : tree.IsProper) {parts : List String} (inside : parts ≠ [])
    (there : tree.entry? (place ++ parts) = some entry) : tree.isDirectory place = true := by
  induction parts using List.reverseRecOn generalizing entry with
  | nil => exact absurd rfl inside
  | append_singleton parts part ih =>
    rw [← List.append_assoc] at there
    have key := Dictionary.mem_keys_of_mem (mem_of_entry (by simp) there)
    have around := proper.parents _ key
    rw [List.dropLast_concat] at around
    by_cases last : parts = []
    · rw [last, List.append_nil] at around
      exact around
    · exact ih last (of_decide_eq_true around)

theorem names_of_below (proper : tree.IsProper) {parts : List String}
    (there : tree.entry? (place ++ parts) = some entry) : ∀ part ∈ parts, IsName part := by
  intro part member
  have below : place ++ parts ≠ [] := by
    intro root
    rw [(List.append_eq_nil_iff.mp root).2] at member
    cases member
  have key := Dictionary.mem_keys_of_mem (mem_of_entry below there)
  exact proper.names _ key part (List.mem_append_right _ member)

theorem mem_namesIn (proper : tree.IsProper) {name : String} :
    name ∈ tree.namesIn place ↔ ∃ entry, tree.entry? (place ++ [name]) = some entry := by
  rw [namesIn, List.mem_filterMap]
  constructor
  · rintro ⟨⟨found, entry⟩, listed, kept⟩
    dsimp only at kept
    split at kept
    · rename_i own
      obtain ⟨init, last, rfl⟩ := (List.eq_nil_or_concat found).resolve_left own.1
      rw [List.concat_eq_append] at kept own listed
      rw [List.getLast?_concat, Option.some_inj] at kept
      rw [List.dropLast_concat] at own
      rw [← kept, ← own.2]
      exact ⟨entry, proper.entry_of_mem listed⟩
    · cases kept
  · rintro ⟨entry, there⟩
    refine ⟨(place ++ [name], entry), mem_of_entry (by simp) there, ?_⟩
    simp

/-- A way to an entry starts at an entry. -/
theorem entry_of_walk (proper : tree.IsProper) {start : Place} {parts : List String}
    (leads : tree.walk start parts = some place) (there : tree.entry? place = some entry) :
    ∃ own, tree.entry? start = some own := by
  induction parts generalizing start with
  | nil =>
    obtain rfl := Option.some.inj leads
    exact ⟨entry, there⟩
  | cons part parts ih =>
    rw [walk] at leads
    split at leads
    · split at leads
      · rename_i isDirectory
        exact ⟨.directory, of_decide_eq_true isDirectory⟩
      · cases leads
    · obtain ⟨own, below⟩ := ih leads
      have around := proper.isDirectory_of_below (List.cons_ne_nil part []) below
      exact ⟨.directory, of_decide_eq_true around⟩

end IsProper

/-! ### Walking down -/

theorem walk_append (tree : FileTree) (place : Place) (first rest : List String) :
    tree.walk place (first ++ rest) = (tree.walk place first).bind (tree.walk · rest) := by
  induction first generalizing place with
  | nil => rfl
  | cons part first ih =>
    rw [List.cons_append, walk, walk]
    split
    · split
      · exact ih _
      · rfl
    · exact ih _

/-- Without two points, a walk goes down. -/
theorem walk_down (tree : FileTree) (place : Place) {parts : List String} (down : ".." ∉ parts) :
    tree.walk place parts = some (place ++ parts) := by
  induction parts generalizing place with
  | nil => rw [walk, List.append_nil]
  | cons part parts ih =>
    simp only [List.mem_cons, not_or] at down
    rw [walk, if_neg (Ne.symm down.1), ih _ down.2, List.append_assoc, List.singleton_append]

theorem join_nil (path : Path) : path.join ⟨.relative, []⟩ = path := by
  rw [Path.join, if_pos rfl, List.append_nil]

theorem place?_join (tree : FileTree) (path : Path) {parts : List String} (down : ".." ∉ parts) :
    tree.place? (path.join ⟨.relative, parts⟩) = (tree.place? path).map (· ++ parts) := by
  rw [place?, place?, Path.join, if_pos rfl, walk_append]
  cases tree.walk (if path.anchor = .relative then tree.here else []) path.parts with
  | none => rfl
  | some place => exact walk_down tree place down

theorem at?_join_eq_some {path : Path} {parts : List String} (down : ".." ∉ parts) :
    tree.at? (path.join ⟨.relative, parts⟩) = some entry ↔
      ∃ place, tree.place? path = some place ∧ tree.entry? (place ++ parts) = some entry := by
  rw [at?, place?_join tree path down, Option.bind_eq_bind, Option.bind_map]
  exact Option.bind_eq_some_iff

/-! ### Writing -/

open Outcome (bind_eq_ok)

variable {after : FileTree} {path : Path} {bytes : List UInt8}

/-- A tree with an entry put at a place. -/
def put (tree : FileTree) (place : Place) (entry : FileEntry) : FileTree :=
  { tree with entries := Dictionary.set place entry tree.entries }

theorem entry?_put_self (tree : FileTree) {place : Place} (below : place ≠ []) (entry : FileEntry) :
    entry? (tree.put place entry) place = some entry := by
  unfold entry?
  rw [if_neg below]
  exact Dictionary.get?_set_self place entry tree.entries

theorem entry?_put_other (tree : FileTree) {place other : Place} (apart : other ≠ place)
    (entry : FileEntry) : entry? (tree.put place entry) other = tree.entry? other := by
  unfold entry?
  by_cases root : other = []
  · rw [if_pos root, if_pos root]
  · rw [if_neg root, if_neg root]
    exact Dictionary.get?_set_ne entry tree.entries apart

/-- The root is a directory. -/
theorem ne_root_of_free {place : Place} (notDirectory : tree.entry? place ≠ some .directory) :
    place ≠ [] := by
  rintro rfl
  exact notDirectory rfl

/-- A file in a place that was no directory makes no difference for where directories are. -/
theorem isDirectory_put_file {place : Place} (free : tree.entry? place ≠ some .directory)
    (other : Place) : (tree.put place (.file bytes)).isDirectory other = tree.isDirectory other := by
  unfold isDirectory
  by_cases same : other = place
  · rw [same, entry?_put_self tree (ne_root_of_free free), decide_eq_false free]
    rfl
  · rw [entry?_put_other tree same]

theorem walk_put_file {place : Place} (free : tree.entry? place ≠ some .directory)
    (start : Place) (parts : List String) :
    (tree.put place (.file bytes)).walk start parts = tree.walk start parts := by
  induction parts generalizing start with
  | nil => rfl
  | cons part rest ih =>
    rw [walk, walk, isDirectory_put_file free, ih, ih]

theorem place?_put_file {place : Place} (free : tree.entry? place ≠ some .directory) (path : Path) :
    (tree.put place (.file bytes)).place? path = tree.place? path :=
  walk_put_file free _ path.parts

/-- Bytes can be put into a file if its place has a directory around it and is none itself. -/
theorem writeBytes_eq_ok :
    tree.writeBytes path bytes = .ok after ↔
      ∃ place, tree.place? path = some place ∧ tree.parentFault? place = none ∧
        tree.entry? place ≠ some .directory ∧ tree.put place (.file bytes) = after := by
  unfold writeBytes
  constructor
  · intro written
    split at written
    · cases written
    · rename_i place named
      split at written
      · cases written
      · cases written
      · rename_i parents notDirectory
        refine ⟨place, named, parents, notDirectory, ?_⟩
        exact Except.ok.inj written
  · rintro ⟨place, named, parents, notDirectory, rfl⟩
    rw [named]
    dsimp only
    rw [parents]
    split
    · rename_i fault
      cases fault
    · rename_i directory
      exact absurd directory notDirectory
    · rfl

theorem readBytes_eq_ok :
    tree.readBytes path = .ok bytes ↔
      ∃ place, tree.place? path = some place ∧ tree.entry? place = some (.file bytes) := by
  unfold readBytes
  constructor
  · intro read
    split at read
    · cases read
    · rename_i place leads
      split at read
      · rename_i held there
        obtain rfl := Except.ok.inj read
        exact ⟨place, leads, there⟩
      · cases read
      · cases read
  · rintro ⟨place, leads, there⟩
    rw [leads]
    dsimp only
    rw [there]

/-- What is put into a file is there afterwards. -/
theorem readBytes_stored (stored : tree.store path bytes = .ok after) :
    after.readBytes path = .ok bytes ∧ after.has path = true := by
  obtain ⟨made, -, written⟩ := bind_eq_ok.mp stored
  obtain ⟨place, named, -, free, rfl⟩ := writeBytes_eq_ok.mp written
  have found : (made.put place (.file bytes)).place? path = some place := by
    rw [place?_put_file free, named]
  have there := entry?_put_self made (ne_root_of_free free) (.file bytes)
  constructor
  · unfold readBytes
    rw [found]
    dsimp only
    rw [there]
  · unfold has at?
    rw [found]
    exact congrArg Option.isSome there

/-- Whether a file can be written does not depend on what is put into it. -/
theorem store_any (stored : tree.store path bytes = .ok after) (others : List UInt8) :
    ∃ another, tree.store path others = .ok another := by
  obtain ⟨made, parents, written⟩ := bind_eq_ok.mp stored
  obtain ⟨place, named, around, free, -⟩ := writeBytes_eq_ok.mp written
  refine ⟨made.put place (.file others), bind_eq_ok.mpr ⟨made, parents, ?_⟩⟩
  exact writeBytes_eq_ok.mpr ⟨place, named, around, free, rfl⟩

/-! ### Storing a second time -/

/-- Every directory of a tree is one of another tree, which starts at the same place. -/
structure Within (tree other : FileTree) : Prop where
  here : other.here = tree.here
  directories : ∀ place, tree.isDirectory place = true → other.isDirectory place = true

theorem Within.refl (tree : FileTree) : Within tree tree := ⟨rfl, fun _ known => known⟩

theorem Within.trans {next last : FileTree} (first : Within tree next) (later : Within next last) :
    Within tree last :=
  ⟨later.here.trans first.here,
    fun place known => later.directories place (first.directories place known)⟩

theorem Within.walk {other : FileTree} (within : Within tree other) {start place : Place}
    {parts : List String} (found : tree.walk start parts = some place) :
    other.walk start parts = some place := by
  induction parts generalizing start with
  | nil => exact found
  | cons part rest ih =>
    rw [FileTree.walk] at found ⊢
    split at found
    · rename_i up
      split at found
      · rename_i directory
        rw [if_pos up, if_pos (within.directories _ directory)]
        exact ih found
      · cases found
    · rename_i down
      rw [if_neg down]
      exact ih found

theorem Within.place? {other : FileTree} (within : Within tree other) {place : Place}
    (leads : tree.place? path = some place) : other.place? path = some place := by
  rw [FileTree.place?, within.here]
  exact within.walk leads

theorem within_makeDirectories {made : FileTree} {places : List Place}
    (done : tree.makeDirectories places = .ok made) :
    Within tree made ∧ ∀ place ∈ places, made.isDirectory place = true := by
  induction places generalizing tree with
  | nil =>
    cases done
    exact ⟨.refl _, by simp⟩
  | cons first places ih =>
    rw [makeDirectories] at done
    split at done
    · rename_i there
      obtain ⟨within, all⟩ := ih done
      refine ⟨within, ?_⟩
      intro place member
      rcases List.mem_cons.mp member with rfl | later
      · exact within.directories _ (by simp [isDirectory, there])
      · exact all place later
    · cases done
    · rename_i free
      have notDirectory : tree.entry? first ≠ some .directory := by
        rw [free]
        exact nofun
      have below : first ≠ [] := ne_root_of_free notDirectory
      obtain ⟨within, all⟩ := ih done
      have placed : (tree.put first .directory).isDirectory first = true :=
        decide_eq_true (entry?_put_self tree below .directory)
      have kept : ∀ place, tree.isDirectory place = true →
          (tree.put first .directory).isDirectory place = true := by
        intro place known
        by_cases same : place = first
        · exact same ▸ placed
        · rw [isDirectory, entry?_put_other tree same]
          exact known
      refine ⟨⟨within.here, fun place known => within.directories place (kept place known)⟩, ?_⟩
      intro place member
      rcases List.mem_cons.mp member with rfl | later
      · exact within.directories _ placed
      · exact all place later

theorem makeDirectories_of_all {places : List Place}
    (all : ∀ place ∈ places, tree.isDirectory place = true) :
    tree.makeDirectories places = .ok tree := by
  induction places with
  | nil => rfl
  | cons first places ih =>
    have there : tree.entry? first = some .directory :=
      of_decide_eq_true (all first List.mem_cons_self)
    rw [makeDirectories, there]
    exact ih fun place later => all place (List.mem_cons_of_mem _ later)

theorem parentFault?_eq_none {place : Place} :
    tree.parentFault? place = none ↔
      ∀ above ∈ enclosing place.dropLast, tree.isDirectory above = true := by
  simp only [parentFault?, isDirectory]
  constructor
  · intro fine above member
    split at fine
    · cases fine
    · split at fine
      · rename_i all
        exact List.all_eq_true.mp all _ (List.mem_map_of_mem member)
      · cases fine
  · intro all
    have every : ((enclosing place.dropLast).map tree.entry?).all (· = some .directory) = true := by
      rw [List.all_map, List.all_eq_true]
      exact all
    have present : ¬((enclosing place.dropLast).map tree.entry?).contains none = true := by
      intro missing
      have found := List.all_eq_true.mp every none (List.contains_iff_mem.mp missing)
      cases of_decide_eq_true found
    rw [if_neg present, if_pos every]

/-- A file that has been stored can be stored once more. -/
theorem store_again (stored : tree.store path bytes = .ok after) (others : List UInt8) :
    ∃ another, after.store path others = .ok another := by
  obtain ⟨made, parents, written⟩ := bind_eq_ok.mp stored
  obtain ⟨place, named, around, free, rfl⟩ := writeBytes_eq_ok.mp written
  have below := ne_root_of_free free
  have directories : ∀ other, (made.put place (.file bytes)).isDirectory other =
      made.isDirectory other := isDirectory_put_file free
  have makes : (made.put place (.file bytes)).makeParent path =
      .ok (made.put place (.file bytes)) := by
    rw [makeParent] at parents
    split at parents
    · cases parents
    · rename_i parent found
      obtain ⟨within, all⟩ := within_makeDirectories parents
      have still : made.place? path.parent = some parent := by
        rw [place?, within.here]
        exact within.walk found
      rw [makeParent, place?_put_file free, still]
      exact makeDirectories_of_all fun other member => (directories other).trans (all other member)
  refine ⟨_, bind_eq_ok.mpr ⟨_, makes, writeBytes_eq_ok.mpr ⟨place, ?_, ?_, ?_, rfl⟩⟩⟩
  · rw [place?_put_file free, named]
  · rw [parentFault?_eq_none] at around ⊢
    exact fun above member => (directories above).trans (around above member)
  · rw [entry?_put_self made below]
    simp

/-! ### What storing changes -/

theorem entry?_makeDirectories {made : FileTree} {places : List Place}
    (done : tree.makeDirectories places = .ok made) (place : Place) :
    made.entry? place = if place ∈ places then some .directory else tree.entry? place := by
  induction places generalizing tree with
  | nil =>
    cases done
    simp
  | cons first places ih =>
    rw [makeDirectories] at done
    split at done
    · rename_i there
      rw [ih done]
      by_cases same : place = first
      · simp [same, there]
      · simp [same]
    · cases done
    · rename_i free
      have below : first ≠ [] := ne_root_of_free (by rw [free]; exact nofun)
      rw [ih done]
      by_cases same : place = first
      · have there := entry?_put_self tree below .directory
        simp only [same, List.mem_cons_self, if_true]
        split
        · rfl
        · exact there
      · have there := entry?_put_other tree same .directory
        simp only [List.mem_cons, same, false_or]
        split
        · rfl
        · exact there

/-- Directories can be made where there is no file. -/
theorem makeDirectories_ok_iff {places : List Place} :
    (∃ made, tree.makeDirectories places = .ok made) ↔
      ∀ place ∈ places, ∀ bytes, tree.entry? place ≠ some (.file bytes) := by
  induction places generalizing tree with
  | nil => simp [makeDirectories]
  | cons first places ih =>
    rw [makeDirectories, List.forall_mem_cons]
    split
    · rename_i there
      rw [ih]
      exact ⟨fun later => ⟨by simp [there], later⟩, fun all => all.2⟩
    · rename_i bytes there
      constructor
      · rintro ⟨made, done⟩
        cases done
      · exact fun all => absurd there (all.1 bytes)
    · rename_i free
      have below : first ≠ [] := ne_root_of_free (by rw [free]; exact nofun)
      have put : ∀ place bytes, entry? (tree.put first .directory) place = some (.file bytes) ↔
          tree.entry? place = some (.file bytes) := by
        intro place bytes
        by_cases same : place = first
        · rw [same, entry?_put_self tree below, free]
          simp
        · rw [entry?_put_other tree same]
      refine ih.trans ⟨fun later => ⟨by simp [free], fun place member bytes held => ?_⟩,
        fun all place member bytes held => ?_⟩
      · exact later place member bytes ((put place bytes).mpr held)
      · exact all.2 place member bytes ((put place bytes).mp held)

theorem mem_enclosing {above place : Place} : above ∈ enclosing place ↔ above <+: place := by
  induction place generalizing above with
  | nil => simp [enclosing]
  | cons part place ih =>
    cases above with
    | nil => simp [enclosing]
    | cons first above => simp [enclosing, ih, List.cons_prefix_cons, eq_comm, and_comm]

theorem place?_child {name : String} (down : name ≠ "..") (tree : FileTree) (directory : Path) :
    tree.place? (directory.child name) = (tree.place? directory).map (· ++ [name]) := by
  rw [place?, Path.child, walk_append]
  cases found : tree.walk (if directory.anchor = .relative then tree.here else []) directory.parts with
  | none => rw [place?, found]; rfl
  | some place => rw [place?, found, Option.bind_some, walk, if_neg down]; rfl

theorem parent_child (directory : Path) (name : String) :
    (directory.child name).parent = directory := by
  rw [Path.parent, Path.child, List.dropLast_concat]

theorem store_child_eq_ok {directory : Path} {name : String} (down : name ≠ "..") :
    tree.store (directory.child name) bytes = .ok after ↔
      ∃ parent made, tree.place? directory = some parent ∧
        tree.makeDirectories (enclosing parent) = .ok made ∧
        made.entry? (parent ++ [name]) ≠ some .directory ∧
        made.put (parent ++ [name]) (.file bytes) = after := by
  have still : ∀ {parent made}, tree.place? directory = some parent →
      tree.makeDirectories (enclosing parent) = .ok made →
        made.place? (directory.child name) = some (parent ++ [name]) := by
    intro parent made leads done
    have within := (within_makeDirectories done).1
    have same : made.place? directory = some parent := by
      rw [place?, within.here]
      exact within.walk leads
    rw [place?_child down, same, Option.map_some]
  constructor
  · intro stored
    obtain ⟨made, parents, written⟩ := bind_eq_ok.mp stored
    obtain ⟨place, named, -, free, rfl⟩ := writeBytes_eq_ok.mp written
    rw [makeParent, parent_child] at parents
    split at parents
    · cases parents
    · rename_i parent leads
      obtain rfl := Option.some.inj (named.symm.trans (still leads parents))
      exact ⟨parent, made, leads, parents, free, rfl⟩
  · rintro ⟨parent, made, leads, done, free, rfl⟩
    refine bind_eq_ok.mpr ⟨made, ?_, writeBytes_eq_ok.mpr ⟨_, still leads done, ?_, free, rfl⟩⟩
    · rw [makeParent, parent_child, leads]
      exact done
    · rw [parentFault?_eq_none, List.dropLast_concat]
      exact (within_makeDirectories done).2

/-- Storing a file makes the directories around it and changes nothing else. -/
theorem entry?_store_child {directory : Path} {name : String} (down : name ≠ "..")
    (stored : tree.store (directory.child name) bytes = .ok after) {parent : Place}
    (leads : tree.place? directory = some parent) (place : Place) :
    after.entry? place = if place = parent ++ [name] then some (.file bytes)
      else if place <+: parent then some .directory else tree.entry? place := by
  obtain ⟨another, made, leadsToo, done, -, rfl⟩ := (store_child_eq_ok down).mp stored
  obtain rfl := Option.some.inj (leads.symm.trans leadsToo)
  split
  · rename_i here
    rw [here, entry?_put_self made (by simp)]
  · rename_i other
    rw [entry?_put_other made other, entry?_makeDirectories done]
    simp only [mem_enclosing]

/-- No file stands where a place needs a directory. -/
def IsOpen (tree : FileTree) (place : Place) : Prop :=
  ∀ above, above <+: place → ∀ bytes, tree.entry? above ≠ some (.file bytes)

/-- What can be in the way of a new file are files in the places of the directories around it, and a
directory in its own place. -/
theorem store_child_ok_iff {directory : Path} {name : String} (down : name ≠ "..") :
    (∃ after, tree.store (directory.child name) bytes = .ok after) ↔
      ∃ parent, tree.place? directory = some parent ∧ tree.IsOpen parent ∧
        tree.entry? (parent ++ [name]) ≠ some .directory := by
  have makes : ∀ parent, tree.IsOpen parent ↔
      ∃ made, tree.makeDirectories (enclosing parent) = .ok made := by
    intro parent
    simp only [makeDirectories_ok_iff, mem_enclosing, IsOpen]
  have own : ∀ {parent made}, tree.makeDirectories (enclosing parent) = .ok made →
      made.entry? (parent ++ [name]) = tree.entry? (parent ++ [name]) := by
    intro parent made done
    rw [entry?_makeDirectories done, if_neg]
    rw [mem_enclosing]
    exact fun below => absurd below.length_le (by simp)
  constructor
  · rintro ⟨after, stored⟩
    obtain ⟨parent, made, leads, done, free, -⟩ := (store_child_eq_ok down).mp stored
    exact ⟨parent, leads, (makes parent).mpr ⟨made, done⟩, own done ▸ free⟩
  · rintro ⟨parent, leads, opened, free⟩
    obtain ⟨made, done⟩ := (makes parent).mp opened
    exact ⟨_, (store_child_eq_ok down).mpr ⟨parent, made, leads, done, (own done).symm ▸ free, rfl⟩⟩

theorem within_store_child {directory : Path} {name : String} (down : name ≠ "..")
    (stored : tree.store (directory.child name) bytes = .ok after) : Within tree after := by
  obtain ⟨parent, made, -, done, free, rfl⟩ := (store_child_eq_ok down).mp stored
  obtain ⟨within, -⟩ := within_makeDirectories done
  refine ⟨within.here, fun place known => ?_⟩
  rw [isDirectory_put_file free]
  exact within.directories place known

/-- Storing a file leaves what is in another one. -/
theorem readBytes_store_child {directory : Path} {name : String} (down : name ≠ "..")
    {others : List UInt8} (stored : tree.store (directory.child name) others = .ok after)
    (apart : after.place? (directory.child name) ≠ after.place? path)
    (held : tree.readBytes path = .ok bytes) : after.readBytes path = .ok bytes := by
  obtain ⟨place, leads, there⟩ := readBytes_eq_ok.mp held
  obtain ⟨parent, leadsUp, opened, -⟩ := (store_child_ok_iff down).mp ⟨after, stored⟩
  have within := within_store_child down stored
  have own : tree.place? (directory.child name) = some (parent ++ [name]) := by
    rw [place?_child down, leadsUp, Option.map_some]
  rw [within.place? own, within.place? leads, ne_eq, Option.some_inj] at apart
  refine readBytes_eq_ok.mpr ⟨place, within.place? leads, ?_⟩
  rw [entry?_store_child down stored leadsUp, if_neg (Ne.symm apart), if_neg, there]
  exact fun above => opened place above bytes there

end Phrasebook.FileTree

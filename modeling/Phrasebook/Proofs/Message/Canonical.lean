import Phrasebook.Extract.Collect
import Phrasebook.Proofs.Text.Balanced
import Phrasebook.Proofs.Text.CodePoints
import Phrasebook.Proofs.Untranslated

set_option autoImplicit false

/-!
Templates and variations have one text for each, and no text stands for two of them. Where a chunk, a
selector or the text of a variation ends can be told from the text alone, so the text is taken apart in
one way, from left to right. This holds of the texts that an application states and of those that are
read in source files, in which a surrogate may stand alone.
-/
namespace Phrasebook

open Plural (Variations written)
open Text (CodePoints IsBalanced append_mark_injective)

namespace Extract

/-! ### Templates in source files -/

/-- Chunks without a brace that opens. -/
def AreChunks (chunks : List CodePoints) : Prop := ∀ chunk ∈ chunks, '{'.toNat ∉ chunk

instance : DecidablePred AreChunks := fun chunks =>
  inferInstanceAs (Decidable (∀ chunk ∈ chunks, '{'.toNat ∉ chunk))

/-- Behind a chunk comes a brace, or nothing. -/
theorem head_chunkPoints (index : Nat) (chunks : List CodePoints) :
    ∀ code ∈ (chunkPoints index chunks).head?, code = '{'.toNat := by
  intro code first
  cases chunks with
  | nil => cases first
  | cons chunk rest =>
    have opened : (CodePoints.ofString (placeholder index)).head? = some '{'.toNat := by
      simp [CodePoints.ofString, placeholder]
    rw [chunkPoints, List.append_assoc, List.head?_append, opened] at first
    exact (Option.some.inj first).symm

theorem chunkPoints_ne_nil (index : Nat) (chunk : CodePoints) (rest : List CodePoints) :
    chunkPoints index (chunk :: rest) ≠ [] := by
  simp [chunkPoints, CodePoints.ofString, placeholder]

theorem chunkPoints_injective {chunks others : List CodePoints} (index : Nat)
    (unopened : ∀ chunk ∈ chunks, '{'.toNat ∉ chunk)
    (unopenedOthers : ∀ chunk ∈ others, '{'.toNat ∉ chunk)
    (same : chunkPoints index chunks = chunkPoints index others) : chunks = others := by
  induction chunks generalizing index others with
  | nil =>
    cases others with
    | nil => rfl
    | cons other others => exact absurd same.symm (chunkPoints_ne_nil index other others)
  | cons chunk chunks ih =>
    cases others with
    | nil => exact absurd same (chunkPoints_ne_nil index chunk chunks)
    | cons other others =>
      -- both have the placeholder of the index, and then a chunk up to the next one
      rw [chunkPoints, chunkPoints, List.append_assoc, List.append_assoc] at same
      obtain ⟨rfl, later⟩ := append_mark_injective (unopened chunk List.mem_cons_self)
        (unopenedOthers other List.mem_cons_self) (head_chunkPoints _ _) (head_chunkPoints _ _)
        (List.append_cancel_left same)
      rw [ih (index + 1) (fun chunk among => unopened chunk (List.mem_cons_of_mem _ among))
        (fun chunk among => unopenedOthers chunk (List.mem_cons_of_mem _ among)) later]

/-- Chunks, of which there are some, have a message, which tells them; no chunks have none. -/
theorem templatePoints_injective {chunks others : List CodePoints} (plain : AreChunks chunks)
    (plainOthers : AreChunks others) (same : templatePoints chunks = templatePoints others) :
    chunks = others := by
  cases chunks with
  | nil =>
    cases others with
    | nil => rfl
    | cons other others => cases same
  | cons chunk chunks =>
    cases others with
    | nil => cases same
    | cons other others =>
      obtain ⟨unopened, unopenedRest⟩ := List.forall_mem_cons.mp plain
      obtain ⟨unopenedOther, unopenedOthers⟩ := List.forall_mem_cons.mp plainOthers
      obtain ⟨rfl, later⟩ := append_mark_injective unopened unopenedOther (head_chunkPoints _ _)
        (head_chunkPoints _ _) (Except.ok.inj same)
      rw [chunkPoints_injective 0 unopenedRest unopenedOthers later]

/-! ### Variations in source files -/

/-- Selectors without a space, and texts with balanced braces. -/
def AreOptions (pairs : Dictionary CodePoints CodePoints) : Prop :=
  ∀ pair ∈ pairs, ' '.toNat ∉ pair.1 ∧ IsBalanced '{'.toNat '}'.toNat pair.2

/-- The options of variations, one after another. -/
def optionPoints (pairs : Dictionary CodePoints CodePoints) : CodePoints :=
  pairs.flatMap fun pair =>
    ' '.toNat :: (pair.1 ++ ' '.toNat :: '{'.toNat :: (pair.2 ++ ['}'.toNat]))

theorem variationPoints_eq (pairs : Dictionary CodePoints CodePoints) :
    variationPoints pairs =
      CodePoints.ofString "\x7bnum, plural," ++ optionPoints pairs ++ ['}'.toNat] := by
  have options : (pairs.map fun pair => CodePoints.ofString " " ++ pair.1 ++
      CodePoints.ofString " \x7b" ++ pair.2 ++ CodePoints.ofString "\x7d").flatten =
        optionPoints pairs := by
    rw [optionPoints, List.flatMap_def]
    congr 1
    apply List.map_congr_left
    intro pair _
    simp [CodePoints.ofString]
  rw [← options]
  rfl

theorem optionPoints_injective {pairs others : Dictionary CodePoints CodePoints}
    (spelled : AreOptions pairs) (spelledOthers : AreOptions others)
    (same : optionPoints pairs ++ ['}'.toNat] = optionPoints others ++ ['}'.toNat]) :
    pairs = others := by
  induction pairs generalizing others with
  | nil =>
    cases others with
    | nil => rfl
    | cons other others => cases (List.cons.inj same).1
  | cons pair pairs ih =>
    cases others with
    | nil => cases (List.cons.inj same).1
    | cons other others =>
      obtain ⟨⟨unspaced, balanced⟩, rest⟩ := List.forall_mem_cons.mp spelled
      obtain ⟨⟨unspacedOther, balancedOther⟩, restOthers⟩ := List.forall_mem_cons.mp spelledOthers
      simp only [optionPoints, List.flatMap_cons, List.cons_append, List.append_assoc,
        List.cons.injEq, true_and] at same
      -- the selector ends at the next space, and the text at the brace that closes more than opens
      obtain ⟨selector, behind⟩ := append_mark_injective unspaced unspacedOther
        (by simp) (by simp) same
      have texts := (List.cons.inj (List.cons.inj behind).2).2
      obtain ⟨text, later⟩ := balanced.append_injective balancedOther (by decide) texts
      rw [Prod.ext selector text, ih rest restOthers later]

theorem variationPoints_injective {pairs others : Dictionary CodePoints CodePoints}
    (spelled : AreOptions pairs) (spelledOthers : AreOptions others)
    (same : variationPoints pairs = variationPoints others) : pairs = others := by
  rw [variationPoints_eq, variationPoints_eq, List.append_assoc, List.append_assoc] at same
  exact optionPoints_injective spelled spelledOthers (List.append_cancel_left same)

/-- Behind the first brace, a template has a digit and variations have a letter. -/
theorem templatePoints_ne_variationPoints {chunks : List CodePoints} (plain : AreChunks chunks)
    (pairs : Dictionary CodePoints CodePoints) :
    templatePoints chunks ≠ .ok (variationPoints pairs) := by
  intro same
  rw [variationPoints_eq] at same
  cases chunks with
  | nil => cases same
  | cons chunk rest =>
    have same := Except.ok.inj same
    cases chunk with
    | cons code chunk =>
      obtain rfl : code = '{'.toNat := (List.cons.inj same).1
      exact plain _ List.mem_cons_self List.mem_cons_self
    | nil =>
      cases rest with
      | nil => cases same
      | cons chunk rest => cases (List.cons.inj (List.cons.inj same).2).1

end Extract

/-! ### What an application states -/

/-- Chunks without a brace that opens. -/
def AreChunks (chunks : List String) : Prop := ∀ chunk ∈ chunks, '{' ∉ chunk.toList

instance : DecidablePred AreChunks := fun chunks =>
  inferInstanceAs (Decidable (∀ chunk ∈ chunks, '{' ∉ chunk.toList))

/-- Selectors without a space, and texts with balanced braces. -/
def AreOptions (pairs : Dictionary String String) : Prop :=
  ∀ pair ∈ pairs, ' ' ∉ pair.1.toList ∧ IsBalanced '{' '}' pair.2.toList

instance : DecidablePred AreOptions := fun pairs =>
  inferInstanceAs (Decidable (∀ pair ∈ pairs, _ ∧ _))

theorem toNat_injective : Function.Injective Char.toNat := fun _ _ => Char.toNat_inj.mp

theorem ofString_chunksFrom (index : Nat) (chunks : List String) :
    CodePoints.ofString (chunksFrom index chunks) =
      Extract.chunkPoints index (chunks.map CodePoints.ofString) := by
  induction chunks generalizing index with
  | nil => rfl
  | cons chunk chunks ih =>
    rw [List.map_cons, Extract.chunkPoints, ← ih, chunksFrom]
    simp [CodePoints.ofString]

/-- The chunks of a template have the same message as code points. -/
theorem ofString_templateMessage (chunks : List String) :
    Extract.templatePoints (chunks.map CodePoints.ofString) =
      (templateMessage chunks).map CodePoints.ofString := by
  cases chunks with
  | nil => rfl
  | cons chunk chunks =>
    rw [List.map_cons, Extract.templatePoints, ← ofString_chunksFrom]
    simp [templateMessage, Except.map, CodePoints.ofString]

/-- The code points of variations. -/
def pointsOf (pairs : Dictionary String String) : Dictionary CodePoints CodePoints :=
  pairs.map (Prod.map CodePoints.ofString CodePoints.ofString)

theorem ofString_message (pairs : Dictionary String String) :
    CodePoints.ofString (textual pairs).message = Extract.variationPoints (pointsOf pairs) := by
  have options : CodePoints.ofChars (Plural.optionsText pairs) =
      Extract.optionPoints (pointsOf pairs) := by
    rw [Plural.optionsText, Extract.optionPoints, pointsOf, List.flatMap_map, CodePoints.ofChars,
      List.map_flatMap]
    apply List.flatMap_congr
    intro pair _
    simp [CodePoints.ofString, CodePoints.ofChars]
  rw [message_textual, CodePoints.ofString, Plural.written_toList, Extract.variationPoints_eq,
    ← options]
  simp [Message.braced, Plural.argumentName, CodePoints.ofString]

theorem AreChunks.points {chunks : List String} (plain : AreChunks chunks) :
    Extract.AreChunks (chunks.map CodePoints.ofString) := by
  intro points member
  obtain ⟨chunk, own, rfl⟩ := List.mem_map.mp member
  rw [CodePoints.ofString, CodePoints.ofChars, List.mem_map_of_injective toNat_injective]
  exact plain chunk own

theorem AreOptions.points {pairs : Dictionary String String} (spelled : AreOptions pairs) :
    Extract.AreOptions (pointsOf pairs) := by
  intro points member
  obtain ⟨pair, own, rfl⟩ := List.mem_map.mp member
  obtain ⟨unspaced, balanced⟩ := spelled pair own
  refine ⟨?_, balanced.map toNat_injective⟩
  rw [Prod.map_fst, CodePoints.ofString, CodePoints.ofChars,
    List.mem_map_of_injective toNat_injective]
  exact unspaced

/-! ### Canonical texts -/

/-- The texts of templates and of variations tell what they are made of: two templates, or two
variations, of one text are the same, and no text is that of both. -/
structure TellsApart {σ τ υ : Type} (template : σ → υ) (areChunks : σ → Prop) (plural : τ → υ)
    (areOptions : τ → Prop) : Prop where
  templates : ∀ chunks others, areChunks chunks → areChunks others →
    template chunks = template others → chunks = others
  plurals : ∀ pairs others, areOptions pairs → areOptions others →
    plural pairs = plural others → pairs = others
  mixed : ∀ chunks pairs, areChunks chunks → areOptions pairs → template chunks ≠ plural pairs

theorem points_tellApart :
    TellsApart Extract.templatePoints Extract.AreChunks
      (fun pairs => .ok (Extract.variationPoints pairs)) Extract.AreOptions where
  templates _ _ := Extract.templatePoints_injective
  plurals _ _ spelled spelledOthers same :=
    Extract.variationPoints_injective spelled spelledOthers (Except.ok.inj same)
  mixed _ pairs plain _ := Extract.templatePoints_ne_variationPoints plain pairs

theorem messages_tellApart :
    TellsApart templateMessage AreChunks (fun pairs => .ok (textual pairs).message)
      AreOptions where
  templates chunks others plain plainOthers same := by
    have equal := points_tellApart.templates _ _ plain.points plainOthers.points
      (by rw [ofString_templateMessage, ofString_templateMessage, same])
    exact (List.map_inj_right fun _ _ => CodePoints.ofString_injective).mp equal
  plurals pairs others spelled spelledOthers same := by
    have texts : (textual pairs).message = (textual others).message := Except.ok.inj same
    have equal := points_tellApart.plurals _ _ spelled.points spelledOthers.points
      (by rw [← ofString_message, ← ofString_message, texts])
    refine (List.map_inj_right fun one two alike => ?_).mp equal
    exact Prod.ext (CodePoints.ofString_injective (congrArg Prod.fst alike))
      (CodePoints.ofString_injective (congrArg Prod.snd alike))
  mixed chunks pairs plain spelled same := by
    have points := ofString_templateMessage chunks
    rw [same, Except.map, ofString_message] at points
    exact points_tellApart.mixed _ _ plain.points spelled.points points

/-- The canonical texts of templates and of variations tell what they are made of, as an application
states them and as they are read in source files. Braces in a selector and braces that close in a
chunk do no harm. -/
theorem canonical_tellApart :
    TellsApart templateMessage AreChunks (fun pairs => .ok (textual pairs).message) AreOptions ∧
      TellsApart Extract.templatePoints Extract.AreChunks
        (fun pairs => .ok (Extract.variationPoints pairs)) Extract.AreOptions :=
  ⟨messages_tellApart, points_tellApart⟩

/-- Variations with braces in a text, and with an empty selector. -/
def pages : Dictionary String String := [("=0", "none"), ("", "# of \x7ball\x7d"), ("one", "")]

/-- Neither the order of variations nor an empty last chunk is lost. -/
theorem canonical_pages :
    AreOptions pages ∧ AreOptions pages.reverse ∧
      (textual pages).message ≠ (textual pages.reverse).message ∧
      AreChunks ["", " of "] ∧ AreChunks ["", " of ", ""] ∧
      templateMessage ["", " of "] ≠ templateMessage ["", " of ", ""] ∧
      templateMessage ["", " of "] ≠ .ok (textual pages).message ∧
      Extract.AreChunks [[0xD800], []] ∧
      Extract.templatePoints [[0xD800], []] ≠ .ok (Extract.variationPoints [([0xD800], [])]) := by
  have options : AreOptions pages := by decide
  have turned : AreOptions pages.reverse := by decide
  have two : AreChunks ["", " of "] := by decide
  have three : AreChunks ["", " of ", ""] := by decide
  have lone : Extract.AreChunks [[0xD800], []] := by decide
  obtain ⟨messages, points⟩ := canonical_tellApart
  refine ⟨options, turned, ?_, two, three, ?_, messages.mixed _ _ two options, lone, ?_⟩
  · intro same
    have equal := messages.plurals _ _ options turned (congrArg Except.ok same)
    exact absurd equal (by decide)
  · intro same
    exact absurd (messages.templates _ _ two three same) (by decide)
  · exact points.mixed _ _ lone fun pair member => by
      obtain rfl := List.mem_singleton.mp member
      exact ⟨by decide, by decide⟩

end Phrasebook

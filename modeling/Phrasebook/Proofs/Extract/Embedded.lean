import Phrasebook.Extract.File
import Phrasebook.Proofs.Extract.Relocation
import Phrasebook.Proofs.Markup.Embedded

set_option autoImplicit false

/-!
The messages of a component that is one script. They are those of the script by itself once comments
and styles are blanked out in it, which also happens inside its strings.
-/
namespace Phrasebook.Extract

open Source (Node Position)
open Markup (embedded NoScriptTag preprocess)

/-- Positions of a script in a component, where the opening tag stands before the first line. -/
def pastTag (position : Position) : Position :=
  if position.line = 1 then ⟨position.line, position.column + 8⟩ else position

def beforeTag (position : Position) : Position :=
  if position.line = 1 then ⟨position.line, position.column - 8⟩ else position

theorem beforeTag_pastTag (position : Position) : beforeTag (pastTag position) = position := by
  obtain ⟨line, column⟩ := position
  rw [pastTag]
  split
  · rename_i first
    rw [beforeTag, if_pos first]
    congr 1
    dsimp only
    omega
  · rename_i later
    rw [beforeTag, if_neg later]

theorem shifted_start (position : Position) : Source.shifted ⟨1, 0⟩ 0 position = position := by
  obtain ⟨line, column⟩ := position
  rw [Source.shifted]
  split
  · rename_i first
    change line = 1 at first
    subst first
    congr 1
    dsimp only
    omega
  · congr 1
    dsimp only
    omega

theorem afterTag_eq (position : Position) : Markup.afterTag position = pastTag position := by
  obtain ⟨line, column⟩ := position
  rw [Markup.afterTag, Source.shifted, pastTag]
  split
  · rename_i first
    change line = 1 at first
    subst first
    congr 1
    dsimp only
    omega
  · congr 1
    dsimp only
    omega

/-- The tree of a script lies where it is placed. -/
theorem parse?_map (dialect : Script.Dialect) (place move other : Source.Placement)
    (text : List Char) (same : ∀ position, other position = move (place position)) :
    Script.parse? dialect other text = (Script.parse? dialect place text).map (Node.map move) := by
  rw [Script.parse?, Script.parse?, Option.map_map]
  congr 1
  funext statements
  rw [Function.comp_apply, Node.map_map]
  congr 1
  funext p
  exact same _

/-- What holds a tree without stating anything itself states what the tree states. -/
theorem collect_fragment (file : String) (tags : Tags) (tree : Node Position) :
    collect file tags (.fragment ⟨1, 0⟩ [.script ⟨1, 0⟩ [] (some tree)]) =
      collect file tags tree := by
  have nothing : ∀ later : Stated,
      (Except.ok [] >>= fun first => later >>= fun others => Except.ok (first ++ others)) =
        later := by
    intro later
    cases later <;> rfl
  rw [collect, collect, Node.traverse_single, Node.traverse_single, Node.walk, Node.walkAll,
    Node.walkAll, List.append_nil, Node.walk, Node.walkAll, Node.walkOption, List.nil_append]
  exact (nothing _).trans (nothing _)

/-- A component of one script states what the script with comments and styles blanked out states by
itself, in the same order and shifted past the tag, or fails alike. -/
theorem extract_embedded {text : List Char} (lacks : NoScriptTag text) (component script : String)
    (tags : Tags) :
    extract component .component tags (embedded text) =
      Stated.moved ⟨component, pastTag⟩
        (extract script (.script .javascript) tags (preprocess text)) := by
  have placed := parse?_map .javascript (Source.shifted ⟨1, 0⟩ 0) pastTag Markup.afterTag
    (preprocess text) fun position => by rw [shifted_start, afterTag_eq]
  rw [extract, extract, tree, tree, Markup.preprocess_embedded,
    Markup.parse_embedded lacks.preprocess, placed]
  cases Script.parse? .javascript (Source.shifted ⟨1, 0⟩ 0) (preprocess text) with
  | none => rfl
  | some root =>
    change collect component tags (.fragment ⟨1, 0⟩ [.script ⟨1, 0⟩ [] (some (root.map pastTag))]) =
      Stated.moved ⟨component, pastTag⟩ (collect script tags root)
    rw [collect_fragment]
    exact collect_moved ⟨component, pastTag⟩ script tags root

/-! ### Where the script by itself states the same -/

theorem Stated.toOption_moved (move : Move) (stated : Stated) :
    (stated.moved move).toOption = stated.toOption.map (List.map (Record.moved move)) := by
  cases stated <;> rfl

/-- What a script states can be moved past a tag and back. -/
theorem extract_movedBack (component script : String) (tags : Tags) (text : List Char) :
    Stated.moved ⟨script, beforeTag⟩ (Stated.moved ⟨component, pastTag⟩
        (extract script (.script .javascript) tags text)) =
      extract script (.script .javascript) tags text := by
  have back := parse?_map .javascript (Source.shifted ⟨1, 0⟩ 0) (beforeTag ∘ pastTag)
    (Source.shifted ⟨1, 0⟩ 0) text fun position => (beforeTag_pastTag _).symm
  rw [extract, tree]
  cases read : Script.parse? .javascript (Source.shifted ⟨1, 0⟩ 0) text with
  | none => rfl
  | some root =>
    rw [read, Option.map_some] at back
    change Stated.moved ⟨script, beforeTag⟩ (Stated.moved ⟨component, pastTag⟩
      (collect script tags root)) = collect script tags root
    rw [← collect_moved ⟨component, pastTag⟩, ← collect_moved ⟨script, beforeTag⟩, movedNode,
      movedNode, Node.map_map, ← Option.some.inj back]

/-- A component of one script fails exactly if the script by itself does, and otherwise has its
records in the same order, shifted past the tag, exactly if blanking out comments and styles in the
script changes neither. This is so if none starts in it. -/
theorem extract_embedded_iff {text : List Char} (lacks : NoScriptTag text)
    (component script : String) (tags : Tags) :
    extract component .component tags (embedded text) =
        Stated.moved ⟨component, pastTag⟩
          (extract script (.script .javascript) tags (preprocess text)) ∧
      ((extract component .component tags (embedded text)).toOption =
          (extract script (.script .javascript) tags text).toOption.map
            (List.map (Record.moved ⟨component, pastTag⟩)) ↔
        (extract script (.script .javascript) tags (preprocess text)).toOption =
          (extract script (.script .javascript) tags text).toOption) ∧
      ((∀ rest, rest <:+ text → Markup.commentLength rest = 0 ∧ Markup.styleLength rest = 0) →
        extract component .component tags (embedded text) =
          Stated.moved ⟨component, pastTag⟩ (extract script (.script .javascript) tags text)) := by
  have shifted := extract_embedded lacks component script tags
  refine ⟨shifted, ⟨?_, ?_⟩, ?_⟩
  · intro same
    rw [shifted, Stated.toOption_moved] at same
    have back := congrArg (Option.map (List.map (Record.moved ⟨script, beforeTag⟩))) same
    rw [← Stated.toOption_moved, ← Stated.toOption_moved, ← Stated.toOption_moved,
      ← Stated.toOption_moved, extract_movedBack, extract_movedBack] at back
    exact back
  · intro same
    rw [shifted, Stated.toOption_moved, same]
  · intro absent
    rw [shifted, Markup.preprocess_of_absent (fun rest later => (absent rest later).1)
      fun rest later => (absent rest later).2]

def greetingScript : List Char := "msg(\x7bmessage: 'Hi'\x7d)\ng`Bye`".toList

theorem extract_embedded_greeting :
    NoScriptTag greetingScript ∧
      extract "a.svelte" .component .ofScripts (embedded greetingScript) =
        Stated.moved ⟨"a.svelte", pastTag⟩
          (extract "a.js" (.script .javascript) .ofScripts (preprocess greetingScript)) ∧
      (extract "a.svelte" .component .ofScripts (embedded greetingScript)).toOption =
        (extract "a.js" (.script .javascript) .ofScripts greetingScript).toOption.map
          (List.map (Record.moved ⟨"a.svelte", pastTag⟩)) ∧
      (extract "a.js" (.script .javascript) .ofScripts greetingScript).toOption.map
        (List.map Record.message) = some ["Hi", "Bye"] := by
  have lacks : NoScriptTag greetingScript := by decide
  have same : preprocess greetingScript = greetingScript := by decide
  obtain ⟨shifted, alike, -⟩ := extract_embedded_iff lacks "a.svelte" "a.js" .ofScripts
  exact ⟨lacks, shifted, alike.mpr (by rw [same]), by decide +kernel⟩

/-- A string of a script can hold what would be a comment in markup. -/
def commentedScript : List Char := "msg(\x7bmessage: '<!--a-->'\x7d)".toList

/-- In a component, the comment in the string is blanked out. -/
theorem extract_embedded_comment :
    NoScriptTag commentedScript ∧
      (extract "a.svelte" .component .ofScripts (embedded commentedScript)).toOption.map
        (List.map Record.message) = some ["        "] ∧
      (extract "a.js" (.script .javascript) .ofScripts commentedScript).toOption.map
        (List.map Record.message) = some ["<!--a-->"] ∧
      (extract "a.svelte" .component .ofScripts (embedded commentedScript)).toOption ≠
        (extract "a.js" (.script .javascript) .ofScripts commentedScript).toOption.map
          (List.map (Record.moved ⟨"a.svelte", pastTag⟩)) := by
  have blank : (extract "a.svelte" .component .ofScripts (embedded commentedScript)).toOption.map
      (List.map Record.message) = some ["        "] := by decide +kernel
  have kept : (extract "a.js" (.script .javascript) .ofScripts commentedScript).toOption.map
      (List.map Record.message) = some ["<!--a-->"] := by decide +kernel
  refine ⟨by decide, blank, kept, ?_⟩
  intro same
  rw [same, Option.map_map, List.map_comp_map] at blank
  change Option.map (List.map Record.message) _ = _ at blank
  rw [kept] at blank
  exact absurd blank (by decide)

end Phrasebook.Extract

import Phrasebook.Proofs.Markup.Blanking
import Phrasebook.Proofs.Markup.Closing
import Phrasebook.Proofs.Markup.Steps
import Phrasebook.Proofs.Source.Position

set_option autoImplicit false

/-!
The order of what is read. Each reader goes on in the text and gives its nodes the positions where
they start, so that the nodes of a tag come one after another, each before those in it.
-/
namespace Phrasebook.Markup

open Outcome
open Source (Node Position)

/-! ### The nodes of markup -/

mutual

/-- The nodes of markup in a tree, each before those in it, from left to right. The trees of the
scripts and expressions are not entered. -/
def markup : Tree → List Tree
  | .fragment _ children => markupAll children
  | .element place name attributes children =>
    .element place name attributes children :: (markupAll attributes ++ markupAll children)
  | .component place name attributes children =>
    .component place name attributes children :: (markupAll attributes ++ markupAll children)
  | .attr place name value => .attr place name value :: markupValue value
  | .text place data => [.text place data]
  | .spread place expression => [.spread place expression]
  | .mustache place kind expression => [.mustache place kind expression]
  | .script place attributes content => .script place attributes content :: markupAll attributes
  | _ => []

def markupAll : List Tree → List Tree
  | [] => []
  | node :: rest => markup node ++ markupAll rest

def markupValue : Option (List Tree) → List Tree
  | none => []
  | some nodes => markupAll nodes

end

theorem markupAll_append (first rest : List Tree) :
    markupAll (first ++ rest) = markupAll first ++ markupAll rest := by
  induction first with
  | nil => rfl
  | cons node first ih => rw [List.cons_append, markupAll, markupAll, ih, List.append_assoc]

/-- Where the nodes of markup in some trees stand. -/
def places (nodes : List Tree) : List Position := (markupAll nodes).map Node.place

theorem places_append (first rest : List Tree) : places (first ++ rest) = places first ++ places rest := by
  rw [places, markupAll_append, List.map_append, places, places]

theorem places_cons (node : Tree) (rest : List Tree) :
    places (node :: rest) = places [node] ++ places rest :=
  places_append [node] rest

theorem places_attr (place : Position) (name : String) (value : List Tree) :
    places [.attr place name (some value)] = place :: places value := by
  rw [places, markupAll, markup, markupAll, markupValue, List.append_nil]
  rfl

/-- An element stands before its attributes, and these before what is in it. -/
theorem places_elementNode (place : Position) (name : String) (attributes children : List Tree) :
    places [Component.elementNode place name attributes children] =
      place :: (places attributes ++ places children) := by
  rw [Component.elementNode]
  split <;> rw [places, markupAll, markup, markupAll, List.append_nil, List.map_cons,
    List.map_append] <;> rfl

theorem places_script (place : Position) (attributes : List Tree) (content : Option Tree) :
    places [.script place attributes content] = place :: places attributes := by
  rw [places, markupAll, markup, markupAll, List.append_nil]
  rfl

namespace Component

variable {component : Component}

/-! ### Going on in a text -/

theorem position_mono (component : Component) {text rest : List Char}
    (shorter : rest.length ≤ text.length) :
    component.position text ≤ component.position rest :=
  Source.positionAt_mono (Nat.sub_le_sub_left shorter _) (Nat.sub_le _ _)

/-- The positions are those of later and later places between two texts that are left. -/
inductive Along (component : Component) : List Char → List Position → List Char → Prop
  | passed {text rest : List Char} (shorter : rest.length ≤ text.length) : Along component text [] rest
  | stop {text start rest : List Char} {places : List Position} (shorter : start.length ≤ text.length)
      (more : Along component start places rest) :
      Along component text (component.position start :: places) rest

namespace Along

variable {text middle rest : List Char} {first later : List Position}

theorem length_le (along : component.Along text first rest) : rest.length ≤ text.length := by
  induction along with
  | passed shorter => exact shorter
  | stop shorter _ ih => exact Nat.le_trans ih shorter

/-- A text in front makes no difference. -/
theorem skip (shorter : middle.length ≤ text.length) (along : component.Along middle first rest) :
    component.Along text first rest := by
  cases along with
  | passed less => exact .passed (Nat.le_trans less shorter)
  | stop less more => exact .stop (Nat.le_trans less shorter) more

theorem append (along : component.Along text first middle)
    (more : component.Along middle later rest) : component.Along text (first ++ later) rest := by
  induction along with
  | passed shorter => exact more.skip shorter
  | stop shorter _ ih => exact .stop shorter (ih more)

/-- A node at the start, and what it holds. -/
theorem head (along : component.Along text first rest) :
    component.Along text (component.position text :: first) rest := .stop (Nat.le_refl _) along

theorem le_of_mem (along : component.Along text first rest) :
    ∀ place ∈ first, component.position text ≤ place := by
  induction along with
  | passed => simp
  | stop shorter _ ih =>
    have begins := component.position_mono shorter
    rintro place (_ | ⟨_, later⟩)
    · exact begins
    · exact Position.le_trans begins (ih place later)

theorem pairwise (along : component.Along text first rest) : first.Pairwise (· ≤ ·) := by
  induction along with
  | passed => exact .nil
  | stop _ more ih => exact .cons more.le_of_mem ih

end Along

/-! ### Tags in braces -/

theorem closing_length {c : Char} {text close : List Char}
    (found : component.closing (c :: text) = .ok close) : close.length ≤ text.length := by
  rw [closing] at found
  split at found
  · rename_i rest scanned
    cases found
    exact ((scan_sound _).2 0 _ _ scanned).2.length_le
  · cases found

/-- A tag in braces is one node at its opening brace, and reading goes on after its closing one. -/
theorem mustache_node {c : Char} {text after : List Char} {node : Tree}
    (read : component.mustache (c :: text) = .ok (node, after)) :
    ∃ kind expression, node = .mustache (component.position (c :: text)) kind expression ∧
      after.length ≤ text.length := by
  rw [mustache] at read
  obtain ⟨close, found, read⟩ := bind_eq_ok.mp read
  have within : close.tail.length ≤ text.length := by
    have shorter := closing_length found
    rw [List.length_tail]
    omega
  dsimp only at read
  split at read
  · obtain ⟨expression, -, done⟩ := bind_eq_ok.mp read
    cases done
    exact ⟨_, _, rfl, within⟩
  · obtain ⟨⟨kind, expression⟩, -, done⟩ := bind_eq_ok.mp read
    cases done
    exact ⟨_, _, rfl, within⟩

theorem mustache_along {c : Char} {text after : List Char} {node : Tree}
    (read : component.mustache (c :: text) = .ok (node, after)) :
    component.Along (c :: text) (places [node]) after := by
  obtain ⟨kind, expression, rfl, shorter⟩ := mustache_node read
  exact .stop (Nat.le_refl _) (.passed (Nat.le_succ_of_le shorter))

/-! ### Attributes -/

theorem textChunk_along {start stop : List Char} (shorter : stop.length ≤ start.length) :
    component.Along start (places (component.textChunk start stop)) stop := by
  rw [textChunk]
  split
  · exact .passed shorter
  · exact .stop (Nat.le_refl _) (.passed shorter)

/-- Text up to a tag in braces, the tag, and what follows it. -/
theorem chunk_along {start rest after after' : List Char} {c : Char} {tag : Tree} {chunks : List Tree}
    (shorter : (c :: rest).length ≤ start.length)
    (read : component.mustache (c :: rest) = .ok (tag, after))
    (more : component.Along after (places chunks) after') :
    component.Along start (places (component.textChunk start (c :: rest) ++ tag :: chunks)) after' := by
  rw [places_append, places_cons]
  exact (textChunk_along shorter).append ((mustache_along read).append more)

theorem quotedValue_along {quote : Char} {fuel : Nat} {start text after : List Char}
    {chunks : List Tree} (shorter : text.length ≤ start.length)
    (read : component.quotedValue quote fuel start text = .ok (chunks, after)) :
    component.Along start (places chunks) after := by
  fun_induction quotedValue component quote fuel start text generalizing chunks after with
  | case1 => cases read
  | case2 => cases read
  | case3 fuel start rest =>
    cases read
    simpa using (textChunk_along shorter).append (.passed (Nat.le_succ rest.length))
  | case4 fuel start rest _ ih =>
    obtain ⟨⟨tag, behind⟩, isTag, read⟩ := bind_eq_ok.mp read
    obtain ⟨⟨others, last⟩, isMore, done⟩ := bind_eq_ok.mp read
    cases done
    exact chunk_along shorter isTag (ih behind (Nat.le_refl _) isMore)
  | case5 fuel start c rest _ _ ih =>
    rw [List.length_cons] at shorter
    exact ih (Nat.le_of_succ_le shorter) read

theorem plainValue_along {start text after : List Char} {chunks : List Tree}
    (shorter : text.length ≤ start.length)
    (read : component.plainValue start text = .ok (chunks, after)) :
    component.Along start (places chunks) after := by
  fun_induction plainValue component start text generalizing chunks after with
  | case1 =>
    cases read
    exact textChunk_along shorter
  | case2 c rest ends =>
    cases read
    exact textChunk_along shorter
  | case3 rest =>
    obtain ⟨⟨tag, behind⟩, isTag, done⟩ := bind_eq_ok.mp read
    cases done
    exact chunk_along shorter isTag (.passed (Nat.le_refl _))
  | case4 c rest _ _ ih =>
    rw [List.length_cons] at shorter
    exact ih (Nat.le_of_succ_le shorter) read

theorem attributeValue_along {text after : List Char} {chunks : List Tree}
    (read : component.attributeValue text = .ok (chunks, after)) :
    component.Along text (places chunks) after := by
  rw [attributeValue.eq_def] at read
  split at read
  · cases read
  · split at read
    · exact (quotedValue_along (Nat.le_refl _) read).skip (Nat.le_succ _)
    · exact plainValue_along (Nat.le_refl _) read

theorem namedAttribute_along {text after : List Char} {node : Tree}
    (read : component.namedAttribute text = .ok (node, after)) :
    component.Along text (places [node]) after := by
  have named := (List.dropWhile_suffix isAttributeNamePart (l := text)).length_le
  rw [namedAttribute] at read
  dsimp only at read
  split at read
  · rename_i rest equals
    obtain ⟨⟨value, behind⟩, isValue, done⟩ := bind_eq_ok.mp read
    cases done
    rw [equals, List.length_cons] at named
    rw [places_attr]
    exact ((attributeValue_along isValue).skip (Nat.le_of_succ_le named)).head
  · cases read
    exact .stop (Nat.le_refl _) (.passed named)

theorem bracedAttribute_along {c : Char} {text after : List Char} {node : Tree}
    (read : component.bracedAttribute (c :: text) = .ok (node, after)) :
    component.Along (c :: text) (places [node]) after := by
  rw [bracedAttribute] at read
  obtain ⟨close, found, read⟩ := bind_eq_ok.mp read
  have within : close.tail.length ≤ (c :: text).length := by
    have shorter := closing_length found
    rw [List.length_tail, List.length_cons]
    omega
  dsimp only at read
  split at read
  · obtain ⟨expression, -, done⟩ := bind_eq_ok.mp read
    cases done
    exact .stop (Nat.le_refl _) (.passed within)
  · obtain ⟨expression, -, done⟩ := bind_eq_ok.mp read
    cases done
    rw [places_attr]
    -- the attribute stands for its value, at the same place
    exact .stop (Nat.le_refl _) (.stop (Nat.le_refl _) (.passed within))

theorem attributes_along {fuel : Nat} {text after : List Char} {nodes : List Tree} {closed : Bool}
    (read : component.attributes fuel text = .ok ((nodes, closed), after)) :
    component.Along text (places nodes) after := by
  induction fuel generalizing text nodes with
  | zero => cases read
  | succ fuel ih =>
    have blanks := (List.dropWhile_suffix Text.isBlank (l := text)).length_le
    rw [attributes] at read
    split at read
    · cases read
    · rename_i rest ends
      cases read
      rw [ends, List.length_cons, List.length_cons] at blanks
      exact .passed (by omega)
    · rename_i rest ends
      cases read
      rw [ends, List.length_cons] at blanks
      exact .passed (by omega)
    · rename_i c rest _ _ starts
      rw [starts] at blanks
      -- an attribute, and then those after it
      have further {first : Tree} {behind : List Char}
          (along : component.Along (c :: rest) (places [first]) behind)
          (read : (component.attributes fuel behind >>= fun others =>
            .ok ((first :: others.1.1, others.1.2), others.2)) = .ok ((nodes, closed), after)) :
          component.Along text (places nodes) after := by
        obtain ⟨⟨⟨others, shut⟩, last⟩, isMore, done⟩ := bind_eq_ok.mp read
        cases done
        rw [places_cons]
        exact (along.skip blanks).append (ih isMore)
      dsimp only at read
      split at read
      · obtain ⟨⟨first, behind⟩, isFirst, read⟩ := bind_eq_ok.mp read
        exact further (bracedAttribute_along isFirst) read
      · split at read
        · obtain ⟨⟨first, behind⟩, isFirst, read⟩ := bind_eq_ok.mp read
          exact further (namedAttribute_along isFirst) read
        · cases read

/-! ### Scripts -/

theorem afterClosingTag?_length {name text after : List Char}
    (closes : afterClosingTag? name text = some after) : after.length ≤ text.length := by
  rw [afterClosingTag?] at closes
  split at closes
  · rename_i rest begins
    obtain ⟨front, rfl, -⟩ := dropFolded_eq_some.mp begins
    split at closes
    · rename_i ends
      cases closes
      have blanks := (List.dropWhile_suffix Text.isBlank (l := rest)).length_le
      rw [ends, List.length_cons] at blanks
      rw [List.length_append]
      omega
    · cases closes
  · cases closes

/-- A script stands at its opening tag, and reading goes on after its closing one. -/
theorem scriptContent_node {place : Position} {attributes : List Tree} {text after : List Char}
    {node : Tree} (read : component.scriptContent place attributes text = .ok (node, after)) :
    ∃ content, node = .script place attributes content ∧ after.length ≤ text.length := by
  rw [scriptContent] at read
  split at read
  · cases read
  · rename_i count close found
    obtain ⟨content, -, done⟩ := bind_eq_ok.mp read
    cases done
    refine ⟨some content, rfl, ?_⟩
    obtain ⟨front, rfl, -, holds, -⟩ := findFirst_eq_some found
    obtain ⟨after, closes⟩ := Option.isSome_iff_exists.mp holds
    have shorter := afterClosingTag?_length closes
    rw [closes, Option.getD_some, List.length_append]
    omega

end Component

end Phrasebook.Markup

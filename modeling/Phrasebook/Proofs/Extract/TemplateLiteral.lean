import Phrasebook.Proofs.Extract.Forms
import Phrasebook.Proofs.Script.Escape
import Phrasebook.Proofs.Source.Fragment
import Phrasebook.Proofs.Text.Pieces
import Phrasebook.Proofs.Text.Trim
import Phrasebook.Script.Parse

set_option autoImplicit false

/-!
Template literals, cut at their substitutions. The pieces and the substitutions in turn make up the
text of the literal, whatever else stands in it, and the message of a template with a tag has a chunk
for each piece and a placeholder for each substitution, in the same turn.
-/
namespace Phrasebook.Script

open Source (Node Placement Position byteLength characterAt? filePosition)
open Text (CodePoints)

/-- The first lists and the second ones in turn, beginning with the first. -/
def alternate {α : Type} : List (List α) → List (List α) → List α
  | first :: firsts, second :: seconds => first ++ (second ++ alternate firsts seconds)
  | firsts, _ => firsts.flatten

/-! ### Between two places -/

section Between

variable {source : List Char}

/-- The characters of a source text from one place up to another. -/
def between (source : List Char) (span : Nat × Nat) : List Char :=
  (source.drop (source.length - span.1)).take (span.1 - span.2)

/-- The byte of a source text at which the character at a place is encoded. -/
def byteAt (source : List Char) (place : Nat) : Nat :=
  byteLength (source.take (source.length - place))

theorem between_append {start middle stop : Nat} (within : start ≤ source.length)
    (first : middle ≤ start) (later : stop ≤ middle) :
    between source (start, middle) ++ between source (middle, stop) = between source (start, stop) := by
  have length : start - stop = (start - middle) + (middle - stop) := by omega
  have behind : source.length - middle = source.length - start + (start - middle) := by omega
  rw [between, between, between]
  dsimp only
  rw [length, List.take_add, behind, List.drop_drop]

theorem between_parts {start stop : Nat} (within : start ≤ source.length) (ordered : stop ≤ start) :
    source = source.take (source.length - start) ++
      (between source (start, stop) ++ source.drop (source.length - stop)) := by
  have behind : source.length - stop = source.length - start + (start - stop) := by omega
  rw [between, behind, ← List.drop_drop, List.take_append_drop, List.take_append_drop]

/-- The bytes between two places are the text between them. -/
theorem slice_byteAt {start stop : Nat} (within : start ≤ source.length) (ordered : stop ≤ start) :
    Source.slice source (byteAt source start) (byteAt source stop) =
      .ok (between source (start, stop)) := by
  have cut := Source.slice_between (source.take (source.length - start))
    (between source (start, stop)) (source.drop (source.length - stop))
  have upTo : source.take (source.length - start) ++ between source (start, stop) =
      source.take (source.length - stop) := by
    have behind : source.length - stop = source.length - start + (start - stop) := by omega
    rw [between, behind, List.take_add]
  rwa [← between_parts within ordered, upTo] at cut

/-- The byte of a place leads back to its character. -/
theorem characterAt?_byteAt (place : Nat) :
    characterAt? source (byteAt source place) = some (source.length - place) := by
  have found := Source.characterAt?_between (source.take (source.length - place))
    (source.drop (source.length - place))
  rwa [List.take_append_drop, List.length_take_of_le (Nat.sub_le _ _)] at found

end Between

/-! ### Substitutions -/

/-- The substitutions among the parts of a literal: the places of their starts and ends. -/
def substitutions (parts : List Part) : List (Nat × Nat) :=
  parts.filterMap fun part => part.expression.map fun _ => (part.start, part.stop)

theorem substitutions_some {start stop : Nat} {expression : Tree} {parts : List Part} :
    substitutions (⟨start, stop, some expression⟩ :: parts) =
      (start, stop) :: substitutions parts := rfl

theorem substitutions_none {start stop : Nat} {parts : List Part} :
    substitutions (⟨start, stop, none⟩ :: parts) = substitutions parts := rfl

/-- Spans lie between two places, one behind another: fewer characters are left from each place to the
next. -/
def InOrder (start stop : Nat) (spans : List (Nat × Nat)) : Prop :=
  (start :: ((spans.flatMap fun span => [span.1, span.2]) ++ [stop])).IsChain (· ≥ ·)

instance (start stop : Nat) (spans : List (Nat × Nat)) : Decidable (InOrder start stop spans) :=
  inferInstanceAs (Decidable (List.IsChain _ _))

theorem inOrder_nil {start stop : Nat} : InOrder start stop [] ↔ stop ≤ start := by
  simp [InOrder]

theorem inOrder_cons {start stop : Nat} {span : Nat × Nat} {spans : List (Nat × Nat)} :
    InOrder start stop (span :: spans) ↔
      span.1 ≤ start ∧ span.2 ≤ span.1 ∧ InOrder span.2 stop spans := by
  rw [InOrder, List.flatMap_cons, List.append_assoc, List.cons_append, List.singleton_append,
    List.isChain_cons_cons, List.isChain_cons_cons]
  exact Iff.rfl

theorem InOrder.stop_le {start stop : Nat} {spans : List (Nat × Nat)}
    (ordered : InOrder start stop spans) : stop ≤ start := by
  induction spans generalizing start with
  | nil => exact inOrder_nil.mp ordered
  | cons span spans ih =>
    obtain ⟨first, own, more⟩ := inOrder_cons.mp ordered
    exact Nat.le_trans (ih more) (Nat.le_trans own first)

theorem InOrder.above {start above stop : Nat} {spans : List (Nat × Nat)}
    (ordered : InOrder start stop spans) (more : start ≤ above) : InOrder above stop spans := by
  cases spans with
  | nil => exact inOrder_nil.mpr (Nat.le_trans (inOrder_nil.mp ordered) more)
  | cons span spans =>
    obtain ⟨first, rest⟩ := inOrder_cons.mp ordered
    exact inOrder_cons.mpr ⟨Nat.le_trans first more, rest⟩

/-- What is left between two places besides the spans: each starts where one span ends and ends where
the next one starts. -/
def gaps (start stop : Nat) (spans : List (Nat × Nat)) : List (Nat × Nat) :=
  (start :: spans.map (·.2)).zip (spans.map (·.1) ++ [stop])

theorem gaps_cons (start stop : Nat) (span : Nat × Nat) (spans : List (Nat × Nat)) :
    gaps start stop (span :: spans) = (start, span.1) :: gaps span.2 stop spans := rfl

theorem length_gaps (start stop : Nat) (spans : List (Nat × Nat)) :
    (gaps start stop spans).length = spans.length + 1 := by
  simp [gaps]

theorem InOrder.span {start stop : Nat} {spans : List (Nat × Nat)}
    (ordered : InOrder start stop spans) {span : Nat × Nat} (member : span ∈ spans) :
    span.1 ≤ start ∧ span.2 ≤ span.1 := by
  induction spans generalizing start with
  | nil => cases member
  | cons first spans ih =>
    obtain ⟨before, own, more⟩ := inOrder_cons.mp ordered
    rcases List.mem_cons.mp member with rfl | later
    · exact ⟨before, own⟩
    · exact (ih more later).imp_left fun inside => Nat.le_trans inside (Nat.le_trans own before)

theorem InOrder.gap {start stop : Nat} {spans : List (Nat × Nat)}
    (ordered : InOrder start stop spans) {gap : Nat × Nat} (member : gap ∈ gaps start stop spans) :
    gap.1 ≤ start ∧ gap.2 ≤ gap.1 := by
  induction spans generalizing start with
  | nil =>
    cases List.mem_singleton.mp member
    exact ⟨Nat.le_refl _, inOrder_nil.mp ordered⟩
  | cons first spans ih =>
    obtain ⟨before, own, more⟩ := inOrder_cons.mp ordered
    rcases List.mem_cons.mp member with rfl | later
    · exact ⟨Nat.le_refl _, before⟩
    · exact (ih more later).imp_left fun inside => Nat.le_trans inside (Nat.le_trans own before)

/-- Gaps and spans in turn leave nothing out and take nothing twice. -/
theorem alternate_gaps {source : List Char} {start stop : Nat} {spans : List (Nat × Nat)}
    (within : start ≤ source.length) (ordered : InOrder start stop spans) :
    alternate ((gaps start stop spans).map (between source)) (spans.map (between source)) =
      between source (start, stop) := by
  induction spans generalizing start with
  | nil => simp [gaps, alternate]
  | cons span spans ih =>
    obtain ⟨first, own, more⟩ := inOrder_cons.mp ordered
    have inside : span.1 ≤ source.length := Nat.le_trans first within
    have behind := more.stop_le
    rw [gaps_cons, List.map_cons, List.map_cons, alternate, ih (Nat.le_trans own inside) more,
      between_append inside own behind, between_append within first (Nat.le_trans behind own)]

/-! ### Pieces -/

section Pieces

variable {source front body rest : List Char}

/-- What a cut of the text of a literal takes is what stands there in the source text. -/
theorem cut_eq (parted : source = front ++ (body ++ rest)) {start stop : Nat}
    (within : start ≤ (body ++ rest).length) (ordered : stop ≤ start) (above : rest.length ≤ stop) :
    (body.take ((body ++ rest).length - stop)).drop ((body ++ rest).length - start) =
      between source (start, stop) := by
  have length : (body ++ rest).length = body.length + rest.length := List.length_append
  have offset : source.length - start = front.length + ((body ++ rest).length - start) := by
    rw [parted, List.length_append]
    omega
  have inside : (body ++ rest).length - start ≤ body.length := by omega
  have count : (body ++ rest).length - stop - ((body ++ rest).length - start) = start - stop := by
    omega
  have enough : start - stop ≤ (body.drop ((body ++ rest).length - start)).length := by
    rw [List.length_drop]
    omega
  rw [between]
  dsimp only
  rw [offset, parted, List.drop_length_add_append, List.drop_append_of_le_length inside,
    List.take_append_of_le_length enough, List.drop_take, count]

/-- The pieces are the gaps between the substitutions, each with the place of its first character. What
else stands in the literal makes no difference. -/
theorem pieces_eq (parted : source = front ++ (body ++ rest)) {start : Nat} {parts : List Part}
    (within : start ≤ (body ++ rest).length)
    (ordered : InOrder start rest.length (substitutions parts)) :
    (pieces (body ++ rest).length body start parts).all =
      (gaps start rest.length (substitutions parts)).map fun gap =>
        piece gap.1 (between source gap) := by
  induction parts generalizing start with
  | nil =>
    have whole : body.take ((body ++ rest).length - rest.length) = body := by
      rw [List.length_append, Nat.add_sub_cancel, List.take_length]
    have last := cut_eq parted within ordered.stop_le (Nat.le_refl _)
    rw [whole] at last
    rw [pieces, last]
    rfl
  | cons part parts ih =>
    obtain ⟨first, next, expression⟩ := part
    cases expression with
    | none =>
      rw [substitutions_none] at ordered ⊢
      exact ih within ordered
    | some expression =>
      rw [substitutions_some] at ordered ⊢
      obtain ⟨before, own, more⟩ := inOrder_cons.mp ordered
      have above : rest.length ≤ first := Nat.le_trans more.stop_le own
      rw [pieces, cut_eq parted within before above, gaps_cons, List.map_cons,
        ← ih (by dsimp only at own before; omega) more]
      rfl

end Pieces

/-! ### Literals -/

/-- A template literal in a source text, with the parts that stand in it. -/
structure Literal where
  front : List Char
  body : List Char
  rest : List Char
  parts : List Part
  inOrder : InOrder (body ++ '`' :: rest).length ('`' :: rest).length (substitutions parts)

namespace Literal

variable (literal : Literal)

def source : List Char := literal.front ++ '`' :: (literal.body ++ '`' :: literal.rest)

/-- The place behind the opening mark. -/
def start : Nat := (literal.body ++ '`' :: literal.rest).length

/-- The place of the closing mark. -/
def stop : Nat := ('`' :: literal.rest).length

def spans : List (Nat × Nat) := substitutions literal.parts

def gaps : List (Nat × Nat) := Script.gaps literal.start literal.stop literal.spans

/-- The spelling of a piece: what stands in the source text, with a line feed for each line end. -/
def raw (gap : Nat × Nat) : List Char :=
  Text.replaceAll ['\r'] ['\n'] (Text.replaceAll ['\r', '\n'] ['\n'] (between literal.source gap))

/-- The text of a piece: the value of its spelling, or the spelling if it has none. -/
def chunk (gap : Nat × Nat) : CodePoints :=
  (cook true (literal.raw gap)).getD (CodePoints.ofChars (literal.raw gap))

/-- The text of the pieces with a placeholder for each substitution. -/
def message : CodePoints :=
  alternate (literal.gaps.map literal.chunk)
    ((List.range literal.spans.length).map fun index => CodePoints.ofString (placeholder index))

/-- Where the character at a place lies in the file of which the source text is a fragment. -/
def position (placement : Placement) (place : Nat) : Position :=
  placement (filePosition literal.source (literal.source.length - place))

/-- The tree of the literal, with places in the source text. -/
def tree : Tree :=
  .template (literal.start + 1) (pieces literal.start literal.body literal.start literal.parts)
    (literal.parts.filterMap Part.expression)

/-- The same with positions in the file. -/
def node (placement : Placement) : Node Position :=
  literal.tree.map fun place => placement (positionOf literal.source place)

theorem parted : literal.source = (literal.front ++ ['`']) ++ (literal.body ++ '`' :: literal.rest) := by
  rw [source, List.append_assoc, List.singleton_append]

/-- Gaps and substitutions lie in the literal. -/
theorem span_ordered {literal : Literal} {span : Nat × Nat}
    (member : span ∈ literal.gaps ++ literal.spans) : span.1 ≤ literal.start ∧ span.2 ≤ span.1 := by
  rcases List.mem_append.mp member with gap | own
  · exact literal.inOrder.gap gap
  · exact literal.inOrder.span own

theorem start_lt : literal.start < literal.source.length := by
  rw [parted, start]
  simp only [List.length_append, List.length_cons, List.length_nil]
  omega

theorem between_body : between literal.source (literal.start, literal.stop) = literal.body := by
  have whole := cut_eq literal.parted (Nat.le_refl _) literal.inOrder.stop_le (Nat.le_refl _)
  rw [Nat.sub_self, List.drop_zero, List.length_append, Nat.add_sub_cancel, List.take_length] at whole
  rw [start, stop, List.length_append]
  exact whole.symm

theorem positionOf_eq (placement : Placement) (place : Nat) :
    placement (positionOf literal.source place) = literal.position placement place := by
  have byte : characterAt? literal.source (byteLength
      (literal.source.take (literal.source.length - place))) = some (literal.source.length - place) :=
    characterAt?_byteAt place
  rw [positionOf, Source.positionOfByte?, byte, Option.map_some, Option.getD_some,
    Source.positionAt_eq_filePosition (Nat.sub_le _ _), position]

/-- The pieces of the literal, in order, are its gaps. -/
theorem node_eq (placement : Placement) :
    ∃ pieces : Source.Pieces Position,
      pieces.all = (literal.gaps.map fun gap => ⟨literal.position placement gap.1,
        cook true (literal.raw gap), literal.raw gap⟩) ∧
      literal.node placement = .template (literal.position placement (literal.start + 1)) pieces
        ((literal.parts.filterMap Part.expression).map (Node.map (literal.position placement))) := by
  have cut : (pieces literal.start literal.body literal.start literal.parts).all =
      literal.gaps.map fun gap => piece gap.1 (between literal.source gap) :=
    pieces_eq literal.parted (Nat.le_refl _) literal.inOrder
  simp only [node, positionOf_eq]
  rw [tree, Node.map, Node.mapAll_eq]
  refine ⟨_, ?_, rfl⟩
  rw [Source.Pieces.all_map, cut, List.map_map]
  refine List.map_congr_left fun gap _ => ?_
  rw [Function.comp_apply, piece, Source.Piece.map, Text.unifiedLines_eq]
  rfl

end Literal

/-! ### Reading -/

/-- Where the text of an open block comment starts; else where the reader is. -/
def Between.origin (text : List Char) : Between → List Char
  | blockComment start => start
  | blockAsterisk start => start
  | _ => text

/-- Blanks and comments are passed forwards, and an open comment goes back to its start at most. -/
theorem passBetween_suffix (markup : Bool) (place : Between) (newLine commentLine : Bool)
    {text : List Char} (inside : text <:+ place.origin text) :
    (passBetween markup place newLine commentLine text).rest <:+ place.origin text := by
  fun_induction passBetween markup place newLine commentLine text <;>
    grind [Between.origin, List.suffix_cons, List.IsSuffix.trans, List.suffix_refl]

theorem mark_suffix {chars : String} {text rest : List Char}
    (passed : Reader.mark chars text = some ((), rest)) : rest <:+ text := by
  obtain ⟨after, found, same⟩ := Option.map_eq_some_iff.mp passed
  cases same
  have blanks : (afterBlanks text).rest <:+ text :=
    passBetween_suffix false .blanks false false (List.suffix_refl text)
  rw [Text.dropStart_eq_some.mp found] at blanks
  exact (List.suffix_append _ _).trans blanks

theorem escapeRest?_suffix {text rest : List Char} (passed : escapeRest? text = some rest) :
    rest <:+ text := by
  rw [escapeRest?.eq_def] at passed
  split at passed
  · cases passed
  · rename_i c more
    refine List.IsSuffix.trans ?_ (List.suffix_cons c more)
    split at passed
    · obtain ⟨⟨code, after⟩, found, same⟩ := Option.map_eq_some_iff.mp passed
      cases same
      rcases Option.or_eq_some_iff.mp found with braced | ⟨-, four⟩
      · obtain ⟨digits, rfl, -⟩ := bracedHex?_eq_some.mp braced
        exact ⟨'{' :: (digits ++ ['}']), by simp⟩
      · obtain ⟨digits, rfl, -⟩ := hexRun?_eq_some.mp four
        exact List.suffix_append _ _
    · split at passed
      · obtain ⟨⟨code, after⟩, two, same⟩ := Option.map_eq_some_iff.mp passed
        cases same
        obtain ⟨digits, rfl, -⟩ := hexRun?_eq_some.mp two
        exact List.suffix_append _ _
      · split at passed
        · cases passed
          exact List.drop_suffix _ _
        · split at passed
          · split at passed
            · cases passed
              exact List.suffix_cons _ _
            · cases passed
              exact List.suffix_refl _
          · cases passed
            exact List.suffix_refl _

/-- The parts of a literal that is read lie in it, its substitutions one behind another, if the reader of
expressions goes forwards. -/
theorem templateParts_inOrder {expressions : Reader Tree}
    (forwards : ∀ text expression rest, expressions text = some (expression, rest) → rest <:+ text)
    {fuel : Nat} {text rest : List Char} {parts : List Part}
    (read : templateParts expressions fuel text = some (parts, rest)) :
    rest <:+ text ∧ rest.head? = some '`' ∧
      InOrder text.length rest.length (substitutions parts) := by
  induction fuel generalizing text parts with
  | zero => cases read
  | succ fuel ih =>
    cases text with
    | nil => cases read
    | cons c text =>
      rw [templateParts.eq_def] at read
      dsimp only at read
      split at read
      · rename_i mark
        cases read
        exact ⟨List.suffix_refl _, congrArg some mark, inOrder_nil.mpr (Nat.le_refl _)⟩
      · split at read
        · obtain ⟨after, escape, read⟩ := Option.bind_eq_some_iff.mp read
          obtain ⟨⟨others, last⟩, more, done⟩ := Option.bind_eq_some_iff.mp read
          cases done
          obtain ⟨suffix, ends, ordered⟩ := ih more
          have passed := (escapeRest?_suffix escape).trans (List.suffix_cons c text)
          rw [substitutions_none]
          exact ⟨suffix.trans passed, ends, ordered.above passed.length_le⟩
        · split at read
          · rename_i inner _ _
            obtain ⟨⟨expression, after⟩, within, read⟩ := Option.bind_eq_some_iff.mp read
            obtain ⟨⟨others, last⟩, more, done⟩ := Option.bind_eq_some_iff.mp read
            obtain ⟨⟨own, middle⟩, value, within⟩ := Option.bind_eq_some_iff.mp within
            obtain ⟨⟨⟨⟩, after⟩, mark, same⟩ := Option.bind_eq_some_iff.mp within
            cases same
            cases done
            obtain ⟨suffix, ends, ordered⟩ := ih more
            have passed : after <:+ '$' :: '{' :: inner :=
              (mark_suffix mark).trans ((forwards _ _ _ value).trans (List.suffix_append ['$', '{'] inner))
            rw [substitutions_some]
            exact ⟨suffix.trans passed, ends,
              inOrder_cons.mpr ⟨Nat.le_refl _, passed.length_le, ordered⟩⟩
          · obtain ⟨suffix, ends, ordered⟩ := ih read
            exact ⟨suffix.trans (List.suffix_cons c text), ends, ordered.above (Nat.le_succ _)⟩

/-- What is read between the marks of a template literal is a literal of the source text. -/
theorem templateBody_literal {expressions : Reader Tree}
    (forwards : ∀ text expression rest, expressions text = some (expression, rest) → rest <:+ text)
    (front : List Char) {text rest : List Char} {pieces : Source.Pieces Nat}
    {inner : List Tree}
    (read : Grammar.templateBody expressions text = some ((pieces, inner), rest)) :
    ∃ literal : Literal, literal.source = front ++ '`' :: text ∧ rest = '`' :: literal.rest ∧
      literal.tree = .template (text.length + 1) pieces inner := by
  rw [Grammar.templateBody] at read
  split at read
  · rename_i parts last found
    obtain ⟨⟨body, rfl⟩, ends, ordered⟩ := templateParts_inOrder forwards found
    obtain ⟨after, rfl⟩ := List.head?_eq_some_iff.mp ends
    cases read
    refine ⟨⟨front, body, after, parts, ordered⟩, rfl, rfl, ?_⟩
    have own : (body ++ '`' :: after).take ((body ++ '`' :: after).length - ('`' :: after).length) =
        body := by
      rw [List.length_append, Nat.add_sub_cancel, List.take_left]
    rw [own]
    rfl
  · cases read

/-! ### Values -/

theorem meaning_inUnicode {escape : Escape} {points : CodePoints}
    (means : escape.meaning true = some points) : points.InUnicode := by
  cases escape with
  | number code =>
    rw [Escape.meaning] at means
    split at means
    · rename_i inside
      cases means
      simpa [CodePoints.InUnicode] using inside
    · cases means
  | octal digits =>
    rw [Escape.meaning] at means
    split at means
    · cases means
      simp [CodePoints.InUnicode]
    · cases means
  | continuation =>
    cases means
    simp [CodePoints.InUnicode]
  | plain c =>
    rw [Escape.meaning] at means
    split at means
    · cases means
    · split at means
      · cases means
      · cases means
        have most := CodePoints.toNat_le c
        rw [controlOf?.eq_def]
        split <;> simp [CodePoints.InUnicode, most]

theorem cookFrom_inUnicode {fuel : Nat} {spelling : List Char} {points : CodePoints}
    (cooks : cookFrom true fuel spelling = some points) : points.InUnicode := by
  induction fuel generalizing spelling points with
  | zero =>
    cases spelling with
    | nil =>
      cases cooks
      simp [CodePoints.InUnicode]
    | cons c rest => cases cooks
  | succ fuel ih =>
    cases spelling with
    | nil =>
      cases cooks
      simp [CodePoints.InUnicode]
    | cons c rest =>
      by_cases plain : c = '\\' → rest = []
      · rw [cookFrom_plain true plain] at cooks
        obtain ⟨others, later, rfl⟩ := Option.map_eq_some_iff.mp cooks
        exact CodePoints.inUnicode_cons.mpr ⟨CodePoints.toNat_le c, ih later⟩
      · obtain ⟨rfl, some⟩ := Classical.not_imp.mp plain
        obtain ⟨e, more, rfl⟩ := List.exists_cons_of_ne_nil some
        rw [cookFrom_escape] at cooks
        obtain ⟨first, means, cooks⟩ := Option.bind_eq_some_iff.mp cooks
        obtain ⟨others, later, rfl⟩ := Option.map_eq_some_iff.mp cooks
        exact CodePoints.inUnicode_append (meaning_inUnicode means) (ih later)

/-- The value of a template's spelling is text of Unicode. -/
theorem cook_inUnicode {spelling : List Char} {points : CodePoints}
    (cooks : cook true spelling = some points) : points.InUnicode := by
  obtain ⟨separate, read, rfl⟩ := Option.map_eq_some_iff.mp cooks
  have inside := cookFrom_inUnicode read
  rw [joinSurrogates]
  cases join : separate.joinPairs with
  | none => exact inside
  | some joined => exact CodePoints.inUnicode_joinPairs inside join

theorem mem_alternate {α : Type} {firsts seconds : List (List α)} {item : α}
    (member : item ∈ alternate firsts seconds) :
    (∃ first ∈ firsts, item ∈ first) ∨ ∃ second ∈ seconds, item ∈ second := by
  fun_induction alternate firsts seconds with
  | case1 first firsts second seconds ih =>
    simp only [List.mem_append] at member
    rcases member with own | next | later
    · exact .inl ⟨first, List.mem_cons_self, own⟩
    · exact .inr ⟨second, List.mem_cons_self, next⟩
    · rcases ih later with ⟨one, member, inside⟩ | ⟨one, member, inside⟩
      · exact .inl ⟨one, List.mem_cons_of_mem _ member, inside⟩
      · exact .inr ⟨one, List.mem_cons_of_mem _ member, inside⟩
  | case2 => exact .inl (List.mem_flatten.mp member)

theorem Literal.message_inUnicode (literal : Literal) : literal.message.InUnicode := by
  intro code member
  rcases mem_alternate member with ⟨piece, listed, inside⟩ | ⟨piece, listed, inside⟩
  · obtain ⟨gap, -, rfl⟩ := List.mem_map.mp listed
    rw [Literal.chunk] at inside
    cases cooks : cook true (literal.raw gap) with
    | none =>
      rw [cooks] at inside
      exact CodePoints.inUnicode_ofChars _ code inside
    | some points =>
      rw [cooks] at inside
      exact cook_inUnicode cooks code inside
  · obtain ⟨index, -, rfl⟩ := List.mem_map.mp listed
    exact CodePoints.inUnicode_ofChars _ code inside

end Phrasebook.Script

namespace Phrasebook.Extract

open Script
open Source (Node Placement Position)
open Text (CodePoints)

/-! ### Messages -/

/-- The placeholders of a message stand between its chunks. -/
theorem alternate_placeholders (first : CodePoints) (index : Nat) (rest : List CodePoints) :
    alternate (first :: rest)
        ((List.range' index rest.length).map fun index => CodePoints.ofString (placeholder index)) =
      first ++ chunkPoints index rest := by
  induction rest generalizing first index with
  | nil => simp [alternate, chunkPoints]
  | cons second rest ih =>
    rw [List.length_cons, List.range'_succ, List.map_cons, alternate, ih, chunkPoints,
      List.append_assoc]

theorem templatePoints_eq {chunks : List CodePoints} {count : Nat}
    (length : chunks.length = count + 1) :
    templatePoints chunks = .ok (alternate chunks
      ((List.range count).map fun index => CodePoints.ofString (placeholder index))) := by
  obtain ⟨first, rest, rfl⟩ := List.exists_cons_of_length_eq_add_one length
  obtain rfl : rest.length = count := Nat.succ.inj length
  rw [List.range_eq_range', alternate_placeholders, templatePoints]

theorem taggedTemplate_node (literal : Literal) (placement : Placement) (file : String) {tags : Tags}
    (spot : Position) {name : String} (listed : name ∈ tags.message) :
    taggedTemplate file tags (.identifier spot name) (literal.node placement) =
      record file (literal.position placement (literal.start + 1)) literal.message none none := by
  obtain ⟨pieces, gaps, node⟩ := literal.node_eq placement
  have chunks : pieces.all.map Extract.chunk = literal.gaps.map literal.chunk := by
    rw [gaps, List.map_map]
    rfl
  have count : (literal.gaps.map literal.chunk).length = literal.spans.length + 1 := by
    rw [List.length_map]
    exact length_gaps _ _ _
  rw [node]
  unfold taggedTemplate
  dsimp only [identifier?]
  rw [if_pos (List.contains_iff_mem.mpr listed), chunks, templatePoints_eq count]
  rfl

/-! ### The whole literal -/

/-- A template literal is cut at its substitutions, whatever else stands in it: there is a piece more
than there are substitutions, and in turn they make up its text, as characters and as bytes. Each piece
has the position of its first character, and its spelling has a line feed for each line end. The record
of the literal with a tag has the pieces and a placeholder for each substitution in the same turn; there
is none just if the text cannot be stored. -/
theorem literal_pieces (literal : Literal) (placement : Placement) (file : String) (tags : Tags) :
    literal.gaps.length = literal.spans.length + 1 ∧
      alternate (literal.gaps.map (between literal.source))
          (literal.spans.map (between literal.source)) = literal.body ∧
      (∀ span ∈ literal.gaps ++ literal.spans,
        Source.slice literal.source (byteAt literal.source span.1) (byteAt literal.source span.2) =
            .ok (between literal.source span) ∧
          Source.characterAt? literal.source (byteAt literal.source span.1) =
            some (literal.source.length - span.1)) ∧
      (∃ pieces : Source.Pieces Position,
        pieces.all = (literal.gaps.map fun gap => ⟨literal.position placement gap.1,
          cook true (literal.raw gap), literal.raw gap⟩) ∧
        literal.node placement = .template (literal.position placement (literal.start + 1)) pieces
          ((literal.parts.filterMap Part.expression).map (Node.map (literal.position placement)))) ∧
      ∀ spot name, name ∈ tags.message →
        (literal.message.IsWhole → ∃ one,
          taggedTemplate file tags (.identifier spot name) (literal.node placement) = .ok [one] ∧
            CodePoints.ofString one.message = literal.message ∧
            one.origin = some ⟨file, literal.position placement (literal.start + 1)⟩) ∧
          (¬literal.message.IsWhole → ∃ run,
            taggedTemplate file tags (.identifier spot name) (literal.node placement) =
              .error (.unencodable run)) := by
  refine ⟨length_gaps _ _ _, ?_, fun span member => ?_, literal.node_eq placement, ?_⟩
  · exact (alternate_gaps literal.start_lt.le literal.inOrder).trans literal.between_body
  · obtain ⟨within, ordered⟩ := Literal.span_ordered member
    exact ⟨slice_byteAt (Nat.le_trans within literal.start_lt.le) ordered, characterAt?_byteAt _⟩
  · intro spot name listed
    rw [taggedTemplate_node literal placement file spot listed]
    constructor
    · intro whole
      refine ⟨_, record_eq whole (fun text none => by cases none), ?_, rfl⟩
      exact CodePoints.ofString_shown whole literal.message_inUnicode
    · intro broken
      have behind : ¬(Message.payload literal.message none).IsWhole :=
        fun whole => broken (Message.payload_isWhole_iff.mp whole).1
      obtain ⟨run, found⟩ := CodePoints.encode_error_iff.mpr behind
      refine ⟨run, ?_⟩
      rw [record, Message.identify, Message.hashed, found]
      rfl

/-- A literal with an escape, a substitution and a line end of two characters. -/
def tabLiteral : Literal where
  front := ['g']
  body := "\\t$\x7bx\x7dé\r\n!".toList
  rest := []
  parts := [⟨11, 9, none⟩, ⟨9, 5, some (.identifier 7 "x")⟩]
  inOrder := by decide

theorem literal_pieces_tab :
    tabLiteral.source = "g`\\t$\x7bx\x7dé\r\n!`".toList ∧
      tabLiteral.gaps.map (between tabLiteral.source) = ["\\t".toList, "é\r\n!".toList] ∧
      tabLiteral.gaps.map (tabLiteral.position id ·.1) = [⟨1, 2⟩, ⟨1, 8⟩] ∧
      tabLiteral.gaps.map tabLiteral.raw = ["\\t".toList, "é\n!".toList] ∧
      ∃ one, taggedTemplate "a.js" .ofScripts (.identifier ⟨1, 0⟩ "g") (tabLiteral.node id) = .ok [one] ∧
        one.message = "\t\x7b0\x7dé\n!" ∧ one.origin = some ⟨"a.js", ⟨1, 1⟩⟩ := by
  have message : tabLiteral.message = CodePoints.ofString "\t\x7b0\x7dé\n!" := by decide
  obtain ⟨-, -, -, -, states⟩ := literal_pieces tabLiteral id "a.js" .ofScripts
  obtain ⟨one, stated, spelled, origin⟩ :=
    (states ⟨1, 0⟩ "g" (by decide)).1 (message ▸ CodePoints.isWhole_ofString _)
  rw [message] at spelled
  exact ⟨by decide, by decide, by decide, by decide, one, stated,
    CodePoints.ofString_injective spelled, origin⟩

end Phrasebook.Extract

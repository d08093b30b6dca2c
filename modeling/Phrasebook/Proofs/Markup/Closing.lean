import Mathlib.Data.List.TakeWhile
import Phrasebook.Markup.Brace
import Phrasebook.Proofs.Outcome
import Phrasebook.Text.Split

set_option autoImplicit false

/-!
The closing brace of an expression is the first one that stands after whole tokens. The grammar of
tokens is stated by itself; passing over a text and counting brackets finds just what it says.
-/
namespace Phrasebook.Markup

open Outcome (ok_bind error_bind bind_eq_ok)

/-! ### The grammar

Each relation holds between a text and what is left of it.
-/

/-- A string goes on up to its quote. A backslash and any character make one letter. -/
inductive StringRest (quote : Char) : List Char → List Char → Prop
  | close (rest : List Char) : StringRest quote (quote :: rest) rest
  | escape (c : Char) {text rest : List Char} (more : StringRest quote text rest) :
      StringRest quote ('\\' :: c :: text) rest
  | letter {c : Char} {text rest : List Char} (plain : c ≠ quote ∧ c ≠ '\\')
      (more : StringRest quote text rest) : StringRest quote (c :: text) rest

/-- Two slashes, or a slash and a star. -/
def StartsComment (text : List Char) : Prop := text.take 2 = ['/', '/'] ∨ text.take 2 = ['/', '*']

/-- A character that is a token of its own. -/
structure IsSingle (c : Char) (rest : List Char) : Prop where
  noQuote : isQuote c = false
  noTemplate : c ≠ '`'
  noOpening : opensBracket c = false
  noClosing : closesBracket c = false
  noComment : ¬StartsComment (c :: rest)

mutual

/-- The first token of a text. -/
inductive Token : List Char → List Char → Prop
  | string {quote : Char} {text rest : List Char} (opens : isQuote quote = true)
      (inside : StringRest quote text rest) : Token (quote :: text) rest
  | template {text rest : List Char} (inside : TemplateRest text rest) : Token ('`' :: text) rest
  /-- A line comment lasts up to the next line feed, or to the end. -/
  | line {comment rest : List Char} (inside : '\n' ∉ comment)
      (ends : rest = [] ∨ rest.head? = some '\n') : Token ('/' :: '/' :: (comment ++ rest)) rest
  /-- A block comment lasts up to the first star with a slash. -/
  | block {comment rest : List Char} (first : Text.occurs ['*', '/'] (comment ++ ['*']) = false) :
      Token ('/' :: '*' :: (comment ++ '*' :: '/' :: rest)) rest
  | brackets {opening closing : Char} {text rest : List Char} (opens : opensBracket opening = true)
      (inside : Fragment text (closing :: rest)) (closes : closesBracket closing = true) :
      Token (opening :: text) rest
  | single {c : Char} {rest : List Char} (plain : IsSingle c rest) : Token (c :: rest) rest

/-- Any number of tokens. -/
inductive Fragment : List Char → List Char → Prop
  | nothing (text : List Char) : Fragment text text
  | token {text middle rest : List Char} (first : Token text middle)
      (more : Fragment middle rest) : Fragment text rest

/-- A template literal goes on up to its closing mark, with fragments in braces after dollars. -/
inductive TemplateRest : List Char → List Char → Prop
  | close (rest : List Char) : TemplateRest ('`' :: rest) rest
  | escape (c : Char) {text rest : List Char} (more : TemplateRest text rest) :
      TemplateRest ('\\' :: c :: text) rest
  | expression {text middle rest : List Char} (inside : Fragment text ('}' :: middle))
      (more : TemplateRest middle rest) : TemplateRest ('$' :: '{' :: text) rest
  | letter {c : Char} {text rest : List Char} (plain : c ≠ '`' ∧ c ≠ '\\')
      (alone : (c :: text).take 2 ≠ ['$', '{']) (more : TemplateRest text rest) :
      TemplateRest (c :: text) rest

end

/-! ### What is passed

A token looks one character ahead at most, so it stands in front of any text that starts alike.
-/

theorem take_two_congr {text other : List Char} (same : other.head? = text.head?) (c : Char) :
    (c :: other).take 2 = (c :: text).take 2 := by
  cases text <;> cases other <;> simp_all

theorem StartsComment.congr {text other : List Char} (same : other.head? = text.head?) {c : Char}
    (starts : StartsComment (c :: other)) : StartsComment (c :: text) := by
  rwa [StartsComment, take_two_congr same] at starts

theorem head?_append_congr {rest other : List Char} (same : other.head? = rest.head?)
    (passed : List Char) : (passed ++ other).head? = (passed ++ rest).head? := by
  rw [List.head?_append, List.head?_append, same]

theorem StringRest.passes {quote : Char} {text rest : List Char}
    (inside : StringRest quote text rest) :
    ∃ passed, text = passed ++ rest ∧ passed ≠ [] ∧
      ∀ other, StringRest quote (passed ++ other) other := by
  induction inside with
  | close rest => exact ⟨[quote], rfl, List.cons_ne_nil _ _, .close⟩
  | escape c _ ih =>
    obtain ⟨passed, rfl, -, again⟩ := ih
    exact ⟨'\\' :: c :: passed, rfl, List.cons_ne_nil _ _, fun other => .escape c (again other)⟩
  | letter plain _ ih =>
    obtain ⟨passed, rfl, -, again⟩ := ih
    exact ⟨_ :: passed, rfl, List.cons_ne_nil _ _, fun other => .letter plain (again other)⟩

mutual

theorem Token.passes {text rest : List Char} (token : Token text rest) :
    ∃ passed, text = passed ++ rest ∧ passed ≠ [] ∧
      ∀ other, other.head? = rest.head? → Token (passed ++ other) other :=
  match token with
  | .string opens inside => by
    obtain ⟨passed, rfl, -, again⟩ := inside.passes
    exact ⟨_ :: passed, rfl, List.cons_ne_nil _ _, fun other _ => .string opens (again other)⟩
  | .template inside => by
    obtain ⟨passed, rfl, -, again⟩ := inside.passes
    exact ⟨_ :: passed, rfl, List.cons_ne_nil _ _, fun other _ => .template (again other)⟩
  | @Token.line comment _ inside ends => by
    refine ⟨'/' :: '/' :: comment, rfl, List.cons_ne_nil _ _, fun other same => .line inside ?_⟩
    rcases ends with rfl | feed
    · exact .inl (List.head?_eq_none_iff.mp same)
    · exact .inr (same.trans feed)
  | @Token.block comment _ first => by
    refine ⟨'/' :: '*' :: (comment ++ ['*', '/']), by simp, List.cons_ne_nil _ _, ?_⟩
    intro other _
    have block : Token ('/' :: '*' :: (comment ++ '*' :: '/' :: other)) other := .block first
    simpa using block
  | @Token.brackets opening closing _ _ opens inside closes => by
    obtain ⟨passed, rfl, again⟩ := inside.passes
    refine ⟨opening :: (passed ++ [closing]), by simp, List.cons_ne_nil _ _, ?_⟩
    intro other _
    have within : Fragment (passed ++ [closing] ++ other) (closing :: other) := by
      simpa using again (closing :: other) rfl
    exact .brackets opens within closes
  | @Token.single c _ plain => by
    refine ⟨[c], rfl, List.cons_ne_nil _ _, fun other same => .single ⟨plain.noQuote,
      plain.noTemplate, plain.noOpening, plain.noClosing, ?_⟩⟩
    exact fun starts => plain.noComment (starts.congr same)

theorem Fragment.passes {text rest : List Char} (fragment : Fragment text rest) :
    ∃ passed, text = passed ++ rest ∧
      ∀ other, other.head? = rest.head? → Fragment (passed ++ other) other :=
  match fragment with
  | .nothing _ => ⟨[], rfl, fun other _ => .nothing other⟩
  | .token first more => by
    obtain ⟨token, rfl, -, firstAgain⟩ := first.passes
    obtain ⟨passed, rfl, again⟩ := more.passes
    refine ⟨token ++ passed, (List.append_assoc ..).symm, fun other same => ?_⟩
    rw [List.append_assoc]
    exact .token (firstAgain _ (head?_append_congr same passed)) (again other same)

theorem TemplateRest.passes {text rest : List Char} (inside : TemplateRest text rest) :
    ∃ passed, text = passed ++ rest ∧ passed ≠ [] ∧
      ∀ other, TemplateRest (passed ++ other) other :=
  match inside with
  | .close _ => ⟨['`'], rfl, List.cons_ne_nil _ _, .close⟩
  | .escape c more => by
    obtain ⟨passed, rfl, -, again⟩ := more.passes
    exact ⟨'\\' :: c :: passed, rfl, List.cons_ne_nil _ _, fun other => .escape c (again other)⟩
  | .expression inside more => by
    obtain ⟨first, rfl, firstAgain⟩ := inside.passes
    obtain ⟨passed, rfl, -, again⟩ := more.passes
    refine ⟨'$' :: '{' :: (first ++ '}' :: passed), by simp, List.cons_ne_nil _ _, ?_⟩
    intro other
    have within : Fragment (first ++ '}' :: passed ++ other) ('}' :: (passed ++ other)) := by
      simpa using firstAgain ('}' :: (passed ++ other)) rfl
    exact .expression within (again other)
  | @TemplateRest.letter c _ rest plain alone more => by
    obtain ⟨passed, rfl, some, again⟩ := more.passes
    refine ⟨c :: passed, rfl, List.cons_ne_nil _ _, fun other => ?_⟩
    have same : (passed ++ other).head? = (passed ++ rest).head? := by
      cases passed with
      | nil => exact absurd rfl some
      | cons d passed => rfl
    exact .letter plain (take_two_congr same c ▸ alone) (again other)

end

theorem Token.length_lt {text rest : List Char} (token : Token text rest) :
    rest.length < text.length := by
  obtain ⟨passed, rfl, some, -⟩ := token.passes
  have := List.length_pos_iff.mpr some
  rw [List.length_append]
  omega

theorem TemplateRest.length_lt {text rest : List Char} (inside : TemplateRest text rest) :
    rest.length < text.length := by
  obtain ⟨passed, rfl, some, -⟩ := inside.passes
  have := List.length_pos_iff.mpr some
  rw [List.length_append]
  omega

theorem Fragment.length_le {text rest : List Char} (fragment : Fragment text rest) :
    rest.length ≤ text.length := by
  obtain ⟨passed, rfl, -⟩ := fragment.passes
  rw [List.length_append]
  omega

/-! ### Strings and comments -/

theorem isQuote_ne {quote : Char} (opens : isQuote quote = true) : quote ≠ '\\' := by
  rintro rfl
  cases opens

theorem skipString_eq_ok {quote : Char} (other : quote ≠ '\\') {text rest : List Char} :
    skipString quote text = .ok rest ↔ StringRest quote text rest := by
  constructor
  · intro passed
    fun_induction skipString quote text with
    | case1 => cases passed
    | case2 => cases passed
    | case3 c text ih => exact .escape c (ih passed)
    | case4 text _ _ =>
      cases passed
      exact .close rest
    | case5 c text lone pair apart ih =>
      refine .letter ⟨apart, ?_⟩ (ih passed)
      rintro rfl
      cases text with
      | nil => exact lone rfl rfl
      | cons d text => exact pair d text rfl rfl
  · intro inside
    induction inside with
    | close rest =>
      rw [skipString, if_pos rfl]
      · exact fun same _ => other same
      · exact fun _ _ same _ => other same
    | escape c _ ih => rw [skipString, ih]
    | letter plain _ ih =>
      rw [skipString, if_neg plain.1, ih]
      · exact fun same _ => plain.2 same
      · exact fun _ _ same _ => plain.2 same

theorem skipLine_eq {comment rest : List Char} (inside : '\n' ∉ comment)
    (ends : rest = [] ∨ rest.head? = some '\n') : skipLine (comment ++ rest) = rest := by
  have all : ∀ c ∈ comment, decide (c ≠ '\n') = true := by
    intro c member
    rw [decide_eq_true_iff]
    rintro rfl
    exact inside member
  rw [skipLine, List.dropWhile_append_of_pos all]
  rcases ends with rfl | feed
  · rfl
  · cases rest with
    | nil => cases feed
    | cons c rest =>
      cases feed
      rfl

theorem token_line (text : List Char) : Token ('/' :: '/' :: text) (skipLine text) := by
  have split : text.takeWhile (· ≠ '\n') ++ skipLine text = text := List.takeWhile_append_dropWhile
  have inside : '\n' ∉ text.takeWhile (· ≠ '\n') := by
    intro member
    simpa using List.mem_takeWhile_imp member
  have ends : skipLine text = [] ∨ (skipLine text).head? = some '\n' := by
    cases left : skipLine text with
    | nil => exact .inl rfl
    | cons c rest =>
      have stops := List.head?_dropWhile_not (fun c : Char => decide (c ≠ '\n')) text
      rw [← skipLine, left] at stops
      exact .inr (by simpa using stops)
  have line := Token.line inside ends
  rwa [split] at line

theorem occurs_block_cons {c : Char} {comment : List Char} :
    Text.occurs ['*', '/'] (c :: comment ++ ['*']) = false ↔
      ¬(c = '*' ∧ comment.head? = some '/') ∧ Text.occurs ['*', '/'] (comment ++ ['*']) = false := by
  rw [List.cons_append, Text.occurs, Bool.or_eq_false_iff]
  refine and_congr_left fun _ => ?_
  cases comment with
  | nil => simp [List.isPrefixOf]
  | cons d comment => simp [List.isPrefixOf, @eq_comm _ c, @eq_comm _ d]

theorem skipBlock?_eq_some {text rest : List Char} :
    skipBlock? text = some rest ↔ ∃ comment, text = comment ++ '*' :: '/' :: rest ∧
      Text.occurs ['*', '/'] (comment ++ ['*']) = false := by
  constructor
  · intro passed
    fun_induction skipBlock? text with
    | case1 => cases passed
    | case2 text =>
      cases passed
      exact ⟨[], rfl, by decide⟩
    | case3 c text apart ih =>
      obtain ⟨comment, rfl, first⟩ := ih passed
      refine ⟨c :: comment, rfl, occurs_block_cons.mpr ⟨?_, first⟩⟩
      rintro ⟨rfl, slash⟩
      cases comment with
      | nil => cases slash
      | cons d comment =>
        cases slash
        exact apart _ rfl rfl
  · rintro ⟨comment, rfl, first⟩
    induction comment with
    | nil => rfl
    | cons c comment ih =>
      obtain ⟨apart, later⟩ := occurs_block_cons.mp first
      rw [List.cons_append, skipBlock?, ih later]
      rintro text rfl same
      cases comment with
      | nil => cases same
      | cons d comment =>
        cases same
        exact apart ⟨rfl, rfl⟩

/-! ### Brackets that are open -/

/-- Fragments with a closing bracket after each of them but the last one. -/
def Closes : Nat → List Char → List Char → Prop
  | 0, text, rest => Fragment text rest
  | depth + 1, text, rest => ∃ closing middle, Fragment text (closing :: middle) ∧
      closesBracket closing = true ∧ Closes depth middle rest

section Closes

variable {depth : Nat} {text middle rest : List Char}

theorem Closes.token (first : Token text middle) (more : Closes depth middle rest) :
    Closes depth text rest := by
  cases depth with
  | zero => exact .token first more
  | succ depth =>
    obtain ⟨closing, after, inside, closes, later⟩ := more
    exact ⟨closing, after, .token first inside, closes, later⟩

theorem Closes.open {opening : Char} (opens : opensBracket opening = true)
    (more : Closes (depth + 1) text rest) : Closes depth (opening :: text) rest := by
  obtain ⟨closing, after, inside, closes, later⟩ := more
  exact later.token (.brackets opens inside closes)

theorem Closes.close {closing : Char} (closes : closesBracket closing = true)
    (more : Closes depth text rest) : Closes (depth + 1) (closing :: text) rest :=
  ⟨closing, text, .nothing _, closes, more⟩

/-- What brackets close starts with a token, with a closing bracket, or is what is left. -/
theorem Closes.cases (closes : Closes depth text rest) :
    (∃ middle, Token text middle ∧ Closes depth middle rest) ∨ (depth = 0 ∧ text = rest) ∨
      ∃ outer closing middle, depth = outer + 1 ∧ text = closing :: middle ∧
        closesBracket closing = true ∧ Closes outer middle rest := by
  cases depth with
  | zero =>
    cases closes with
    | nothing => exact .inr (.inl ⟨rfl, rfl⟩)
    | token first more => exact .inl ⟨_, first, more⟩
  | succ depth =>
    obtain ⟨closing, after, inside, bracket, later⟩ := closes
    cases inside with
    | nothing => exact .inr (.inr ⟨depth, closing, after, rfl, rfl, bracket, later⟩)
    | token first more => exact .inl ⟨_, first, closing, after, more, bracket, later⟩

end Closes

theorem exists_of_take_two {c first second : Char} {text : List Char}
    (starts : (c :: text).take 2 = [first, second]) :
    ∃ rest, c = first ∧ text = second :: rest := by
  cases text with
  | nil => cases starts
  | cons d rest =>
    cases starts
    exact ⟨rest, rfl, rfl⟩

/-! ### One step of the scan -/

section Step

variable {fuel depth : Nat} {c : Char} {rest : List Char}

theorem toClosing_string (opens : isQuote c = true) :
    toClosing (fuel + 1) depth (c :: rest) =
      skipString c rest >>= fun after => toClosing fuel depth after := by
  rw [toClosing.eq_def]
  exact if_pos opens

theorem toClosing_template :
    toClosing (fuel + 1) depth ('`' :: rest) =
      skipTemplate fuel rest >>= fun after => toClosing fuel depth after := by
  rw [toClosing.eq_def]
  rfl

theorem toClosing_line :
    toClosing (fuel + 1) depth ('/' :: '/' :: rest) = toClosing fuel depth (skipLine rest) := by
  rw [toClosing, if_neg (by decide), if_neg (by decide)]

theorem toClosing_block {after : List Char} (ends : skipBlock? rest = some after) :
    toClosing (fuel + 1) depth ('/' :: '*' :: rest) = toClosing fuel depth after := by
  rw [toClosing, if_neg (by decide), if_neg (by decide)]
  simp only [ends]

theorem toClosing_open (endless : skipBlock? rest = none) :
    toClosing (fuel + 1) depth ('/' :: '*' :: rest) = .error .openExpression := by
  rw [toClosing, if_neg (by decide), if_neg (by decide)]
  simp only [endless]

theorem toClosing_other (noQuote : isQuote c = false) (noTemplate : c ≠ '`')
    (noComment : ¬StartsComment (c :: rest)) :
    toClosing (fuel + 1) depth (c :: rest) =
      if opensBracket c then toClosing fuel (depth + 1) rest
      else if closesBracket c then
        match depth with
        | 0 => if c = '}' then .ok (c :: rest) else .error (.unexpected c)
        | depth + 1 => toClosing fuel depth rest
      else toClosing fuel depth rest := by
  rw [toClosing.eq_def]
  dsimp only
  rw [if_neg (by simp [noQuote]), if_neg noTemplate]
  split
  · exact absurd (.inl rfl) noComment
  · exact absurd (.inr rfl) noComment
  · rfl

theorem skipTemplate_letter (plain : c ≠ '`' ∧ c ≠ '\\') (alone : (c :: rest).take 2 ≠ ['$', '{']) :
    skipTemplate (fuel + 1) (c :: rest) = skipTemplate fuel rest := by
  rw [skipTemplate, if_neg plain.2, if_neg plain.1]
  rintro inner rfl rfl
  exact alone rfl

theorem skipTemplate_expression {inner : List Char} :
    skipTemplate (fuel + 1) ('$' :: '{' :: inner) =
      toClosing fuel 0 inner >>= fun close => skipTemplate fuel close.tail := by
  rw [skipTemplate, if_neg (by decide), if_neg (by decide)]

end Step

/-! ### The scan follows the grammar -/

/-- What is passed of template literals is what the grammar says. -/
def TemplateSound (fuel : Nat) : Prop :=
  ∀ text rest, skipTemplate fuel text = .ok rest → TemplateRest text rest

/-- What stands before the brace that is found is what the grammar says. -/
def ClosingSound (fuel : Nat) : Prop :=
  ∀ depth text close, toClosing fuel depth text = .ok close →
    close.head? = some '}' ∧ Closes depth text close

theorem ClosingSound.template {fuel : Nat} (closing : ClosingSound fuel)
    (template : TemplateSound fuel) : TemplateSound (fuel + 1) := by
  intro text rest passed
  cases text with
  | nil => cases passed
  | cons c text =>
    by_cases escape : c = '\\'
    · subst escape
      have later := template _ _ passed
      cases text with
      | nil => cases later
      | cons d text => exact .escape d later
    · by_cases mark : c = '`'
      · subst mark
        cases passed
        exact .close rest
      · by_cases dollar : (c :: text).take 2 = ['$', '{']
        · obtain ⟨inner, rfl, rfl⟩ := exists_of_take_two dollar
          rw [skipTemplate_expression] at passed
          obtain ⟨close, found, later⟩ := bind_eq_ok.mp passed
          obtain ⟨brace, inside⟩ := closing 0 inner close found
          obtain ⟨after, rfl⟩ := List.head?_eq_some_iff.mp brace
          exact .expression inside (template after rest later)
        · rw [skipTemplate_letter ⟨mark, escape⟩ dollar] at passed
          exact .letter ⟨mark, escape⟩ dollar (template text rest passed)

/-- A comment is passed as a token. -/
theorem exists_comment {fuel depth : Nat} {c : Char} {text close : List Char}
    (comment : StartsComment (c :: text)) (found : toClosing (fuel + 1) depth (c :: text) = .ok close) :
    ∃ middle, Token (c :: text) middle ∧ toClosing fuel depth middle = .ok close := by
  rcases comment with line | block
  · obtain ⟨comment, rfl, rfl⟩ := exists_of_take_two line
    rw [toClosing_line] at found
    exact ⟨_, token_line comment, found⟩
  · obtain ⟨comment, rfl, rfl⟩ := exists_of_take_two block
    cases ends : skipBlock? comment with
    | none =>
      rw [toClosing_open ends] at found
      cases found
    | some after =>
      rw [toClosing_block ends] at found
      obtain ⟨inside, rfl, first⟩ := skipBlock?_eq_some.mp ends
      exact ⟨after, .block first, found⟩

theorem TemplateSound.closing {fuel : Nat} (template : TemplateSound fuel)
    (closing : ClosingSound fuel) : ClosingSound (fuel + 1) := by
  intro depth text close found
  -- a token, and what is found after it
  have further {middle : List Char} (first : Token text middle)
      (later : toClosing fuel depth middle = .ok close) :
      close.head? = some '}' ∧ Closes depth text close :=
    (closing depth middle close later).imp_right fun more => more.token first
  cases text with
  | nil => cases found
  | cons c text =>
    by_cases string : isQuote c = true
    · rw [toClosing_string string] at found
      obtain ⟨after, passed, later⟩ := bind_eq_ok.mp found
      exact further (.string string ((skipString_eq_ok (isQuote_ne string)).mp passed)) later
    by_cases mark : c = '`'
    · subst mark
      rw [toClosing_template] at found
      obtain ⟨after, passed, later⟩ := bind_eq_ok.mp found
      exact further (.template (template text after passed)) later
    by_cases comment : StartsComment (c :: text)
    · obtain ⟨middle, token, later⟩ := exists_comment comment found
      exact further token later
    have noQuote : isQuote c = false := by simpa using string
    rw [toClosing_other noQuote mark comment] at found
    by_cases opens : opensBracket c = true
    · rw [if_pos opens] at found
      exact (closing _ _ _ found).imp_right fun more => more.open opens
    by_cases closes : closesBracket c = true
    · rw [if_neg opens, if_pos closes] at found
      cases depth with
      | zero =>
        by_cases brace : c = '}'
        · rw [if_pos brace] at found
          cases found
          exact ⟨congrArg some brace, .nothing _⟩
        · rw [if_neg brace] at found
          cases found
      | succ depth => exact (closing _ _ _ found).imp_right fun more => more.close closes
    rw [if_neg opens, if_neg closes] at found
    have single : IsSingle c text :=
      ⟨noQuote, mark, by simpa using opens, by simpa using closes, comment⟩
    exact further (.single single) found

theorem scan_sound (fuel : Nat) : TemplateSound fuel ∧ ClosingSound fuel := by
  induction fuel with
  | zero => exact ⟨nofun, nofun⟩
  | succ fuel ih => exact ⟨ih.2.template ih.1, ih.1.closing ih.2⟩

/-! ### The scan finds all that the grammar allows

Each step leaves fewer characters, so that as many steps as there are characters are enough.
-/

def TemplateComplete (fuel : Nat) : Prop :=
  ∀ text rest, TemplateRest text rest → text.length < fuel → skipTemplate fuel text = .ok rest

def ClosingComplete (fuel : Nat) : Prop :=
  ∀ depth text tail, Closes depth text ('}' :: tail) → text.length < fuel →
    toClosing fuel depth text = .ok ('}' :: tail)

theorem ClosingComplete.template {fuel : Nat} (closing : ClosingComplete fuel)
    (template : TemplateComplete fuel) : TemplateComplete (fuel + 1) := by
  intro text rest inside short
  cases inside with
  | close => rfl
  | @escape c text _ more =>
    simp only [List.length_cons] at short
    exact template text rest more (by omega)
  | @expression inner middle _ first more =>
    have passed := first.length_le
    simp only [List.length_cons] at short passed
    rw [skipTemplate_expression, closing 0 inner middle first (by omega), ok_bind]
    exact template middle rest more (by omega)
  | @letter c text _ plain alone more =>
    simp only [List.length_cons] at short
    rw [skipTemplate_letter plain alone]
    exact template text rest more (by omega)

/-- A bracket is no quote and no mark, and it starts no comment. -/
theorem bracket_apart {c : Char} (bracket : (opensBracket c || closesBracket c) = true) :
    isQuote c = false ∧ c ≠ '`' ∧ ∀ text, ¬StartsComment (c :: text) := by
  simp only [opensBracket, closesBracket, Bool.or_eq_true, decide_eq_true_iff] at bracket
  rcases bracket with ((rfl | rfl) | rfl) | ((rfl | rfl) | rfl) <;>
    simp [isQuote, StartsComment]

theorem closesBracket_opensBracket {c : Char} (closes : closesBracket c = true) :
    opensBracket c = false := by
  simp only [closesBracket, Bool.or_eq_true, decide_eq_true_iff] at closes
  rcases closes with (rfl | rfl) | rfl <;> rfl

theorem TemplateComplete.closing {fuel : Nat} (template : TemplateComplete fuel)
    (closing : ClosingComplete fuel) : ClosingComplete (fuel + 1) := by
  intro depth text tail closes short
  rcases closes.cases with ⟨middle, first, later⟩ | ⟨rfl, rfl⟩ |
    ⟨outer, bracket, middle, rfl, rfl, isClosing, later⟩
  · have passed := first.length_lt
    have rest : toClosing fuel depth middle = .ok ('}' :: tail) :=
      closing depth middle tail later (by omega)
    cases first with
    | string opens inside =>
      rw [toClosing_string opens, (skipString_eq_ok (isQuote_ne opens)).mpr inside, ok_bind, rest]
    | @template text _ inside =>
      simp only [List.length_cons] at short
      rw [toClosing_template, template text middle inside (by omega), ok_bind, rest]
    | line inside ends => rw [toClosing_line, skipLine_eq inside ends, rest]
    | block star => rw [toClosing_block (skipBlock?_eq_some.mpr ⟨_, rfl, star⟩), rest]
    | @brackets opening bracket text _ opens inside isClosing =>
      have more : Closes (depth + 1) text ('}' :: tail) := ⟨bracket, middle, inside, isClosing, later⟩
      obtain ⟨noQuote, noTemplate, noComment⟩ := bracket_apart (by rw [opens, Bool.true_or])
      simp only [List.length_cons] at short
      rw [toClosing_other noQuote noTemplate (noComment text), if_pos opens]
      exact closing (depth + 1) text tail more (by omega)
    | single plain =>
      rw [toClosing_other plain.noQuote plain.noTemplate plain.noComment, plain.noOpening,
        plain.noClosing]
      exact rest
  · rfl
  · obtain ⟨noQuote, noTemplate, noComment⟩ := bracket_apart (by rw [isClosing, Bool.or_true])
    simp only [List.length_cons] at short
    rw [toClosing_other noQuote noTemplate (noComment middle), closesBracket_opensBracket isClosing,
      isClosing]
    exact closing outer middle tail later (by omega)

theorem scan_complete (fuel : Nat) : TemplateComplete fuel ∧ ClosingComplete fuel := by
  induction fuel with
  | zero => exact ⟨nofun, nofun⟩
  | succ fuel ih => exact ⟨ih.2.template ih.1, ih.1.closing ih.2⟩

/-! ### The closing brace -/

/-- A brace stands at an offset, and whole tokens stand between another offset and it. -/
def IsClosing (source : List Char) (start offset : Nat) : Prop :=
  source[offset]? = some '}' ∧ Fragment (source.drop start) (source.drop offset)

theorem drop_of_getElem? {source : List Char} {offset : Nat} {c : Char}
    (there : source[offset]? = some c) : source.drop offset = c :: source.drop (offset + 1) := by
  obtain ⟨inside, rfl⟩ := List.getElem?_eq_some_iff.mp there
  exact List.drop_eq_getElem_cons inside

/-- A text that is left of another one is its end. -/
theorem Fragment.eq_drop {source rest : List Char} {start : Nat}
    (fragment : Fragment (source.drop start) rest) :
    rest = source.drop (source.length - rest.length) := by
  obtain ⟨passed, split, -⟩ := fragment.passes
  have whole : source = source.take start ++ passed ++ rest := by
    rw [List.append_assoc, ← split, List.take_append_drop]
  have length := congrArg List.length whole
  rw [List.length_append] at length
  have size : source.length - rest.length = (source.take start ++ passed).length := by omega
  rw [size]
  exact (List.drop_left.symm.trans (congrArg (List.drop _) whole.symm))

theorem closingBrace_eq_ok {source : List Char} {start offset : Nat} :
    closingBrace source start = .ok offset ↔ IsClosing source start offset := by
  constructor
  · intro found
    obtain ⟨rest, scanned, done⟩ := bind_eq_ok.mp found
    obtain ⟨brace, inside⟩ := (scan_sound _).2 0 _ _ scanned
    have left : rest = source.drop offset := by
      rw [← Except.ok.inj done]
      exact Fragment.eq_drop inside
    rw [left] at brace inside
    exact ⟨by rw [← List.head?_drop, brace], inside⟩
  · rintro ⟨there, inside⟩
    have short : (source.drop start).length < source.length + 1 := by
      rw [List.length_drop]
      omega
    rw [drop_of_getElem? there] at inside
    have scanned := (scan_complete _).2 0 _ _ inside short
    rw [closingBrace, scanned, ok_bind, ← drop_of_getElem? there, List.length_drop]
    obtain ⟨within, -⟩ := List.getElem?_eq_some_iff.mp there
    exact congrArg Except.ok (by omega)

/-- Other text before and after an expression moves its closing brace and makes no difference. -/
theorem IsClosing.moved {source : List Char} {start offset : Nat}
    (closing : IsClosing source start offset) (before after : List Char) :
    IsClosing (before ++ (source.drop start).take (offset + 1 - start) ++ after) before.length
      (before.length + (offset - start)) := by
  obtain ⟨there, inside⟩ := closing
  obtain ⟨passed, split, again⟩ := inside.passes
  rw [drop_of_getElem? there] at split again
  have lengths := congrArg List.length split
  obtain ⟨within, -⟩ := List.getElem?_eq_some_iff.mp there
  simp only [List.length_drop, List.length_append, List.length_cons] at lengths
  have size : offset + 1 - start = passed.length + 1 := by omega
  have distance : offset - start = passed.length := by omega
  have same : before ++ (source.drop start).take (offset + 1 - start) ++ after =
      before ++ (passed ++ '}' :: after) := by
    rw [split, size, List.take_length_add_append]
    simp
  rw [same, distance, IsClosing, List.getElem?_append_right (Nat.le_add_right ..),
    Nat.add_sub_cancel_left, List.drop_left, List.drop_length_add_append, List.drop_left]
  exact ⟨by simp, again ('}' :: after) rfl⟩

/-- The brace that is found is the one at the end of whole tokens; there is none to be found just if
there is no such brace; and nothing before the start or after the brace makes a difference. -/
theorem closingBrace_iff (source : List Char) (start : Nat) :
    (∀ offset, closingBrace source start = .ok offset ↔ IsClosing source start offset) ∧
      ((∃ error, closingBrace source start = .error error) ↔
        ¬∃ offset, IsClosing source start offset) ∧
      ∀ offset, closingBrace source start = .ok offset → ∀ before after,
        closingBrace (before ++ (source.drop start).take (offset + 1 - start) ++ after)
          before.length = .ok (before.length + (offset - start)) := by
  refine ⟨fun offset => closingBrace_eq_ok, ?_, ?_⟩
  · simp only [← closingBrace_eq_ok]
    cases closingBrace source start with
    | ok offset => simp
    | error error => simp
  · intro offset found before after
    exact closingBrace_eq_ok.mpr ((closingBrace_eq_ok.mp found).moved before after)

end Phrasebook.Markup

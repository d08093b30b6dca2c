import Mathlib.Data.Nat.Find
import Phrasebook.Markup.TopLevel
import Phrasebook.Proofs.Markup.Closing
import Phrasebook.Proofs.Text.Trim

set_option autoImplicit false

/-!
A word outside all brackets and literals. The search for it takes a comment for code. Where the
comments on its way are whole tokens in that reading too, and hold no word, it finds the first place
that stands after whole tokens, which are those that end at the closing brace.
-/
namespace Phrasebook.Markup

open Outcome (ok_bind)

/-! ### Words -/

/-- A text begins with blanks and then one of the words, which ends there. -/
inductive StandsWord (words : List String) : List Char → Prop
  | intro {blanks after : List Char} {word : String} (some : blanks ≠ [])
      (blank : ∀ c ∈ blanks, Text.isBlank c = true) (listed : word ∈ words)
      (ends : Text.endsWord after = true) : StandsWord words (blanks ++ (word.toList ++ after))

/-- Words that begin with no blank. -/
def areWords (words : List String) : Bool :=
  words.all fun word => word.toList.head?.any fun c => !Text.isBlank c

theorem startsWithWord_iff {words : List String} (named : areWords words = true)
    {text : List Char} : startsWithWord words text = true ↔ StandsWord words text := by
  constructor
  · intro starts
    cases text with
    | nil => cases starts
    | cons c rest =>
      rw [startsWithWord, Bool.and_eq_true, List.any_eq_true] at starts
      obtain ⟨blank, word, listed, ends⟩ := starts
      split at ends
      · rename_i after found
        have split : (c :: rest).takeWhile Text.isBlank ++ (word.toList ++ after) = c :: rest := by
          rw [← Text.dropStart_eq_some.mp found, List.takeWhile_append_dropWhile]
        rw [← split]
        refine .intro ?_ (fun _ member => List.mem_takeWhile_imp member) listed ends
        rw [List.takeWhile_cons_of_pos blank]
        exact List.cons_ne_nil _ _
      · cases ends
  · rintro ⟨some, blank, listed, ends⟩
    rename_i blanks after word
    have shown := List.all_eq_true.mp named word listed
    cases blanks with
    | nil => exact absurd rfl some
    | cons c blanks =>
      have left : ((c :: blanks) ++ (word.toList ++ after)).dropWhile Text.isBlank =
          word.toList ++ after := by
        rw [List.dropWhile_append_of_pos blank]
        cases letters : word.toList with
        | nil => simp [letters] at shown
        | cons d letters' =>
          have visible : Text.isBlank d = false := by simpa [letters] using shown
          rw [List.cons_append, List.dropWhile_cons_of_neg (by simp [visible])]
      rw [List.cons_append] at left ⊢
      rw [startsWithWord, left, blank c List.mem_cons_self, Bool.true_and, List.any_eq_true]
      refine ⟨word, listed, ?_⟩
      rw [Text.dropStart_eq_some.mpr rfl]
      exact ends

/-! ### Steps of the search

The search ends where `left` characters are left.
-/

/-- A character that is code of its own where comments mean nothing. -/
structure IsLetter (c : Char) : Prop where
  noQuote : isQuote c = false
  noTemplate : c ≠ '`'
  noOpening : opensBracket c = false
  noClosing : closesBracket c = false

theorem isLetter_of_isBlank {c : Char} (blank : Text.isBlank c = true) : IsLetter c := by
  have shown : ['\'', '"', '`', '{', '(', '[', '}', ')', ']'].all
      (fun mark => !Text.isBlank mark) = true := by decide
  have apart : ∀ mark ∈ ['\'', '"', '`', '{', '(', '[', '}', ')', ']'], c ≠ mark := by
    rintro mark member rfl
    have visible := List.all_eq_true.mp shown c member
    rw [blank] at visible
    cases visible
  simp only [List.forall_mem_cons] at apart
  constructor <;> simp [isQuote, opensBracket, closesBracket, apart]

/-- A word stands at a text, before the end of the search. -/
def StandsBefore (words : List String) (left : Nat) (text : List Char) : Prop :=
  StandsWord words (text.take (text.length - left))

section Step

variable {words : List String} {fuel reach : Nat} {depth : Int} {c : Char} {text : List Char}

theorem search_ended : searchTopLevel words (fuel + 1) 0 depth text = .ok none := by
  cases text <;> rfl

theorem search_string (goes : reach ≠ 0) (opens : isQuote c = true) :
    searchTopLevel words (fuel + 1) reach depth (c :: text) =
      skipString c text >>= fun after =>
        searchTopLevel words fuel (reach - (text.length + 1 - after.length)) depth after := by
  rw [searchTopLevel, if_neg goes, if_pos opens]

theorem search_template (goes : reach ≠ 0) :
    searchTopLevel words (fuel + 1) reach depth ('`' :: text) =
      skipTemplate (text.length + 1) text >>= fun after =>
        searchTopLevel words fuel (reach - (text.length + 1 - after.length)) depth after := by
  rw [searchTopLevel, if_neg goes, if_neg (by decide), if_pos rfl]

theorem search_open (goes : reach ≠ 0) (opens : opensBracket c = true) :
    searchTopLevel words (fuel + 1) reach depth (c :: text) =
      searchTopLevel words fuel (reach - 1) (depth + 1) text := by
  obtain ⟨noQuote, noTemplate, -⟩ := bracket_apart (by rw [opens, Bool.true_or])
  rw [searchTopLevel, if_neg goes, if_neg (by simp [noQuote]), if_neg noTemplate, if_pos opens]
  simp only [Nat.add_sub_cancel_left]

theorem search_close (goes : reach ≠ 0) (closes : closesBracket c = true) :
    searchTopLevel words (fuel + 1) reach depth (c :: text) =
      searchTopLevel words fuel (reach - 1) (depth - 1) text := by
  obtain ⟨noQuote, noTemplate, -⟩ := bracket_apart (by rw [closes, Bool.or_true])
  rw [searchTopLevel, if_neg goes, if_neg (by simp [noQuote]), if_neg noTemplate,
    if_neg (by simp [closesBracket_opensBracket closes]), if_pos closes]
  simp only [Nat.add_sub_cancel_left]

theorem search_letter (goes : reach ≠ 0) (plain : IsLetter c) :
    searchTopLevel words (fuel + 1) reach depth (c :: text) =
      if depth = 0 ∧ startsWithWord words ((c :: text).take reach) then .ok (some (text.length + 1))
      else searchTopLevel words fuel (reach - 1) depth text := by
  rw [searchTopLevel, if_neg goes, if_neg (by simp [plain.noQuote]), if_neg plain.noTemplate,
    if_neg (by simp [plain.noOpening]), if_neg (by simp [plain.noClosing])]
  simp only [Nat.add_sub_cancel_left]

end Step

/-! ### What the search passes -/

/-- Whole tokens of a text where comments mean nothing, with no word outside of all brackets. -/
inductive Wordless (words : List String) (left : Nat) : Nat → List Char → List Char → Prop
  | nothing (depth : Nat) (text : List Char) : Wordless words left depth text text
  | string {depth : Nat} {quote : Char} {text middle rest : List Char}
      (opens : isQuote quote = true) (inside : StringRest quote text middle)
      (more : Wordless words left depth middle rest) :
      Wordless words left depth (quote :: text) rest
  | template {depth : Nat} {text middle rest : List Char} (inside : TemplateRest text middle)
      (more : Wordless words left depth middle rest) : Wordless words left depth ('`' :: text) rest
  | brackets {depth : Nat} {opening closing : Char} {text middle rest : List Char}
      (opens : opensBracket opening = true)
      (inside : Wordless words left (depth + 1) text (closing :: middle))
      (closes : closesBracket closing = true) (more : Wordless words left depth middle rest) :
      Wordless words left depth (opening :: text) rest
  | letter {depth : Nat} {c : Char} {text rest : List Char} (plain : IsLetter c)
      (unnamed : depth = 0 → ¬StandsBefore words left (c :: text))
      (more : Wordless words left depth text rest) : Wordless words left depth (c :: text) rest

/-- The search goes on from one text to another and does not end between them. -/
def Reaches (words : List String) (left : Nat) (depth : Int) (text : List Char) (depth' : Int)
    (rest : List Char) : Prop :=
  ∀ fuel, text.length < fuel → ∃ fuel', rest.length < fuel' ∧
    searchTopLevel words fuel (text.length - left) depth text =
      searchTopLevel words fuel' (rest.length - left) depth' rest

section Passing

variable {words : List String} {left : Nat}

theorem Wordless.append {depth : Nat} {text middle rest : List Char}
    (first : Wordless words left depth text middle) (more : Wordless words left depth middle rest) :
    Wordless words left depth text rest := by
  induction first with
  | nothing => exact more
  | string opens inside _ ih => exact .string opens inside (ih more)
  | template inside _ ih => exact .template inside (ih more)
  | brackets opens inside closes _ _ ih => exact .brackets opens inside closes (ih more)
  | letter plain unnamed _ ih => exact .letter plain unnamed (ih more)

theorem Wordless.length_le {depth : Nat} {text rest : List Char}
    (passed : Wordless words left depth text rest) : rest.length ≤ text.length := by
  induction passed with
  | nothing => exact le_rfl
  | string _ inside _ ih =>
    obtain ⟨front, rfl, -⟩ := inside.passes
    simp only [List.length_cons, List.length_append]
    omega
  | template inside _ ih =>
    have := inside.length_lt
    rw [List.length_cons]
    omega
  | brackets _ _ _ _ outer inner =>
    simp only [List.length_cons] at outer ⊢
    omega
  | letter _ _ _ ih =>
    rw [List.length_cons]
    omega

/-- Characters that are code of their own are passed where no word stands at one of them. -/
theorem Wordless.of_letters {passed : List Char} (depth : Nat) (rest : List Char)
    (plain : ∀ c ∈ passed, IsLetter c)
    (unnamed : ∀ n < passed.length, ¬StandsBefore words left (passed.drop n ++ rest)) :
    Wordless words left depth (passed ++ rest) rest := by
  induction passed with
  | nil => exact .nothing depth rest
  | cons c passed ih =>
    refine .letter (plain c List.mem_cons_self) (fun _ => unnamed 0 (Nat.succ_pos _)) (ih ?_ ?_)
    · exact fun d member => plain d (List.mem_cons_of_mem c member)
    · exact fun n before => unnamed (n + 1) (Nat.succ_lt_succ before)

theorem Reaches.refl (depth : Int) (text : List Char) :
    Reaches words left depth text depth text := fun fuel enough => ⟨fuel, enough, rfl⟩

theorem Reaches.trans {depth depth' depth'' : Int} {text middle rest : List Char}
    (first : Reaches words left depth text depth' middle)
    (more : Reaches words left depth' middle depth'' rest) :
    Reaches words left depth text depth'' rest := by
  intro fuel enough
  obtain ⟨fuel', enough', same⟩ := first fuel enough
  obtain ⟨fuel'', enough'', same'⟩ := more fuel' enough'
  exact ⟨fuel'', enough'', same.trans same'⟩

/-- A step of the search leads on from a text to one that is left of it. -/
theorem Reaches.step {depth depth' : Int} {c : Char} {text rest : List Char}
    (shorter : rest.length ≤ text.length)
    (same : ∀ fuel, text.length < fuel →
      searchTopLevel words (fuel + 1) (text.length + 1 - left) depth (c :: text) =
        searchTopLevel words fuel (rest.length - left) depth' rest) :
    Reaches words left depth (c :: text) depth' rest := by
  intro fuel enough
  rw [List.length_cons] at enough
  obtain ⟨fuel, rfl⟩ : ∃ less, fuel = less + 1 := ⟨fuel - 1, by omega⟩
  exact ⟨fuel, by omega, same fuel (by omega)⟩

theorem Wordless.reaches (named : areWords words = true) {depth : Nat} {text rest : List Char}
    (passed : Wordless words left depth text rest) (within : left ≤ rest.length) :
    Reaches words left depth text depth rest := by
  induction passed with
  | nothing => exact .refl _ _
  | @string depth quote text middle rest opens inside more ih =>
    obtain ⟨front, rfl, -⟩ := inside.passes
    have later := more.length_le
    refine .trans (.step (by simp) fun fuel _ => ?_) (ih within)
    have goes : (front ++ middle).length + 1 - left ≠ 0 := by
      rw [List.length_append]
      omega
    rw [search_string goes opens, (skipString_eq_ok (isQuote_ne opens)).mpr inside, ok_bind]
    congr 1
    rw [List.length_append]
    omega
  | @template depth text middle rest inside more ih =>
    have shorter := inside.length_lt
    have later := more.length_le
    refine .trans (.step shorter.le fun fuel _ => ?_) (ih within)
    have passed := (scan_complete (text.length + 1)).1 text middle inside (Nat.lt_succ_self _)
    rw [search_template (by omega), passed, ok_bind]
    congr 1
    omega
  | @brackets depth opening closing text middle rest opens inside closes more inner outer =>
    have shorter := inside.length_le
    have later := more.length_le
    rw [List.length_cons] at shorter
    have opened : Reaches words left depth (opening :: text) (depth + 1 : Nat) text :=
      .step le_rfl fun fuel _ => by
        rw [search_open (by omega) opens, Nat.sub_right_comm]
        rfl
    have closed : Reaches words left (depth + 1 : Nat) (closing :: middle) depth middle :=
      .step le_rfl fun fuel _ => by
        rw [search_close (by omega) closes, Nat.sub_right_comm]
        congr 1
        push_cast
        omega
    have bracket : left ≤ (closing :: middle).length := by
      rw [List.length_cons]
      omega
    exact opened.trans ((inner bracket).trans (closed.trans (outer within)))
  | @letter depth c text rest plain unnamed more ih =>
    have later := more.length_le
    refine .trans (.step le_rfl fun fuel _ => ?_) (ih within)
    rw [search_letter (by omega) plain, if_neg, Nat.sub_right_comm, Nat.add_sub_cancel]
    rintro ⟨top, starts⟩
    exact unnamed (by exact_mod_cast top) ((startsWithWord_iff named).mp starts)

end Passing

/-! ### Comments that make no difference -/

/-- What is left of a text after whole tokens and inside brackets that are open. -/
inductive Inside : Nat → List Char → List Char → Prop
  | here {text rest : List Char} (before : Fragment text rest) : Inside 0 text rest
  | deeper {depth : Nat} {opening : Char} {text inner rest : List Char}
      (before : Fragment text (opening :: inner)) (opens : opensBracket opening = true)
      (more : Inside depth inner rest) : Inside (depth + 1) text rest

/-- Between two texts each comment can be passed as code, and no word stands outside of all
brackets. -/
structure Quiet (words : List String) (left depth : Nat) (text rest : List Char) : Prop where
  comments : ∀ inner first last, Inside inner text first → StartsComment first →
    Token first last → rest.length ≤ last.length → Wordless words left (depth + inner) first last
  places : depth = 0 → ∀ place, Fragment text place → rest.length < place.length →
    ¬StandsBefore words left place

section Quiet

variable {words : List String} {left depth : Nat} {text middle rest : List Char}

theorem Fragment.suffix (fragment : Fragment text rest) : rest <:+ text := by
  obtain ⟨passed, rfl, -⟩ := fragment.passes
  exact List.suffix_append passed rest

theorem Token.suffix (token : Token text rest) : rest <:+ text :=
  Fragment.suffix (.token token (.nothing rest))

theorem Inside.suffix (inside : Inside depth text rest) : rest <:+ text := by
  induction inside with
  | here before => exact before.suffix
  | deeper before _ _ ih => exact ih.trans ((List.suffix_cons ..).trans before.suffix)

theorem Inside.token (first : Token text middle) (inside : Inside depth middle rest) :
    Inside depth text rest := by
  cases inside with
  | here before => exact .here (.token first before)
  | deeper before opens more => exact .deeper (.token first before) opens more

theorem Quiet.first (quiet : Quiet words left depth text rest) (more : Fragment middle rest) :
    Quiet words left depth text middle where
  comments inner first last inside starts token within :=
    quiet.comments inner first last inside starts token (more.length_le.trans within)
  places top place outside before :=
    quiet.places top place outside (more.length_le.trans_lt before)

theorem Quiet.more (quiet : Quiet words left depth text rest) (first : Token text middle) :
    Quiet words left depth middle rest where
  comments inner comment last inside := quiet.comments inner comment last (inside.token first)
  places top place outside := quiet.places top place (.token first outside)

theorem Quiet.inside {opening closing : Char}
    (quiet : Quiet words left depth (opening :: text) rest) (opens : opensBracket opening = true) :
    Quiet words left (depth + 1) text (closing :: rest) where
  comments inner first last inside starts token within := by
    rw [Nat.add_right_comm]
    refine quiet.comments (inner + 1) first last (.deeper (.nothing _) opens inside) starts token ?_
    rw [List.length_cons] at within
    omega
  places top := absurd top (Nat.succ_ne_zero depth)

mutual

theorem Token.wordless {depth : Nat} {text rest : List Char} (token : Token text rest)
    (quiet : Quiet words left depth text rest) : Wordless words left depth text rest :=
  match token with
  | .string opens inside => .string opens inside (.nothing _ _)
  | .template inside => .template inside (.nothing _ _)
  | .line inside ends =>
    quiet.comments 0 _ _ (.here (.nothing _)) (.inl rfl) (.line inside ends) le_rfl
  | .block first => quiet.comments 0 _ _ (.here (.nothing _)) (.inr rfl) (.block first) le_rfl
  | .brackets opens inside closes =>
    .brackets opens (inside.wordless (quiet.inside opens)) closes (.nothing _ _)
  | .single plain =>
    .letter ⟨plain.noQuote, plain.noTemplate, plain.noOpening, plain.noClosing⟩
      (fun top => quiet.places top _ (.nothing _) (Nat.lt_succ_self _)) (.nothing _ _)

theorem Fragment.wordless {depth : Nat} {text rest : List Char} (fragment : Fragment text rest)
    (quiet : Quiet words left depth text rest) : Wordless words left depth text rest :=
  match fragment with
  | .nothing _ => .nothing _ _
  | .token first more =>
    (first.wordless (quiet.first more)).append (more.wordless (quiet.more first))

end

end Quiet

/-! ### The first place -/

/-- A word stands at an offset, after whole tokens of the text between two others. -/
structure IsPlace (words : List String) (source : List Char) (start stop offset : Nat) : Prop where
  first : start ≤ offset
  last : offset < stop
  outside : Fragment (source.drop start) (source.drop offset)
  stands : StandsWord words ((source.drop offset).take (stop - offset))

/-- The least of the places, or none if there is no place. -/
def IsFirstPlace (words : List String) (source : List Char) (start stop : Nat) : Option Nat → Prop
  | some offset => IsPlace words source start stop offset ∧
      ∀ other, IsPlace words source start stop other → offset ≤ other
  | none => ∀ offset, ¬IsPlace words source start stop offset

/-- A comment stands between two offsets, inside of a number of brackets that are open. -/
structure IsComment (source : List Char) (start stop depth first last : Nat) : Prop where
  inside : Inside depth (source.drop start) (source.drop first)
  starts : StartsComment (source.drop first)
  token : Token (source.drop first) (source.drop last)
  within : last ≤ stop

/-- A comment comes after a place, or it can be passed as code. -/
def IsHarmless (words : List String) (source : List Char) (start stop depth first last : Nat) :
    Prop :=
  (∃ offset, IsPlace words source start stop offset ∧ offset ≤ first) ∨
    Wordless words (source.drop stop).length depth (source.drop first) (source.drop last)

section Place

variable {words : List String} {source : List Char} {start stop : Nat}

theorem exists_drop {text : List Char} (suffix : text <:+ source) :
    ∃ offset, text = source.drop offset ∧ offset + text.length = source.length := by
  refine ⟨source.length - text.length, List.suffix_iff_eq_drop.mp suffix, ?_⟩
  have := suffix.length_le
  omega

theorem standsBefore_drop {offset : Nat} (inside : stop ≤ source.length) :
    StandsBefore words (source.drop stop).length (source.drop offset) ↔
      StandsWord words ((source.drop offset).take (stop - offset)) := by
  have size : (source.drop offset).length - (source.drop stop).length = stop - offset := by
    simp only [List.length_drop]
    omega
  rw [StandsBefore, size]

/-- Up to an offset with no place before it there is nothing that the search could stop at. -/
theorem quiet_of_isHarmless (begins : start ≤ stop) (inside : stop ≤ source.length)
    (harmless : ∀ depth first last, IsComment source start stop depth first last →
      IsHarmless words source start stop depth first last) {offset : Nat} (before : offset ≤ stop)
    (least : ∀ other, IsPlace words source start stop other → offset ≤ other) :
    Quiet words (source.drop stop).length 0 (source.drop start) (source.drop offset) where
  comments depth comment rest opened starts token within := by
    have ending := List.drop_suffix start source
    obtain ⟨first, rfl, firstSize⟩ := exists_drop (opened.suffix.trans ending)
    obtain ⟨last, rfl, lastSize⟩ := exists_drop (token.suffix.trans (List.drop_suffix first source))
    have shorter := token.length_lt
    simp only [List.length_drop] at within shorter firstSize lastSize
    rw [Nat.zero_add]
    have comment : IsComment source start stop depth first last :=
      ⟨opened, starts, token, by omega⟩
    rcases harmless depth first last comment with ⟨place, stands, early⟩ | passed
    · have := least place stands
      omega
    · exact passed
  places _ text outside early stands := by
    have shorter := outside.length_le
    obtain ⟨place, rfl, size⟩ := exists_drop (outside.suffix.trans (List.drop_suffix start source))
    simp only [List.length_drop] at early shorter size
    have := least place ⟨by omega, by omega, outside, (standsBefore_drop inside).mp stands⟩
    omega

/-- A place begins with a blank. -/
theorem StandsWord.begins {text : List Char} (stands : StandsWord words text) :
    ∃ c rest, text = c :: rest ∧ Text.isBlank c = true := by
  obtain ⟨some, blank, -, -⟩ := stands
  rename_i blanks after word
  cases blanks with
  | nil => exact absurd rfl some
  | cons c blanks => exact ⟨c, blanks ++ (word.toList ++ after), rfl, blank c List.mem_cons_self⟩

/-- The search ends at a place that it comes to. -/
theorem search_hit (named : areWords words = true) {left fuel : Nat} {text : List Char}
    (stands : StandsBefore words left text) (enough : text.length < fuel) :
    searchTopLevel words fuel (text.length - left) 0 text = .ok (some text.length) := by
  obtain ⟨c, front, begins, blank⟩ := stands.begins
  obtain ⟨fuel, rfl⟩ : ∃ less, fuel = less + 1 := ⟨fuel - 1, by omega⟩
  cases text with
  | nil =>
    rw [List.take_nil] at begins
    cases begins
  | cons d text =>
    have goes : (d :: text).length - left ≠ 0 := by
      intro none
      rw [none] at begins
      cases begins
    obtain ⟨reach, reached⟩ : ∃ reach, (d :: text).length - left = reach + 1 :=
      Nat.exists_eq_succ_of_ne_zero goes
    have own : d = c := by
      rw [reached, List.take_succ_cons] at begins
      exact (List.cons.inj begins).1
    rw [search_letter goes (isLetter_of_isBlank (own ▸ blank)),
      if_pos ⟨rfl, (startsWithWord_iff named).mpr stands⟩, List.length_cons]

/-- Where no comment makes a difference, the search for a word before the closing brace of an
expression ends, and with the first place of the word outside of all brackets, literals and comments
of the expression. -/
theorem findTopLevel_first (named : areWords words = true)
    (closing : closingBrace source start = .ok stop)
    (harmless : ∀ depth first last, IsComment source start stop depth first last →
      IsHarmless words source start stop depth first last) :
    ∃ found, findTopLevel source start stop words = .ok found ∧
      IsFirstPlace words source start stop found := by
  obtain ⟨brace, whole⟩ := closingBrace_eq_ok.mp closing
  obtain ⟨inside, -⟩ := List.getElem?_eq_some_iff.mp brace
  have begins : start ≤ stop := by
    have := whole.length_le
    simp only [List.length_drop] at this
    omega
  have reach : (source.drop start).length - (source.drop stop).length = stop - start := by
    simp only [List.length_drop]
    omega
  -- from the start the search comes to every offset that no place is before
  have comes {offset : Nat} (outside : Fragment (source.drop start) (source.drop offset))
      (before : offset ≤ stop)
      (least : ∀ other, IsPlace words source start stop other → offset ≤ other) :
      ∃ fuel, (source.drop offset).length < fuel ∧
        searchTopLevel words ((source.drop start).length + 1) (stop - start) 0 (source.drop start) =
          searchTopLevel words fuel ((source.drop offset).length - (source.drop stop).length) 0
            (source.drop offset) := by
    have quiet := quiet_of_isHarmless begins inside.le harmless before least
    have within : (source.drop stop).length ≤ (source.drop offset).length := by
      simp only [List.length_drop]
      omega
    rw [← reach]
    exact (outside.wordless quiet).reaches named within _ (Nat.lt_succ_self _)
  by_cases exist : ∃ offset, IsPlace words source start stop offset
  · obtain ⟨offset, place, least⟩ : ∃ offset, IsPlace words source start stop offset ∧
        ∀ other, IsPlace words source start stop other → offset ≤ other := by
      classical
      exact ⟨Nat.find exist, Nat.find_spec exist, fun other => Nat.find_min' exist⟩
    obtain ⟨fuel, enough, same⟩ := comes place.outside place.last.le least
    have found := search_hit named ((standsBefore_drop inside.le).mpr place.stands) enough
    refine ⟨some offset, ?_, place, least⟩
    rw [findTopLevel, same, found, ok_bind, List.length_drop]
    have := place.last
    have own : source.length - (source.length - offset) = offset := by omega
    exact congrArg (fun offset => Except.ok (some offset)) own
  · have none := not_exists.mp exist
    obtain ⟨fuel, enough, same⟩ := comes whole le_rfl fun other place => absurd place (none other)
    obtain ⟨fuel, rfl⟩ : ∃ less, fuel = less + 1 := ⟨fuel - 1, by omega⟩
    refine ⟨.none, ?_, none⟩
    rw [Nat.sub_self, search_ended] at same
    rw [findTopLevel, same]
    rfl

end Place

theorem skipBlock?_of_token {text rest : List Char} (token : Token ('/' :: '*' :: text) rest) :
    skipBlock? text = some rest := by
  cases token with
  | string opens => cases opens
  | block first => exact skipBlock?_eq_some.mpr ⟨_, rfl, first⟩
  | brackets opens => cases opens
  | single plain => exact absurd (.inr rfl) plain.noComment

/-- What stands in a tag for each row, up to its end. -/
def eachRow : List Char := "rows /* all */ as row\x7d".toList

theorem eachRow_harmless {depth first last : Nat}
    (comment : IsComment eachRow 0 21 depth first last) :
    IsHarmless ["as"] eachRow 0 21 depth first last := by
  obtain ⟨-, starts, token, -⟩ := comment
  have only : ∀ offset < 22, (eachRow.drop offset).take 2 = ['/', '/'] ∨
      (eachRow.drop offset).take 2 = ['/', '*'] → offset = 5 := by decide
  have short : first < 22 := by
    by_contra beyond
    have none : eachRow.drop first = [] := List.drop_eq_nil_of_le (Nat.le_of_not_lt beyond)
    rw [none] at starts
    rcases starts with line | block
    · cases line
    · cases block
  obtain rfl := only first short starts
  have passed : some (eachRow.drop last) = some (eachRow.drop 14) :=
    (skipBlock?_of_token token).symm.trans (by decide)
  have cut : eachRow.drop 5 = "/* all */".toList ++ eachRow.drop 14 := by decide
  rw [IsHarmless, Option.some.inj passed, cut]
  have plain : ("/* all */".toList.all fun c =>
      !isQuote c && c != '`' && !opensBracket c && !closesBracket c) = true := by decide
  have unnamed : ∀ n < "/* all */".toList.length, startsWithWord ["as"]
      (("/* all */".toList.drop n ++ eachRow.drop 14).take
        (("/* all */".toList.drop n ++ eachRow.drop 14).length - (eachRow.drop 21).length)) =
      false := by decide
  refine .inr (.of_letters depth (eachRow.drop 14) ?_ ?_)
  · intro c member
    have own := List.all_eq_true.mp plain c member
    simp only [Bool.and_eq_true, Bool.not_eq_true', bne_iff_ne] at own
    obtain ⟨⟨⟨noQuote, noTemplate⟩, noOpening⟩, noClosing⟩ := own
    exact ⟨noQuote, noTemplate, noOpening, noClosing⟩
  · intro n before stands
    have starts := (startsWithWord_iff (by decide)).mpr stands
    rw [unnamed n before] at starts
    cases starts

theorem findTopLevel_eachRow :
    areWords ["as"] = true ∧ areWords ["then", "catch"] = true ∧ closingBrace eachRow 0 = .ok 21 ∧
      findTopLevel eachRow 0 21 ["as"] = .ok (some 14) ∧
      IsFirstPlace ["as"] eachRow 0 21 (some 14) := by
  have named : areWords ["as"] = true := by decide
  have closing : closingBrace eachRow 0 = .ok 21 := by decide
  have result : findTopLevel eachRow 0 21 ["as"] = .ok (some 14) := by decide
  obtain ⟨found, same, first⟩ := findTopLevel_first named closing fun _ _ _ => eachRow_harmless
  cases result.symm.trans same
  exact ⟨named, by decide, closing, result, first⟩

/-- A comment is taken for code: a quote in it for one that opens a string, a word in it for one
that ends the expression. -/
theorem findTopLevel_comment :
    closingBrace "/*'*/\x7d".toList 0 = .ok 5 ∧
      findTopLevel "/*'*/\x7d".toList 0 5 ["as"] = .error .openString ∧
      closingBrace "/* as */\x7d".toList 0 = .ok 8 ∧
      findTopLevel "/* as */\x7d".toList 0 8 ["as"] = .ok (some 2) := by
  decide

end Phrasebook.Markup

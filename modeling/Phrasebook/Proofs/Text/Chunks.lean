import Mathlib.Data.List.Chain
import Phrasebook.Proofs.Text.Class
import Phrasebook.Proofs.Text.Trim
import Phrasebook.Text.Wrap

set_option autoImplicit false

/-!
The chunks of a text: they make up the text, and each one that is not blank is a chunk still when
nothing stands around it.
-/
namespace Phrasebook.Text

/-! ### Chunks without names -/

theorem take_takeWhile (p : Char → Bool) (text : List Char) :
    text.take (text.takeWhile p).length = text.takeWhile p :=
  (List.prefix_iff_eq_take.mp (List.takeWhile_prefix p)).symm

theorem drop_takeWhile (p : Char → Bool) (text : List Char) :
    text.drop (text.takeWhile p).length = text.dropWhile p :=
  calc text.drop (text.takeWhile p).length
      = (text.takeWhile p ++ text.dropWhile p).drop (text.takeWhile p).length := by
        rw [List.takeWhile_append_dropWhile]
    _ = text.dropWhile p := List.drop_left

theorem isBlank_hyphen : isBlank '-' = false := by decide

theorem takeWhile_append_cons {p : Char → Bool} {front back : List Char} {c : Char}
    (all : front.all p = true) (stop : p c = false) :
    (front ++ c :: back).takeWhile p = front := by
  rw [List.takeWhile_append_of_pos (List.all_eq_true.mp all),
    List.takeWhile_cons_of_neg (by simp [stop]), List.append_nil]

/-- A dash stays one, whatever follows the word after it. -/
theorem dashLength_append {previous : Option Char} {text : List Char}
    (dash : dashLength previous text ≠ 0) (more : List Char) :
    dashLength previous (text ++ more) = dashLength previous text := by
  have split := List.takeWhile_append_dropWhile (p := (· = '-')) (l := text)
  simp only [dashLength, drop_takeWhile] at dash ⊢
  cases after : text.dropWhile (· = '-') with
  | nil => simp [after] at dash
  | cons c rest =>
    have stop : decide (c = '-') = false := head_dropWhile c (by rw [after]; rfl)
    have run : (text ++ more).takeWhile (· = '-') = text.takeWhile (· = '-') := by
      rw [← split, after, List.append_assoc, List.cons_append,
        takeWhile_append_cons List.all_takeWhile stop,
        takeWhile_append_cons List.all_takeWhile stop]
    have tail : (text ++ more).dropWhile (· = '-') = c :: (rest ++ more) := by
      rw [← drop_takeWhile, run, List.drop_append_of_le_length (List.takeWhile_prefix _).length_le,
        drop_takeWhile, after, List.cons_append]
    rw [run, tail]
    rfl

theorem dashLength_none (text : List Char) : dashLength none text = 0 := by
  simp [dashLength]

theorem dashLength_hyphen (text : List Char) : dashLength (some '-') text = 0 := by
  have apart : precedesDash '-' = false := by decide
  simp [dashLength, apart]

theorem chunkRun_begins (previous : Option Char) (text : List Char) :
    chunkRun previous text <+: text := by
  induction text generalizing previous with
  | nil => exact List.prefix_refl _
  | cons c rest ih =>
    rw [chunkRun]
    split
    · exact List.nil_prefix
    · exact List.cons_prefix_cons.mpr ⟨rfl, ih _⟩

/-- A run is a run still when nothing follows it, and nothing comes before. -/
theorem chunkRun_chunkRun {previous former : Option Char}
    (known : former = previous ∨ former = none) (text : List Char) :
    chunkRun former (chunkRun previous text) = chunkRun previous text := by
  induction text generalizing previous former with
  | nil => rfl
  | cons c rest ih =>
    by_cases stops : isBlank c ∨ dashLength previous (c :: rest) ≠ 0
    · rw [chunkRun, if_pos stops, chunkRun]
    · have goes : ¬(isBlank c ∨ dashLength former (c :: chunkRun (some c) rest) ≠ 0) := by
        rintro (blank | dash)
        · exact stops (.inl blank)
        · obtain ⟨more, whole⟩ := chunkRun_begins (some c) rest
          rcases known with rfl | rfl
          · have same := dashLength_append dash more
            rw [List.cons_append, whole] at same
            exact stops (.inr (same ▸ dash))
          · exact dash (dashLength_none _)
      rw [chunkRun, if_neg stops, chunkRun, if_neg goes, ih (.inl rfl)]

theorem chunkRun_hyphens {previous : Option Char} (known : previous = none ∨ previous = some '-')
    (n : Nat) : chunkRun previous (List.replicate n '-') = List.replicate n '-' := by
  induction n generalizing previous with
  | zero => rfl
  | succ n ih =>
    have goes : ¬(isBlank '-' ∨ dashLength previous ('-' :: List.replicate n '-') ≠ 0) := by
      rw [isBlank_hyphen]
      rcases known with rfl | rfl
      · simp [dashLength_none]
      · simp [dashLength_hyphen]
    rw [List.replicate_succ, chunkRun, if_neg goes, ih (.inr rfl)]

theorem not_blank_of_mem_chunkRun {previous : Option Char} {text : List Char} {c : Char}
    (member : c ∈ chunkRun previous text) : isBlank c = false := by
  induction text generalizing previous with
  | nil => simp [chunkRun] at member
  | cons first rest ih =>
    rw [chunkRun] at member
    split at member
    · simp at member
    · rename_i goes
      rcases List.mem_cons.mp member with rfl | later
      · simpa using fun blank => goes (.inl blank)
      · exact ih later

/-- The size of the chunk that comes next. -/
def chunkSize (previous : Option Char) (text : List Char) : Nat :=
  if text.head?.any isBlank then (text.takeWhile isBlank).length
  else max (dashLength previous text) (chunkRun previous text).length

theorem plainChunks_cons (fuel : Nat) (previous : Option Char) (c : Char) (rest : List Char) :
    plainChunks (fuel + 1) previous (c :: rest) =
      (c :: rest).take (chunkSize previous (c :: rest)) ::
        plainChunks fuel ((c :: rest).take (chunkSize previous (c :: rest))).getLast?
          ((c :: rest).drop (chunkSize previous (c :: rest))) := rfl

theorem plainChunks_nil (fuel : Nat) (previous : Option Char) :
    plainChunks fuel previous [] = [] := by
  cases fuel <;> rfl

/-- What the next chunk is: blanks, hyphens or a run. -/
theorem nextChunk_cases (previous : Option Char) (c : Char) (rest : List Char) :
    (isBlank c = true ∧ (c :: rest).take (chunkSize previous (c :: rest)) =
        (c :: rest).takeWhile isBlank ∧
      (c :: rest).drop (chunkSize previous (c :: rest)) = (c :: rest).dropWhile isBlank) ∨
    (isBlank c = false ∧ ∃ n, (c :: rest).take (chunkSize previous (c :: rest)) =
      List.replicate (n + 1) '-') ∨
    (isBlank c = false ∧ chunkRun previous (c :: rest) ≠ [] ∧
      (c :: rest).take (chunkSize previous (c :: rest)) = chunkRun previous (c :: rest)) := by
  by_cases blank : isBlank c = true
  · have size : chunkSize previous (c :: rest) = ((c :: rest).takeWhile isBlank).length := by
      simp [chunkSize, blank]
    exact .inl ⟨blank, by rw [size, take_takeWhile], by rw [size, drop_takeWhile]⟩
  · have size : chunkSize previous (c :: rest) =
        max (dashLength previous (c :: rest)) (chunkRun previous (c :: rest)).length := by
      simp [chunkSize, blank]
    rw [Bool.not_eq_true] at blank
    by_cases dash : dashLength previous (c :: rest) = 0
    · have goes : ¬(isBlank c ∨ dashLength previous (c :: rest) ≠ 0) := by simp [blank, dash]
      have run : chunkRun previous (c :: rest) ≠ [] := by
        rw [chunkRun, if_neg goes]
        exact List.cons_ne_nil _ _
      refine .inr (.inr ⟨blank, run, ?_⟩)
      rw [size, dash, Nat.zero_max]
      exact (List.prefix_iff_eq_take.mp (chunkRun_begins previous (c :: rest))).symm
    · have empty : chunkRun previous (c :: rest) = [] := by rw [chunkRun, if_pos (.inr dash)]
      have run : dashLength previous (c :: rest) = ((c :: rest).takeWhile (· = '-')).length := by
        simp only [dashLength] at dash ⊢
        split
        · rfl
        · rename_i none
          rw [if_neg none] at dash
          exact absurd rfl dash
      have hyphens : (c :: rest).takeWhile (· = '-') =
          List.replicate ((c :: rest).takeWhile (· = '-')).length '-' :=
        List.eq_replicate_of_mem fun d member => by
          simpa using List.all_eq_true.mp List.all_takeWhile d member
      refine .inr (.inl ⟨blank, dashLength previous (c :: rest) - 1, ?_⟩)
      rw [size, empty, List.length_nil, Nat.max_zero, Nat.sub_add_cancel (by omega), run,
        take_takeWhile, ← hyphens]

/-- Of two chunks that follow each other one at least is not blank. -/
def Apart (chunk next : List Char) : Prop := isBlankChunk chunk = false ∨ isBlankChunk next = false

theorem not_blankChunk_of_mem {chunk : List Char} {c : Char} (member : c ∈ chunk)
    (shown : isBlank c = false) : isBlankChunk chunk = false := by
  rw [isBlankChunk, List.all_eq_false]
  exact ⟨c, member, by simp [shown]⟩

theorem exists_shown {chunk : List Char} (shown : isBlankChunk chunk = false) :
    ∃ c ∈ chunk, isBlank c = false := by
  obtain ⟨c, member, dark⟩ := List.all_eq_false.mp shown
  exact ⟨c, member, by simpa using dark⟩

/-- The next chunk starts where the text starts. -/
theorem head_nextChunk (previous : Option Char) (c : Char) (rest : List Char) :
    ((c :: rest).take (chunkSize previous (c :: rest))).head? = some c := by
  have positive : 0 < chunkSize previous (c :: rest) := by
    rcases nextChunk_cases previous c rest with ⟨blank, chunk, -⟩ | ⟨-, n, chunk⟩ | ⟨-, run, chunk⟩
    · apply Nat.pos_of_ne_zero
      intro zero
      simp [zero, blank] at chunk
    · apply Nat.pos_of_ne_zero
      intro zero
      simp [zero, List.replicate_succ] at chunk
    · apply Nat.pos_of_ne_zero
      intro zero
      rw [zero, List.take_zero] at chunk
      exact run chunk.symm
  obtain ⟨n, size⟩ := Nat.exists_eq_add_of_lt positive
  rw [size, Nat.zero_add, List.take_succ_cons]
  rfl

theorem nextChunk_ne_nil (previous : Option Char) (c : Char) (rest : List Char) :
    (c :: rest).take (chunkSize previous (c :: rest)) ≠ [] := by
  intro empty
  have first := head_nextChunk previous c rest
  simp [empty] at first

theorem length_afterChunk (previous : Option Char) (c : Char) (rest : List Char) :
    ((c :: rest).drop (chunkSize previous (c :: rest))).length ≤ rest.length := by
  have some := List.length_pos_iff.mpr (nextChunk_ne_nil previous c rest)
  rw [List.length_take] at some
  rw [List.length_drop, List.length_cons]
  omega

/-- A chunk that its own text is cut into, whatever stood around it. -/
def IsWhole (chunk : List Char) : Prop :=
  (∀ c ∈ chunk, isBlank c = false) ∧ plainChunks (chunk.length + 1) none chunk = [chunk]

theorem nextChunk_whole {previous : Option Char} {c : Char} {rest : List Char}
    (shown : isBlank c = false) :
    IsWhole ((c :: rest).take (chunkSize previous (c :: rest))) := by
  -- alone, the chunk is one run
  have alone : ∀ chunk : List Char, chunk ≠ [] → chunkRun none chunk = chunk →
      (∀ d ∈ chunk, isBlank d = false) → IsWhole chunk := by
    intro chunk nonempty run clear
    cases chunk with
    | nil => exact absurd rfl nonempty
    | cons d more =>
      have size : chunkSize none (d :: more) = (d :: more).length := by
        rw [chunkSize, dashLength_none, Nat.zero_max, run]
        simp [clear d List.mem_cons_self]
      refine ⟨clear, ?_⟩
      rw [plainChunks_cons, size, List.take_length, List.drop_length, plainChunks_nil]
  rcases nextChunk_cases previous c rest with ⟨blank, -⟩ | ⟨-, n, chunk⟩ | ⟨-, run, chunk⟩
  · rw [blank] at shown
    cases shown
  · rw [chunk]
    apply alone _ (by simp) (chunkRun_hyphens (.inl rfl) _)
    intro d member
    rw [List.eq_of_mem_replicate member]
    exact isBlank_hyphen
  · rw [chunk]
    exact alone _ run (chunkRun_chunkRun (.inr rfl) _) fun d member =>
      not_blank_of_mem_chunkRun member

/-- What a text is cut into: chunks that make up the text, none of them empty, no two blank ones in
a row, and those that are not blank stay whole. -/
structure Cut (isWhole : List Char → Prop) (text : List Char) (chunks : List (List Char)) :
    Prop where
  flatten : chunks.flatten = text
  nonempty : ∀ chunk ∈ chunks, chunk ≠ []
  apart : chunks.IsChain Apart
  whole : ∀ chunk ∈ chunks, isBlankChunk chunk = false → isWhole chunk

theorem cut_nil (isWhole : List Char → Prop) : Cut isWhole [] [] where
  flatten := rfl
  nonempty := by simp
  apart := List.isChain_nil
  whole := by simp

theorem Cut.cons {isWhole : List Char → Prop} {chunk text : List Char} {chunks : List (List Char)}
    (later : Cut isWhole text chunks) (nonempty : chunk ≠ [])
    (apart : ∀ next ∈ chunks.head?, Apart chunk next)
    (whole : isBlankChunk chunk = false → isWhole chunk) :
    Cut isWhole (chunk ++ text) (chunk :: chunks) where
  flatten := by rw [List.flatten_cons, later.flatten]
  nonempty := List.forall_mem_cons.mpr ⟨nonempty, later.nonempty⟩
  apart := List.isChain_cons.mpr ⟨apart, later.apart⟩
  whole := List.forall_mem_cons.mpr ⟨whole, later.whole⟩

theorem Cut.append {isWhole : List Char → Prop} {front back : List Char}
    {chunks others : List (List Char)} (early : Cut isWhole front chunks)
    (later : Cut isWhole back others)
    (shown : ∀ next ∈ others.head?, isBlankChunk next = false) :
    Cut isWhole (front ++ back) (chunks ++ others) where
  flatten := by rw [List.flatten_append, early.flatten, later.flatten]
  nonempty := List.forall_mem_append.mpr ⟨early.nonempty, later.nonempty⟩
  apart := early.apart.append later.apart fun _ _ next first => .inr (shown next first)
  whole := List.forall_mem_append.mpr ⟨early.whole, later.whole⟩

/-- The first chunk has the first character. -/
theorem mem_head_plainChunks {fuel : Nat} {previous : Option Char} {c : Char}
    {rest chunk : List Char} (first : chunk ∈ (plainChunks fuel previous (c :: rest)).head?) :
    c ∈ chunk := by
  cases fuel with
  | zero => cases first
  | succ fuel =>
    rw [plainChunks_cons, List.head?_cons, Option.mem_some] at first
    subst first
    exact List.mem_of_head? (head_nextChunk previous c rest)

theorem apart_nextChunk (fuel : Nat) (previous former : Option Char) (c : Char) (rest : List Char) :
    ∀ next ∈ (plainChunks fuel former ((c :: rest).drop (chunkSize previous (c :: rest)))).head?,
      Apart ((c :: rest).take (chunkSize previous (c :: rest))) next := by
  intro next follows
  have first := List.mem_of_head? (head_nextChunk previous c rest)
  rcases nextChunk_cases previous c rest with ⟨-, -, drop⟩ | ⟨shown, -⟩ | ⟨shown, -⟩
  · -- after blanks comes what is none
    rw [drop] at follows
    cases after : (c :: rest).dropWhile isBlank with
    | nil =>
      rw [after, plainChunks_nil] at follows
      cases follows
    | cons d more =>
      rw [after] at follows
      have shown : isBlank d = false := head_dropWhile d (by rw [after]; rfl)
      exact .inr (not_blankChunk_of_mem (mem_head_plainChunks follows) shown)
  · exact .inl (not_blankChunk_of_mem first shown)
  · exact .inl (not_blankChunk_of_mem first shown)

theorem plainChunks_cut {fuel : Nat} {text : List Char} (enough : text.length < fuel)
    (previous : Option Char) : Cut IsWhole text (plainChunks fuel previous text) := by
  induction fuel generalizing text previous with
  | zero => omega
  | succ fuel ih =>
    cases text with
    | nil => exact cut_nil _
    | cons c rest =>
      rw [List.length_cons] at enough
      have shorter := length_afterChunk previous c rest
      have smaller : ((c :: rest).drop (chunkSize previous (c :: rest))).length < fuel := by omega
      have later := ih smaller ((c :: rest).take (chunkSize previous (c :: rest))).getLast?
      have whole := later.cons (nextChunk_ne_nil previous c rest)
        (apart_nextChunk fuel previous _ c rest) ?_
      · rwa [List.take_append_drop] at whole
      · intro shown
        apply nextChunk_whole
        rcases nextChunk_cases previous c rest with ⟨-, blanks, -⟩ | ⟨clear, -⟩ | ⟨clear, -⟩
        · rw [blanks, isBlankChunk, List.all_takeWhile] at shown
          cases shown
        · exact clear
        · exact clear

/-! ### Names between isolating marks -/

theorem isBlank_isolateStart : isBlank isolateStart = false := by decide

theorem isBlank_isolateEnd : isBlank isolateEnd = false := by decide

/-- The mark of a number, with a sign at most. -/
def IsNumberMark (mark : List Char) : Prop := mark = [':'] ∨ mark = [':', '-']

/-- The decimal digits that a text starts with. -/
def digitRun (text : List Char) : List Char := text.takeWhile fun c => (decimalValue? c).isSome

theorem numberSuffix_minus (rest : List Char) :
    numberSuffix (':' :: '-' :: rest) =
      if digitRun rest = [] then [] else [':', '-'] ++ digitRun rest := rfl

theorem numberSuffix_colon {rest : List Char} (plain : ∀ more, rest ≠ '-' :: more) :
    numberSuffix (':' :: rest) = if digitRun rest = [] then [] else [':'] ++ digitRun rest := by
  unfold numberSuffix
  split
  rename_i mark digits parts
  split at parts
  · rename_i more same
    cases same
    exact absurd rfl (plain more)
  · rename_i same
    cases same
    cases parts
    rfl
  · rename_i none
    exact absurd rfl (none rest)

theorem numberSuffix_other {text : List Char} (plain : ∀ rest, text ≠ ':' :: rest) :
    numberSuffix text = [] := by
  unfold numberSuffix
  split
  rename_i mark digits parts
  split at parts
  · exact absurd rfl (plain _)
  · exact absurd rfl (plain _)
  · cases parts
    rfl

theorem digitRun_of_all {digits : List Char}
    (all : digits.all (fun c => (decimalValue? c).isSome) = true) : digitRun digits = digits := by
  have run : (digits ++ []).takeWhile (fun c => (decimalValue? c).isSome) =
      digits ++ [].takeWhile _ := List.takeWhile_append_of_pos (List.all_eq_true.mp all)
  rwa [List.append_nil, List.takeWhile_nil, List.append_nil] at run

theorem numberSuffix_mark {mark digits : List Char} (known : IsNumberMark mark)
    (all : digits.all (fun c => (decimalValue? c).isSome) = true) (some : digits ≠ []) :
    numberSuffix (mark ++ digits) = mark ++ digits := by
  rcases known with rfl | rfl
  · have plain : ∀ more, digits ≠ '-' :: more := by
      rintro more rfl
      simp [show (decimalValue? '-').isSome = false by decide] at all
    rw [List.singleton_append, numberSuffix_colon plain, digitRun_of_all all, if_neg some]
    rfl
  · rw [List.cons_append, List.singleton_append, numberSuffix_minus, digitRun_of_all all,
      if_neg some]
    rfl

/-- A number after a mark, if there is one. -/
theorem numberSuffix_cases (text : List Char) :
    numberSuffix text = [] ∨ ∃ mark digits more, text = mark ++ digits ++ more ∧
      numberSuffix text = mark ++ digits ∧ IsNumberMark mark ∧ digits ≠ [] ∧
      digits.all (fun c => (decimalValue? c).isSome) = true := by
  have marked : ∀ mark rest, IsNumberMark mark → text = mark ++ rest →
      numberSuffix text = (if digitRun rest = [] then [] else mark ++ digitRun rest) →
      numberSuffix text = [] ∨ ∃ mark digits more, text = mark ++ digits ++ more ∧
        numberSuffix text = mark ++ digits ∧ IsNumberMark mark ∧ digits ≠ [] ∧
        digits.all (fun c => (decimalValue? c).isSome) = true := by
    intro mark rest known whole suffix
    by_cases none : digitRun rest = []
    · exact .inl (by rw [suffix, if_pos none])
    · refine .inr ⟨mark, digitRun rest, rest.dropWhile fun c => (decimalValue? c).isSome, ?_,
        by rw [suffix, if_neg none], known, none, List.all_takeWhile⟩
      rw [whole, List.append_assoc, digitRun, List.takeWhile_append_dropWhile]
  by_cases minus : ∃ rest, text = ':' :: '-' :: rest
  · obtain ⟨rest, rfl⟩ := minus
    exact marked [':', '-'] rest (.inr rfl) rfl (numberSuffix_minus rest)
  · by_cases colon : ∃ rest, text = ':' :: rest
    · obtain ⟨rest, rfl⟩ := colon
      have plain : ∀ more, rest ≠ '-' :: more := by
        rintro more rfl
        exact minus ⟨more, rfl⟩
      exact marked [':'] rest (.inl rfl) rfl (numberSuffix_colon plain)
    · exact .inl (numberSuffix_other fun rest same => colon ⟨rest, same⟩)

theorem numberSuffix_prefix (text : List Char) : numberSuffix text <+: text := by
  rcases numberSuffix_cases text with none | ⟨mark, digits, more, whole, suffix, -⟩
  · rw [none]
    exact List.nil_prefix
  · rw [suffix, whole]
    exact List.prefix_append _ _

theorem numberSuffix_again (text : List Char) :
    numberSuffix (numberSuffix text) = numberSuffix text := by
  rcases numberSuffix_cases text with none | ⟨mark, digits, more, -, suffix, known, some, all⟩
  · rw [none]
    rfl
  · rw [suffix, numberSuffix_mark known all some]

theorem not_blank_of_mem_numberSuffix {text : List Char} {c : Char}
    (member : c ∈ numberSuffix text) : isBlank c = false := by
  rcases numberSuffix_cases text with none | ⟨mark, digits, more, -, suffix, known, -, all⟩
  · rw [none] at member
    simp at member
  · rw [suffix, List.mem_append] at member
    rcases member with early | late
    · have marks : c = ':' ∨ c = '-' := by
        rcases known with rfl | rfl
        · exact .inl (List.mem_singleton.mp early)
        · simpa using early
      rcases marks with rfl | rfl <;> decide
    · exact isBlank_of_decimal (List.all_eq_true.mp all c late)

theorem isolatedRest?_eq_some {text name : List Char} (found : isolatedRest? text = some name) :
    ∃ front more, text = name ++ more ∧ name = front ++ [isolateEnd] ∧
      ∀ other, isolatedRest? (name ++ other) = some name := by
  induction text generalizing name with
  | nil => simp [isolatedRest?] at found
  | cons c rest ih =>
    rw [isolatedRest?] at found
    by_cases stops : c = isolateEnd
    · rw [if_pos stops] at found
      cases found
      subst stops
      exact ⟨[], rest, rfl, rfl, fun other => by simp [isolatedRest?]⟩
    · rw [if_neg stops] at found
      by_cases starts : c = isolateStart
      · rw [if_pos starts] at found
        cases found
      · rw [if_neg starts] at found
        obtain ⟨tail, later, rfl⟩ := Option.map_eq_some_iff.mp found
        obtain ⟨front, more, whole, last, again⟩ := ih later
        refine ⟨c :: front, more, by rw [whole]; rfl, by rw [last]; rfl, fun other => ?_⟩
        rw [List.cons_append, isolatedRest?, if_neg stops, if_neg starts, again]
        rfl

theorem isolatedRest?_append {text name : List Char} (found : isolatedRest? text = some name)
    (more : List Char) : isolatedRest? (text ++ more) = some name := by
  obtain ⟨front, tail, whole, -, again⟩ := isolatedRest?_eq_some found
  rw [whole, List.append_assoc, again]

/-- A name that comes next is one that its own text starts with. -/
theorem isolated?_eq_some {text name : List Char} (found : isolated? text = some name) :
    name <+: text ∧ isolated? name = some name ∧ name.head? = some isolateStart ∧
      Trim isBlank name := by
  match text, found with
  | start :: first :: rest, found =>
    rw [isolated?] at found
    split at found
    · rename_i opens
      obtain ⟨tail, closes, rfl⟩ := Option.map_eq_some_iff.mp found
      obtain ⟨front, more, whole, last, again⟩ := isolatedRest?_eq_some closes
      have number : rest.drop tail.length = more := by rw [whole, List.drop_left]
      rw [number]
      obtain ⟨beyond, split⟩ := numberSuffix_prefix more
      refine ⟨⟨beyond, ?_⟩, ?_, by rw [opens.1]; rfl, ⟨?_, ?_⟩⟩
      · rw [List.append_assoc, split, whole]
        rfl
      · rw [List.cons_append, List.cons_append, isolated?, if_pos opens, again, Option.map_some,
          List.drop_left, numberSuffix_again]
        rfl
      · rintro c head
        rw [List.cons_append, List.head?_cons, Option.some.injEq] at head
        rw [← head, opens.1]
        exact isBlank_isolateStart
      · intro c end'
        rw [List.getLast?_append] at end'
        cases suffix : (numberSuffix more).getLast? with
        | some d =>
          rw [suffix] at end'
          cases end'
          exact not_blank_of_mem_numberSuffix (List.mem_of_getLast? suffix)
        | none =>
          rw [suffix, last] at end'
          have same : some isolateEnd = some c := by
            rw [← end', Option.none_or, ← List.cons_append, ← List.cons_append,
              List.getLast?_concat]
          cases same
          exact isBlank_isolateEnd
    · cases found

theorem isolated?_append {text name : List Char} (found : isolated? text = some name)
    (more : List Char) : (isolated? (text ++ more)).isSome = true := by
  match text, found with
  | start :: first :: rest, found =>
    rw [isolated?] at found
    split at found
    · rename_i opens
      obtain ⟨tail, closes, rfl⟩ := Option.map_eq_some_iff.mp found
      rw [List.cons_append, List.cons_append, isolated?, if_pos opens,
        isolatedRest?_append closes]
      rfl
    · cases found

/-! ### All chunks -/

theorem chunksFrom_nil (fuel : Nat) (before : List Char) :
    chunksFrom (fuel + 1) before [] = chunksBetween before.reverse := rfl

theorem chunksFrom_name {text name : List Char} (found : isolated? text = some name) (fuel : Nat)
    (before : List Char) :
    chunksFrom (fuel + 1) before text =
      chunksBetween before.reverse ++ name :: chunksFrom fuel [] (text.drop name.length) := by
  cases text with
  | nil => cases found
  | cons c rest => simp only [chunksFrom, found]

theorem chunksFrom_next {c : Char} {rest : List Char} (none : isolated? (c :: rest) = none)
    (fuel : Nat) (before : List Char) :
    chunksFrom (fuel + 1) before (c :: rest) = chunksFrom fuel (c :: before) rest := by
  simp only [chunksFrom, none]

theorem chunksBetween_nil : chunksBetween [] = [] := rfl

/-- Nowhere in the text a name between isolating marks starts. -/
def NoName (text : List Char) : Prop := ∀ front back, text = front ++ back → isolated? back = none

theorem chunksFrom_noName {text : List Char} (clear : NoName text) {fuel : Nat}
    (enough : text.length < fuel) (before : List Char) :
    chunksFrom fuel before text = chunksBetween (before.reverse ++ text) := by
  induction text generalizing before fuel with
  | nil =>
    obtain ⟨fuel, rfl⟩ := Nat.exists_eq_add_of_lt enough
    rw [chunksFrom_nil, List.append_nil]
  | cons c rest ih =>
    obtain ⟨fuel, rfl⟩ := Nat.exists_eq_add_of_lt enough
    have later : NoName rest := fun front back same => clear (c :: front) back (by rw [same]; rfl)
    rw [chunksFrom_next (clear [] _ rfl), ih later (by rw [List.length_cons]; omega),
      List.reverse_cons, List.append_assoc, List.singleton_append]

theorem chunks_noName {text : List Char} (clear : NoName text) :
    chunks text = chunksBetween text :=
  chunksFrom_noName clear (Nat.lt_succ_self _) []

theorem chunks_name {name : List Char} (found : isolated? name = some name) :
    chunks name = [name] := by
  have rest : ∀ fuel, chunksFrom fuel [] [] = [] := by
    rintro (_ | fuel)
    · rfl
    · rfl
  rw [chunks, chunksFrom_name found, List.drop_length, rest, List.reverse_nil, chunksBetween_nil,
    List.nil_append]

/-- A chunk that is one still when it stands alone, without the blanks around it. -/
def Stays (chunk : List Char) : Prop := chunks (stripped chunk) = [stripped chunk]

/-- No name starts in a region, whatever follows. -/
def Clear (region text : List Char) : Prop :=
  ∀ front back, region = front ++ back → back ≠ [] → isolated? (back ++ text) = none

theorem clear_nil (text : List Char) : Clear [] text := by
  intro front back same some
  exact absurd (List.append_eq_nil_iff.mp same.symm).2 some

theorem Clear.noName {region text : List Char} (clear : Clear region text)
    {front piece back : List Char} (whole : region = front ++ piece ++ back) : NoName piece := by
  intro start rest same
  by_cases empty : rest = []
  · rw [empty]
    rfl
  · have none := clear (front ++ start) (rest ++ back) (by rw [whole, same]; simp) (by simp [empty])
    cases found : isolated? rest with
    | none => rfl
    | some name =>
      have named := isolated?_append found (back ++ text)
      rw [← List.append_assoc, none] at named
      cases named

theorem Clear.push {region : List Char} {c : Char} {rest : List Char}
    (clear : Clear region (c :: rest)) (none : isolated? (c :: rest) = none) :
    Clear (region ++ [c]) rest := by
  intro front back same some
  rcases List.eq_nil_or_concat back with rfl | ⟨init, last, rfl⟩
  · exact absurd rfl some
  · rw [List.concat_eq_append, ← List.append_assoc] at same
    obtain ⟨whole, final⟩ := List.append_inj' same rfl
    cases final
    rw [List.concat_eq_append, List.append_assoc, List.singleton_append]
    by_cases empty : init = []
    · rw [empty]
      exact none
    · exact clear front init whole empty

/-- A mark that a region starts with stays there without the blanks around it. -/
theorem head_stripped {region : List Char} (marked : region.head? = some isolateStart) :
    (stripped region).head? = some isolateStart := by
  obtain ⟨front, back, whole, before, -⟩ := exists_trimmed isBlank region
  cases front with
  | nil =>
    have kept : trimmed isBlank region ≠ [] :=
      trimmed_ne_nil (List.mem_of_head? marked) isBlank_isolateStart
    rw [whole, List.nil_append, List.head?_append_of_ne_nil _ kept] at marked
    exact marked
  | cons c front =>
    rw [whole] at marked
    cases marked
    simp [isBlank_isolateStart] at before

theorem chunksBetween_cut {region text : List Char} (clear : Clear region text) :
    Cut Stays region (chunksBetween region) := by
  rw [chunksBetween]
  by_cases marked : region.head? = some isolateStart
  · rw [if_pos marked]
    have single := (cut_nil Stays).cons (List.ne_nil_of_mem (List.mem_of_head? marked))
      (by simp) ?_
    · rwa [List.append_nil] at single
    · intro _
      obtain ⟨front, back, whole, -⟩ := exists_trimmed isBlank region
      have piece : NoName (stripped region) := clear.noName whole
      rw [Stays, chunks_noName piece, chunksBetween, if_pos (head_stripped marked)]
  · have cut := plainChunks_cut (Nat.lt_succ_self region.length) none
    rw [if_neg marked]
    refine ⟨cut.flatten, cut.nonempty, cut.apart, fun chunk member shown => ?_⟩
    obtain ⟨visible, alone⟩ := cut.whole chunk member shown
    obtain ⟨front, back, split⟩ := List.append_of_mem member
    have whole : region = front.flatten ++ chunk ++ back.flatten := by
      rw [← cut.flatten, split]
      simp
    rw [Stays, stripped_of_shown visible, chunks_noName (clear.noName whole), chunksBetween, alone,
      ite_self]

theorem chunksFrom_cut {fuel : Nat} {text : List Char} (enough : text.length < fuel)
    {before : List Char} (clear : Clear before.reverse text) :
    Cut Stays (before.reverse ++ text) (chunksFrom fuel before text) := by
  induction fuel generalizing text before with
  | zero => omega
  | succ fuel ih =>
    cases found : isolated? text with
    | some name =>
      obtain ⟨⟨more, rfl⟩, own, marked, trim⟩ := isolated?_eq_some found
      have start : isolateStart ∈ name := List.mem_of_head? marked
      have shown : isBlankChunk name = false := not_blankChunk_of_mem start isBlank_isolateStart
      have shorter : more.length < fuel := by
        have some : 0 < name.length := List.length_pos_of_mem start
        rw [List.length_append] at enough
        omega
      have former := chunksBetween_cut clear
      have nothing : Clear ([] : List Char).reverse more := clear_nil more
      have later : Cut Stays more _ := ih shorter nothing
      rw [chunksFrom_name found, List.drop_left]
      refine former.append (later.cons (List.ne_nil_of_mem start) (fun _ _ => .inl shown) ?_) ?_
      · intro _
        rw [Stays, stripped, trim.trimmed_eq, chunks_name own]
      · intro next first
        rw [List.head?_cons, Option.mem_some] at first
        exact first ▸ shown
    | none =>
      cases text with
      | nil =>
        rw [chunksFrom_nil, List.append_nil]
        exact chunksBetween_cut clear
      | cons c rest =>
        have pushed := clear.push found
        rw [← List.reverse_cons] at pushed
        have later := ih (by rw [List.length_cons] at enough; omega) pushed
        rw [chunksFrom_next found]
        rwa [List.reverse_cons, List.append_assoc, List.singleton_append] at later

theorem chunks_cut (text : List Char) : Cut Stays text (chunks text) := by
  have nothing : Clear ([] : List Char).reverse text := clear_nil text
  exact chunksFrom_cut (Nat.lt_succ_self _) nothing

end Phrasebook.Text

import Mathlib.Data.List.Nodup
import Phrasebook.Plural.Locale
import Phrasebook.Proofs.Message.Demand
import Phrasebook.Proofs.Plural.Exact

set_option autoImplicit false

/-!
Which option a choice takes depends on what its options are and not on their order: distinct
selectors can be in any order, and an exact selector for another number makes no difference. Both
hold of one choice and so of every pattern around it.
-/
namespace Phrasebook.Message

open Number (Fault Decimal)
open Outcome (ok_bind bind_eq_ok bind_congr_ok)
open Plural

/-! ### The body that is taken -/

/-- The options of a choice. -/
abbrev Options := List (String × Pattern)

/-- The body of the first exact selector that names a number. -/
def exactBody (number : Number) : Options → Except Fault (Option Pattern)
  | [] => .ok none
  | (selector, body) :: rest => do
    if ← matchesExact selector number then return some body else exactBody number rest

/-- The body of the first selector that is a given one. -/
def namedBody (key : String) (options : Options) : Option Pattern :=
  (options.find? fun option => option.1 == key).map (·.2)

/-- The body for a text, else that of the last category. -/
def textBody (shown : String) (options : Options) : Option Pattern :=
  (namedBody shown options).or (namedBody Category.other.text options)

/-- The body that a plural choice takes, and the number that it shows. -/
def pluralBody [Plural.Rules] (options : Options) (number : Number) (offset : Nat)
    (locale : Option String) (ordinal : Bool) : Except Fault (Option Pattern × Number) := do
  let exact ← exactBody number options
  let shifted ← shift number offset
  match exact with
  | some body => return (some body, shifted)
  | none =>
    let category ← category shifted locale ordinal
    return (textBody category.text options, shifted)

/-- The body at a place, if there is one. -/
def bodyAt (options : Options) (place : Option Nat) : Option Pattern :=
  place.bind fun index => options[index]?.map (·.2)

section Bodies

variable {options : Options} {number : Number}

theorem bodyAt_cons (option : String × Pattern) (place : Option Nat) :
    bodyAt (option :: options) (place.map (· + 1)) = bodyAt options place := by
  cases place with
  | none => rfl
  | some index => simp [bodyAt]

theorem bodyAt_findIdx? (test : String → Bool) (options : Options) :
    bodyAt options ((options.map (·.1)).findIdx? test) =
      (options.find? fun option => test option.1).map (·.2) := by
  induction options with
  | nil => rfl
  | cons option rest ih =>
    rw [List.map_cons, List.findIdx?_cons, List.find?_cons]
    cases test option.1 with
    | true => rfl
    | false => exact (bodyAt_cons option _).trans ih

/-- The places for a text are those of the bodies for it. -/
theorem bodyAt_selectPlace (shown : String) (options : Options) :
    bodyAt options (selectPlace (options.map (·.1)) shown) = textBody shown options := by
  have first := bodyAt_findIdx? (· == shown) options
  have second := bodyAt_findIdx? (· == Category.other.text) options
  rw [selectPlace, textBody, namedBody, namedBody, ← first, ← second, place, place, List.idxOf?,
    List.idxOf?]
  cases found : (options.map (·.1)).findIdx? (· == shown) with
  | none => rfl
  | some index =>
    obtain ⟨inside, -⟩ := List.findIdx?_eq_some_iff_getElem.mp found
    rw [List.length_map] at inside
    simp [bodyAt, inside]

theorem exactPlace_body (number : Number) (options : Options) :
    (exactPlace number (options.map (·.1))).map (bodyAt options) = exactBody number options := by
  induction options with
  | nil => rfl
  | cons option rest ih =>
    obtain ⟨selector, body⟩ := option
    rw [List.map_cons, exactPlace, exactBody, ← ih]
    cases matchesExact selector number with
    | error fault => rfl
    | ok answer =>
      cases answer with
      | true => rfl
      | false =>
        rw [ok_bind, ok_bind]
        cases exactPlace number (rest.map (·.1)) with
        | error fault => rfl
        | ok found => exact congrArg Except.ok (bodyAt_cons _ found)

theorem exactPlace_lt {selectors : List String} {index : Nat}
    (found : exactPlace number selectors = .ok (some index)) : index < selectors.length := by
  induction selectors generalizing index with
  | nil => cases found
  | cons selector rest ih =>
    rw [exactPlace] at found
    obtain ⟨answer, -, found⟩ := bind_eq_ok.mp found
    cases answer with
    | true =>
      cases found
      exact Nat.succ_pos _
    | false =>
      obtain ⟨later, further, done⟩ := bind_eq_ok.mp found
      obtain ⟨before, rfl, rfl⟩ := Option.map_eq_some_iff.mp (Except.ok.inj done)
      exact Nat.succ_lt_succ (ih further)

/-- The place that a plural choice takes is that of its body. -/
theorem pluralChoice_body [Plural.Rules] (number : Number) (offset : Nat) (locale : Option String)
    (ordinal : Bool) :
    (pluralChoice (options.map (·.1)) number offset locale ordinal).map
        (fun choice => (bodyAt options choice.1, choice.2)) =
      pluralBody options number offset locale ordinal := by
  rw [pluralChoice, pluralBody, ← exactPlace_body]
  cases found : exactPlace number (options.map (·.1)) with
  | error fault => rfl
  | ok exact =>
    cases shift number offset with
    | error fault => rfl
    | ok shifted =>
      cases exact with
      | none =>
        simp only [ok_bind, categoryPlace]
        cases category shifted locale ordinal with
        | error fault => rfl
        | ok category =>
          exact congrArg (fun body => Except.ok (body, shifted))
            (bodyAt_selectPlace category.text options)
      | some index =>
        have inside := exactPlace_lt found
        rw [List.length_map] at inside
        have body : bodyAt options (some index) = some options[index].2 := by
          simp [bodyAt, inside]
        rw [Except.map, body]
        exact congrArg (fun body => Except.ok (body, shifted)) body

/-! ### Rendering -/

/-- The text of the body that is taken; no body has no text. -/
def renderBody [Plural.Rules] (values : Values) (locale : Option String) (pound : Option Number) :
    Option Pattern → Except RenderFailure String
  | some body => renderParts values locale pound body
  | none => .ok ""

variable {values : Values} {locale : Option String} {pound : Option Number}

theorem renderBody_bodyAt [Plural.Rules] (place : Option Nat) :
    renderBody values locale pound (bodyAt options place) =
      match place with
      | some index => renderOption values locale pound index options
      | none => .ok "" := by
  cases place with
  | none => rfl
  | some index =>
    dsimp only
    rw [renderOption_eq]
    cases found : options[index]? with
    | none => simp [bodyAt, found, renderBody]
    | some option => simp [bodyAt, found, renderBody]

theorem renderPart_select [Plural.Rules] (name source : String) :
    renderPart values locale pound (.select name source options) =
      match values.get? name with
      | none => .ok source
      | some value => (do
        let shown ← orFault value.written
        renderBody values locale pound (textBody shown options)) := by
  rw [renderPart]
  cases values.get? name with
  | none => rfl
  | some value =>
    refine bind_congr_ok fun shown _ => ?_
    rw [← bodyAt_selectPlace]
    exact (renderBody_bodyAt _).symm

theorem renderPart_plural [Plural.Rules] (name source : String) (offset : Nat) (ordinal : Bool) :
    renderPart values locale pound (.plural name source options offset ordinal) =
      match values.get? name with
      | none => .ok source
      | some value => (do
        let number ← numberOf name value
        let (body, shown) ← orFault (pluralBody options number offset locale ordinal)
        renderBody values locale (some shown) body) := by
  rw [renderPart]
  cases values.get? name with
  | none => rfl
  | some value =>
    refine bind_congr_ok fun number _ => ?_
    rw [← pluralChoice_body]
    cases pluralChoice (options.map (·.1)) number offset locale ordinal with
    | error fault => rfl
    | ok choice =>
      obtain ⟨place, shown⟩ := choice
      exact (renderBody_bodyAt place).symm

end Bodies

/-! ### What exact selectors decide -/

/-- The decimal number as which a number is compared with exact selectors. -/
def comparedAs (number : Number) : Except Fault Decimal := do
  let text ← number.written
  match Decimal.read? text.toList with
  | some actual => if actual.isSignaling then .error .invalidOperation else .ok actual
  | none => .error .invalidOperation

/-- A selector is exact and names the value that is compared. -/
def namesValue (actual : Decimal) (selector : String) : Bool :=
  isExact selector && decide (exactValue? selector = actual.value?)

/-- A finite number is compared by its value with any number that can be compared. -/
theorem compare_of_finite {wanted actual : Decimal} (finite : wanted.value?.isSome = true) :
    Plural.compare wanted actual =
      if actual.isSignaling then .error .invalidOperation
      else .ok (decide (wanted.value? = actual.value?)) := by
  rw [Plural.compare.eq_def, isSignaling_of_value finite, Bool.false_or, sameNumber_eq (.inl finite)]

theorem matchesExact_eq {selector : String} (named : namesFinite selector) (number : Number) :
    matchesExact selector number =
      if isExact selector then (comparedAs number).map (namesValue · selector) else .ok false := by
  rw [matchesExact, comparedAs]
  cases exact : isExact selector with
  | false => rfl
  | true =>
    obtain ⟨wanted, given⟩ := Option.isSome_iff_exists.mp exact
    have value : exactValue? selector = wanted.value? := by
      rw [exactValue?, given, Option.bind_some]
    rw [if_pos rfl, if_pos rfl]
    cases number.written with
    | error fault => rfl
    | ok text =>
      rw [ok_bind, ok_bind, matchesText, given]
      dsimp only
      cases Decimal.read? text.toList with
      | none => rfl
      | some actual =>
        dsimp only
        rw [compare_of_finite (named wanted given)]
        cases actual.isSignaling with
        | true => rfl
        | false => simp [Except.map, namesValue, exact, value]

theorem isExact_of_value {selector : String} (named : (exactValue? selector).isSome = true) :
    isExact selector = true := by
  obtain ⟨value, held⟩ := Option.isSome_iff_exists.mp named
  obtain ⟨wanted, given, -⟩ := Option.bind_eq_some_iff.mp held
  exact Option.isSome_iff_exists.mpr ⟨wanted, given⟩

theorem namesFinite_of_value {selector : String} (named : (exactValue? selector).isSome = true) :
    namesFinite selector := by
  intro wanted given
  rwa [exactValue?, given, Option.bind_some] at named

section Choice

variable {options : Options} {number : Number}

/-- The body of an exact selector, where each exact one is of a finite number. -/
theorem exactBody_eq (named : ∀ option ∈ options, namesFinite option.1) (number : Number) :
    exactBody number options =
      if options.any (isExact ·.1) then
        (comparedAs number).map fun actual => (options.find? (namesValue actual ·.1)).map (·.2)
      else .ok none := by
  induction options with
  | nil => rfl
  | cons option rest ih =>
    obtain ⟨selector, body⟩ := option
    have later := ih fun other member => named other (List.mem_cons_of_mem _ member)
    rw [exactBody, matchesExact_eq (named _ List.mem_cons_self), later, List.any_cons]
    cases exact : isExact selector with
    | false =>
      have passed : ∀ actual, namesValue actual selector = false := by simp [namesValue, exact]
      simp only [List.find?_cons, passed, Bool.false_or]
      rfl
    | true =>
      cases comparedAs number with
      | error fault => rfl
      | ok actual =>
        have unnamed (inexact : rest.any (isExact ·.1) = false) :
            rest.find? (namesValue actual ·.1) = none := by
          rw [List.any_eq_false] at inexact
          rw [List.find?_eq_none]
          intro other member taken
          exact inexact other member (Bool.and_elim_left taken)
        simp only [Bool.true_or, if_true, Except.map, ok_bind, List.find?_cons]
        cases namesValue actual selector with
        | true => rfl
        | false =>
          cases further : rest.any (isExact ·.1) with
          | true => rfl
          | false => rw [unnamed further]; rfl

end Choice

/-! ### The order of options -/

/-- Where at most one item passes a test, the first that does is the same in any order. -/
theorem find?_perm {α : Type} {test : α → Bool} {items items' : List α} (perm : items.Perm items')
    (single : ∀ a ∈ items, ∀ b ∈ items, test a = true → test b = true → a = b) :
    items.find? test = items'.find? test := by
  cases found : items.find? test with
  | none =>
    rw [List.find?_eq_none] at found
    exact (List.find?_eq_none.mpr fun item member => found item (perm.mem_iff.mpr member)).symm
  | some item =>
    have member := List.mem_of_find?_eq_some found
    have passed := List.find?_some found
    cases other : items'.find? test with
    | none => exact absurd passed (List.find?_eq_none.mp other item (perm.mem_iff.mp member))
    | some first =>
      have inside := perm.mem_iff.mpr (List.mem_of_find?_eq_some other)
      rw [single item member first inside passed (List.find?_some other)]

/-- Selectors that differ from each other, and of which the exact ones name finite numbers that
differ from each other. -/
structure AreDistinct (selectors : List String) : Prop where
  nodup : selectors.Nodup
  finite : ∀ selector ∈ selectors, namesFinite selector
  apart : ∀ a ∈ selectors, ∀ b ∈ selectors, ∀ value, exactValue? a = some value →
    exactValue? b = some value → a = b

section Order

variable {options options' : Options}

/-- With distinct selectors, the option that a test of selectors takes is the same in any order. -/
theorem findOption_perm (perm : options.Perm options') (nodup : (options.map (·.1)).Nodup)
    (test : String → Bool)
    (single : ∀ a ∈ options, ∀ b ∈ options, test a.1 = true → test b.1 = true → a.1 = b.1) :
    options.find? (test ·.1) = options'.find? (test ·.1) :=
  find?_perm perm fun a here b there first second =>
    List.inj_on_of_nodup_map nodup here there (single a here b there first second)

theorem namedBody_perm (perm : options.Perm options') (nodup : (options.map (·.1)).Nodup)
    (key : String) : namedBody key options = namedBody key options' := by
  rw [namedBody, namedBody, findOption_perm perm nodup (· == key)]
  intro a _ b _ first second
  rw [eq_of_beq first, eq_of_beq second]

theorem textBody_perm (perm : options.Perm options') (nodup : (options.map (·.1)).Nodup)
    (shown : String) : textBody shown options = textBody shown options' := by
  rw [textBody, textBody, namedBody_perm perm nodup, namedBody_perm perm nodup]

theorem exactBody_perm (perm : options.Perm options') (distinct : AreDistinct (options.map (·.1)))
    (number : Number) : exactBody number options = exactBody number options' := by
  have named : ∀ option ∈ options, namesFinite option.1 := fun option member =>
    distinct.finite _ (List.mem_map_of_mem member)
  have same (actual : Decimal) : options.find? (namesValue actual ·.1) =
      options'.find? (namesValue actual ·.1) := by
    refine findOption_perm perm distinct.nodup _ fun a here b there first second => ?_
    simp only [namesValue, Bool.and_eq_true, decide_eq_true_eq] at first second
    obtain ⟨wanted, given⟩ := Option.isSome_iff_exists.mp first.1
    obtain ⟨value, held⟩ := Option.isSome_iff_exists.mp (named a here wanted given)
    have own : exactValue? a.1 = some value := by rw [exactValue?, given, Option.bind_some, held]
    exact distinct.apart _ (List.mem_map_of_mem here) _ (List.mem_map_of_mem there) value own
      (second.2.trans (first.2.symm.trans own))
  rw [exactBody_eq named, exactBody_eq fun option member => named option (perm.mem_iff.mpr member),
    perm.any_eq]
  simp only [same]

end Order

/-! ### Another exact selector -/

section Another

variable {before after : Options} {selector : String} {body : Pattern} {number : Number}

theorem exactBody_of_passed (passed : matchesExact selector number = .ok false) :
    exactBody number (before ++ (selector, body) :: after) =
      exactBody number (before ++ after) := by
  induction before with
  | nil =>
    rw [List.nil_append, List.nil_append, exactBody, passed, ok_bind, if_neg Bool.false_ne_true]
  | cons option rest ih =>
    obtain ⟨earlier, taken⟩ := option
    rw [List.cons_append, List.cons_append, exactBody, exactBody, ih]

/-- A number that cannot be written is refused at the first exact selector. -/
theorem exactBody_of_unwritten {options : Options} (unwritten : number.isWritable = false)
    (exact : options.any (isExact ·.1) = true) :
    exactBody number options = .error .tooManyDigits := by
  induction options with
  | nil => cases exact
  | cons option rest ih =>
    obtain ⟨selector, body⟩ := option
    rw [exactBody, matchesExact, Number.written, unwritten]
    cases own : isExact selector with
    | true => rfl
    | false =>
      rw [List.any_cons, own, Bool.false_or] at exact
      exact ih exact

theorem namedBody_of_passed {key : String} (different : selector ≠ key) :
    namedBody key (before ++ (selector, body) :: after) = namedBody key (before ++ after) := by
  have passed : (selector == key) = false := beq_false_of_ne different
  simp only [namedBody, List.find?_append, List.find?_cons, passed]

/-- An exact selector is no category. -/
theorem category_ne_exact (exact : isExact selector = true) (category : Category) :
    selector ≠ category.text := by
  rintro rfl
  rw [isExact, exactNumber?_category] at exact
  cases exact

theorem textBody_of_exact (exact : isExact selector = true) (category : Category) :
    textBody category.text (before ++ (selector, body) :: after) =
      textBody category.text (before ++ after) := by
  rw [textBody, textBody, namedBody_of_passed (category_ne_exact exact _),
    namedBody_of_passed (category_ne_exact exact _)]

/-- A number is not the one that an exact selector is for: it is a finite number of another value,
or it cannot be written and another exact selector refuses it already. -/
def IsOther (options : Options) (selector : String) (number : Number) : Prop :=
  (number.isFinite = true ∧ exactValue? selector ≠ some number.value) ∨
    (number.isWritable = false ∧ options.any (isExact ·.1) = true)

theorem exactBody_insert (named : (exactValue? selector).isSome = true)
    (other : IsOther (before ++ after) selector number) :
    exactBody number (before ++ (selector, body) :: after) =
      exactBody number (before ++ after) := by
  rcases other with ⟨finite, different⟩ | ⟨unwritten, exact⟩
  · apply exactBody_of_passed
    rw [matchesExact_of_isFinite (namesFinite_of_value named) finite, decide_eq_false different]
  · rw [exactBody_of_unwritten unwritten exact, exactBody_of_unwritten unwritten]
    rw [List.any_append, List.any_cons, Bool.or_left_comm, ← List.any_append, exact, Bool.or_true]

end Another

/-! ### Rendering with other options -/

/-- Options of a choice in another order, the selectors of the choice being distinct. -/
inductive Reordered : Part → Part → Prop where
  | plural {name source : String} {options options' : Options} {offset : Nat} {ordinal : Bool}
      (perm : options.Perm options') (distinct : AreDistinct (options.map (·.1))) :
    Reordered (.plural name source options offset ordinal)
      (.plural name source options' offset ordinal)
  | select {name source : String} {options options' : Options} (perm : options.Perm options')
      (nodup : (options.map (·.1)).Nodup) :
    Reordered (.select name source options) (.select name source options')

/-- One more option of a plural choice, for a finite number that the value of the choice, if it has
one, is not. -/
inductive Extended (values : Values) : Part → Part → Prop where
  | plural {name source selector : String} {before after : Options} {body : Pattern} {offset : Nat}
      {ordinal : Bool} (named : (exactValue? selector).isSome = true)
      (other : ∀ value number, values.get? name = some value → numberOf name value = .ok number →
        IsOther (before ++ after) selector number) :
    Extended values (.plural name source (before ++ after) offset ordinal)
      (.plural name source (before ++ (selector, body) :: after) offset ordinal)

/-- One part of a pattern, at any depth, is changed in a given way. -/
inductive DiffersIn (change : Part → Part → Prop) : Pattern → Pattern → Prop where
  | here {part part' : Part} {rest : Pattern} (changed : change part part') :
    DiffersIn change (part :: rest) (part' :: rest)
  | later {part : Part} {rest rest' : Pattern} (inner : DiffersIn change rest rest') :
    DiffersIn change (part :: rest) (part :: rest')
  | plural {name source selector : String} {before after : Options} {body body' : Pattern}
      {offset : Nat} {ordinal : Bool} {rest : Pattern} (inner : DiffersIn change body body') :
    DiffersIn change
      (.plural name source (before ++ (selector, body) :: after) offset ordinal :: rest)
      (.plural name source (before ++ (selector, body') :: after) offset ordinal :: rest)
  | select {name source selector : String} {before after : Options} {body body' rest : Pattern}
      (inner : DiffersIn change body body') :
    DiffersIn change (.select name source (before ++ (selector, body) :: after) :: rest)
      (.select name source (before ++ (selector, body') :: after) :: rest)

section Rendering

variable [Plural.Rules] {values : Values} {locale : Option String}

theorem pluralBody_congr {options options' : Options} {number : Number} (offset : Nat)
    (locale : Option String) (ordinal : Bool)
    (exact : exactBody number options = exactBody number options')
    (text : ∀ category : Category,
      textBody category.text options = textBody category.text options') :
    pluralBody options number offset locale ordinal =
      pluralBody options' number offset locale ordinal := by
  rw [pluralBody, pluralBody, exact]
  simp only [text]

theorem renderPart_of_reordered {part part' : Part} (reordered : Reordered part part')
    (pound : Option Number) :
    renderPart values locale pound part = renderPart values locale pound part' := by
  cases reordered with
  | @plural name source options options' offset ordinal perm distinct =>
    have same (number : Number) := pluralBody_congr offset locale ordinal
      (exactBody_perm perm distinct number)
      fun category => textBody_perm perm distinct.nodup category.text
    simp only [renderPart_plural, same]
  | select perm nodup => simp only [renderPart_select, textBody_perm perm nodup]

theorem renderPart_of_extended {part part' : Part} (extended : Extended values part part')
    (pound : Option Number) :
    renderPart values locale pound part = renderPart values locale pound part' := by
  cases extended with
  | @plural name source selector before after body offset ordinal named other =>
    rw [renderPart_plural, renderPart_plural]
    cases given : values.get? name with
    | none => rfl
    | some value =>
      refine bind_congr_ok fun number counted => ?_
      rw [pluralBody_congr offset locale ordinal
        (exactBody_insert named (other value number given counted)).symm
        fun category => (textBody_of_exact (isExact_of_value named) category).symm]

/-- Rendering does not tell apart options whose bodies render alike. -/
theorem renderOption_congr {before after : Options} {selector : String} {body body' : Pattern}
    {pound : Option Number}
    (same : renderParts values locale pound body = renderParts values locale pound body')
    (index : Nat) :
    renderOption values locale pound index (before ++ (selector, body) :: after) =
      renderOption values locale pound index (before ++ (selector, body') :: after) := by
  induction before generalizing index with
  | nil =>
    cases index with
    | zero => exact same
    | succ index => rfl
  | cons option rest ih =>
    cases index with
    | zero => rfl
    | succ index => exact ih index

/-- A change that one part does not show is not shown by the pattern around it. -/
theorem renderParts_of_differsIn {change : Part → Part → Prop}
    (same : ∀ part part', change part part' → ∀ pound,
      renderPart values locale pound part = renderPart values locale pound part')
    {pattern pattern' : Pattern} (differs : DiffersIn change pattern pattern')
    (pound : Option Number) :
    renderParts values locale pound pattern = renderParts values locale pound pattern' := by
  induction differs generalizing pound with
  | here changed => rw [renderParts, renderParts, same _ _ changed]
  | later inner ih => rw [renderParts, renderParts, ih]
  | plural inner ih =>
    simp only [renderParts, renderPart, List.map_append, List.map_cons,
      renderOption_congr (ih _)]
  | select inner ih =>
    simp only [renderParts, renderPart, List.map_append, List.map_cons,
      renderOption_congr (ih _)]

end Rendering

/-- The options of a choice at any depth can be in any order, and a plural choice there can have
another exact selector. -/
theorem renderParts_options [Plural.Rules] (locale : Option String) {pattern pattern' : Pattern} :
    (DiffersIn Reordered pattern pattern' → ∀ values pound,
      renderParts values locale pound pattern = renderParts values locale pound pattern') ∧
    ∀ values, DiffersIn (Extended values) pattern pattern' → ∀ pound,
      renderParts values locale pound pattern = renderParts values locale pound pattern' :=
  ⟨fun differs _ => renderParts_of_differsIn (fun _ _ => renderPart_of_reordered) differs,
    fun _ => renderParts_of_differsIn fun _ _ => renderPart_of_extended⟩

/-- A choice on a number inside a choice on a text. -/
def orders (sizes : Options) : Pattern :=
  [.select "who" "" [("me", [.literal "I have ", .plural "n" "" sizes 1 false])]]

/-- No others, a single other, and more. -/
def someSizes : Options :=
  [("=1", [.literal "none"]), ("one", [.pound, .literal " more"]), ("other", [.pound])]

theorem someSizes_areDistinct : AreDistinct (someSizes.map (·.1)) := by
  have categories (category : Category) (value : ℚ) : exactValue? category.text ≠ some value := by
    rw [exactValue?, exactNumber?_category]
    exact (Option.some_ne_none value).symm
  refine ⟨by decide, ?_, ?_⟩
  · intro selector member
    apply namesFinite_of_isSelector
    simp only [someSizes, List.map_cons, List.map_nil, List.mem_cons, List.not_mem_nil,
      or_false] at member
    rcases member with rfl | rfl | rfl <;> decide
  · intro a here b there value first second
    simp only [someSizes, List.map_cons, List.map_nil, List.mem_cons, List.not_mem_nil,
      or_false] at here there
    rcases here with rfl | rfl | rfl
    · rcases there with rfl | rfl | rfl
      · rfl
      · exact absurd second (categories .one value)
      · exact absurd second (categories .other value)
    · exact absurd first (categories .one value)
    · exact absurd first (categories .other value)

theorem renderParts_orders :
    (∀ values pound, renderParts values (some "en") pound (orders someSizes) =
      renderParts values (some "en") pound (orders someSizes.reverse)) ∧
    (∀ pound, renderParts [("n", .number (.int 2)), ("who", .text "me")] (some "en") pound
        (orders someSizes) =
      renderParts [("n", .number (.int 2)), ("who", .text "me")] (some "en") pound
        (orders (("=1e1", [.literal "ten"]) :: someSizes))) ∧
    renderParts [("n", .number (.int 2)), ("who", .text "me")] (some "en") none
      (orders someSizes) = .ok "I have 1 more" := by
  have inside {change : Part → Part → Prop} {sizes sizes' : Options}
      (changed : change (.plural "n" "" sizes 1 false) (.plural "n" "" sizes' 1 false)) :
      DiffersIn change (orders sizes) (orders sizes') :=
    @DiffersIn.select _ "who" "" "me" [] [] _ _ [] (.later (.here changed))
  have ten : exactValue? "=1e1" = some 10 := by
    have read : exactNumber? "=1e1" = some (.finite false 1 1) := by decide
    rw [exactValue?, read, Option.bind_some, Decimal.value?, Number.valueOf_false]
    norm_num
  refine ⟨?_, ?_, by decide +kernel⟩
  · exact (renderParts_options (some "en")).1
      (inside (.plural (List.reverse_perm _).symm someSizes_areDistinct))
  · refine (renderParts_options (some "en")).2 _
      (inside (@Extended.plural _ "n" "" "=1e1" [] someSizes _ 1 false (by rw [ten]; rfl) ?_))
    intro value number given counted
    cases given
    cases counted
    refine .inl ⟨by decide, ?_⟩
    rw [ten]
    simp [Number.value]

/-- The double that is nearest to the number 10²³ and lies below it. -/
def belowTenTo23 : Number := .double (.finite false 5960464477539062 24)

/-- A double is compared as it is written and not as the number that it is, so that an exact
selector for another number is taken; and a number that cannot be written is shown only as long as
there is no exact selector. -/
theorem renderParts_options_belowTenTo23 :
    exactValue? "=100000000000000000000000" = some (10 ^ 23) ∧
    Value.quotient? belowTenTo23 = some (99999999999999991611392, 1) ∧
    renderParts [("n", .number belowTenTo23)] (some "en") none
      [.plural "n" "" [("other", [.pound])] 0 false] = .ok "99999999999999991611392" ∧
    renderParts [("n", .number belowTenTo23)] (some "en") none
      [.plural "n" "" [("=100000000000000000000000", [.literal "y"]), ("other", [.pound])] 0
        false] = .ok "y" ∧
    renderParts [("n", .number (.int (10 ^ 4300)))] none none
      [.plural "n" "" [("other", [.literal "x"])] 0 false] = .ok "x" ∧
    renderParts [("n", .number (.int (10 ^ 4300)))] none none
      [.plural "n" "" [("=0", [.literal "y"]), ("other", [.literal "x"])] 0 false] =
        .error (.fault .tooManyDigits) := by
  refine ⟨?_, by decide +kernel, by decide +kernel, by decide +kernel, by decide +kernel,
    by decide +kernel⟩
  have read : exactNumber? "=100000000000000000000000" = some (.finite false (10 ^ 23) 0) := by
    decide +kernel
  rw [exactValue?, read, Option.bind_some, Decimal.value?, Number.valueOf_false]
  norm_num

end Phrasebook.Message

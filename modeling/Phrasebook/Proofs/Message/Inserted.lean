import Phrasebook.Plural.Locale
import Phrasebook.Proofs.Dictionary
import Phrasebook.Proofs.Message.Demand
import Phrasebook.Proofs.Message.Plain

set_option autoImplicit false

/-!
What an inserted text can do. A text that is bound to a name on which no choice depends is put, as
it is, between segments that it has no part in: it is never read, and it changes neither whether
formatting fails nor which warning is given.
-/
namespace Phrasebook.Message

open Outcome (ok_bind error_bind)

/-! ### Names on which choices depend -/

mutual

/-- The names whose values choose an option, at any depth. -/
def Part.choosers : Part → List String
  | .literal _ | .pound | .argument _ _ => []
  | .plural name _ options _ _ => name :: optionChoosers options
  | .select name _ options => name :: optionChoosers options

def Pattern.choosers : List Part → List String
  | [] => []
  | part :: rest => part.choosers ++ Pattern.choosers rest

def optionChoosers : List (String × List Part) → List String
  | [] => []
  | (_, body) :: rest => Pattern.choosers body ++ optionChoosers rest

end

/-! ### Segments -/

/-- Segments one after another: the last of the first ones goes on with the first of the others. -/
def joinSegments : List String → List String → List String
  | [], later => later
  | [last], [] => [last]
  | [last], first :: later => (last ++ first) :: later
  | segment :: next :: front, later => segment :: joinSegments (next :: front) later

theorem joinSegments_ne_nil (front : List String) {later : List String} (given : later ≠ []) :
    joinSegments front later ≠ [] := by
  fun_cases joinSegments front later with
  | case1 => exact given
  | case2 => exact absurd rfl given
  | case3 => exact List.cons_ne_nil _ _
  | case4 => exact List.cons_ne_nil _ _

theorem intercalate_joinSegments (text : String) {front later : List String} (some : front ≠ [])
    (given : later ≠ []) :
    text.intercalate (joinSegments front later) =
      text.intercalate front ++ text.intercalate later := by
  fun_induction joinSegments front later with
  | case1 => exact absurd rfl some
  | case2 => exact absurd rfl given
  | case3 last first later =>
    cases later with
    | nil => simp only [String.intercalate_singleton]
    | cons next later =>
      simp only [String.intercalate_cons_cons, String.intercalate_singleton, String.append_assoc]
  | case4 segment next front later ih =>
    rw [String.intercalate_cons_of_ne_nil (joinSegments_ne_nil _ given),
      String.intercalate_cons_cons, ih (List.cons_ne_nil _ _) given]
    simp only [String.append_assoc]

/-! ### Rendering with an inserted text -/

/-- A text is bound to a name, and every other name has the value that it has among others. -/
structure Binds (others : Values) (name text : String) (values : Values) : Prop where
  own : values.get? name = some (.text text)
  other : ∀ key, key ≠ name → values.get? key = others.get? key

theorem binds_set (others : Values) (name text : String) :
    Binds others name text (others.set name (.text text)) :=
  ⟨Dictionary.get?_set_self _ _ _, fun _ different => Dictionary.get?_set_ne _ _ different⟩

/-- A rendering that fails alike for every inserted text, or shows it between fixed segments. -/
inductive IsFixed (others : Values) (name : String)
    (render : Values → Except RenderFailure String) : Prop where
  | failure (failure : RenderFailure)
      (fails : ∀ text values, Binds others name text values → render values = .error failure)
  | segments (segments : List String) (some : segments ≠ [])
      (shows : ∀ text values, Binds others name text values →
        render values = .ok (text.intercalate segments))

section Fixed

variable {others : Values} {name : String}
  {render first next : Values → Except RenderFailure String}

theorem IsFixed.congr (fixed : IsFixed others name next)
    (same : ∀ text values, Binds others name text values → render values = next values) :
    IsFixed others name render := by
  cases fixed with
  | failure failure fails =>
    exact .failure failure fun text values binds => (same text values binds).trans
      (fails text values binds)
  | segments segments some shows =>
    exact .segments segments some fun text values binds => (same text values binds).trans
      (shows text values binds)

/-- A rendering in which the inserted text has no part. -/
theorem IsFixed.constant (outcome : Except RenderFailure String) :
    IsFixed others name fun _ => outcome := by
  cases outcome with
  | error failure => exact .failure failure fun _ _ _ => rfl
  | ok shown =>
    refine .segments [shown] (List.cons_ne_nil _ _) fun text _ _ => ?_
    rw [String.intercalate_singleton]

/-- A computation that no inserted text has a part in, and what follows it. -/
theorem IsFixed.after {α : Type} (outcome : Except RenderFailure α)
    {later : α → Values → Except RenderFailure String}
    (fixed : ∀ result, IsFixed others name (later result)) :
    IsFixed others name fun values => outcome >>= fun result => later result values := by
  cases outcome with
  | error failure => exact .failure failure fun _ _ _ => rfl
  | ok result => exact fixed result

/-- A choice by some other name is what its value makes of it, or its source. -/
theorem IsFixed.choice {key source : String}
    {later : Value → Values → Except RenderFailure String} (apart : name ≠ key)
    (fixed : ∀ value, IsFixed others name (later value)) :
    IsFixed others name fun values =>
      match values.get? key with
      | none => .ok source
      | some value => later value values := by
  refine IsFixed.congr ?_ fun text values binds => by rw [binds.other key (Ne.symm apart)]
  cases others.get? key with
  | none => exact .constant (.ok source)
  | some value => exact fixed value

theorem IsFixed.append (before : IsFixed others name first) (after : IsFixed others name next) :
    IsFixed others name fun values => do
      let text ← first values
      return text ++ (← next values) := by
  cases before with
  | failure failure fails =>
    refine .failure failure fun text values binds => ?_
    rw [fails text values binds, error_bind]
  | segments front some shows =>
    cases after with
    | failure failure fails =>
      refine .failure failure fun text values binds => ?_
      rw [shows text values binds, ok_bind, fails text values binds, error_bind]
    | segments later given follows =>
      refine .segments (joinSegments front later) (joinSegments_ne_nil _ given) ?_
      intro text values binds
      rw [shows text values binds, ok_bind, follows text values binds, ok_bind,
        intercalate_joinSegments text some given]
      rfl

end Fixed

section Rendering

variable [Plural.Rules] {others : Values} {name : String} {locale : Option String}

mutual

theorem renderPart_isFixed (pound : Option Number) (part : Part) (free : name ∉ part.choosers) :
    IsFixed others name fun values => renderPart values locale pound part := by
  match part with
  | .literal text => exact .constant (.ok text)
  | .pound =>
    exact (IsFixed.constant (renderPart others locale pound .pound)).congr fun _ _ _ => rfl
  | .argument key source =>
    by_cases own : key = name
    · refine .segments ["", ""] (List.cons_ne_nil _ _) fun text values binds => ?_
      rw [renderPart, own, binds.own]
      simp [Value.written, Value.shown]
    · refine (IsFixed.constant (renderPart others locale pound (.argument key source))).congr ?_
      intro text values binds
      rw [renderPart, renderPart, binds.other key own]
  | .select key source options =>
    rw [Part.choosers, List.mem_cons, not_or] at free
    simp only [renderPart]
    refine .choice free.1 fun value => .after (orFault value.written) fun shown => ?_
    cases selectPlace (options.map (·.1)) shown with
    | none => exact .constant (.ok "")
    | some index => exact renderOption_isFixed pound index options free.2
  | .plural key source options offset ordinal =>
    rw [Part.choosers, List.mem_cons, not_or] at free
    simp only [renderPart]
    refine .choice free.1 fun value => .after (numberOf key value) fun number =>
      .after _ fun choice => ?_
    obtain ⟨_ | index, shown⟩ := choice
    · exact .constant (.ok "")
    · exact renderOption_isFixed (some shown) index options free.2

theorem renderParts_isFixed (pound : Option Number) (pattern : List Part)
    (free : name ∉ Pattern.choosers pattern) :
    IsFixed others name fun values => renderParts values locale pound pattern := by
  match pattern with
  | [] => exact .constant (.ok "")
  | part :: rest =>
    rw [Pattern.choosers, List.mem_append, not_or] at free
    refine (renderPart_isFixed pound part free.1).append (renderParts_isFixed pound rest free.2)
      |>.congr fun _ values _ => ?_
    rw [renderParts]

theorem renderOption_isFixed (pound : Option Number) (index : Nat)
    (options : List (String × List Part)) (free : name ∉ optionChoosers options) :
    IsFixed others name fun values => renderOption values locale pound index options := by
  match options, index with
  | [], _ => exact (IsFixed.constant (.ok "")).congr fun _ _ _ => by simp [renderOption]
  | (_, body) :: _, 0 =>
    rw [optionChoosers, List.mem_append, not_or] at free
    exact renderParts_isFixed pound body free.1
  | (_, _) :: rest, index + 1 =>
    rw [optionChoosers, List.mem_append, not_or] at free
    exact renderOption_isFixed pound index rest free.2

end

end Rendering

/-- For a name on which no choice of a text depends, formatting fails alike for every text bound to
the name, or it shows that text between fixed segments and gives a fixed warning. -/
theorem format_inserted [Plural.Rules] (text : String) (locale : Option String) (others : Values)
    (name : String) (free : ∀ pattern, parse text = .ok pattern → name ∉ Pattern.choosers pattern) :
    (∃ escape, ∀ inserted values, Binds others name inserted values →
      format text values locale = .error escape) ∨
      ∃ segments warning, segments ≠ [] ∧ ∀ inserted values, Binds others name inserted values →
        format text values locale = .ok ⟨inserted.intercalate segments, warning⟩ := by
  have verbatim (warning : Warning) (shown : ∀ inserted values, Binds others name inserted values →
      format text values locale = .ok ⟨text, some warning⟩) :
      ∃ segments warning, segments ≠ [] ∧ ∀ inserted values, Binds others name inserted values →
        format text values locale = .ok ⟨inserted.intercalate segments, warning⟩ := by
    refine ⟨[text], some warning, List.cons_ne_nil _ _, fun inserted values binds => ?_⟩
    rw [String.intercalate_singleton, shown inserted values binds]
  cases read : parse text with
  | error error =>
    by_cases reported : error.isReported = true
    · refine .inr (verbatim (.unreadable error) fun inserted values _ => ?_)
      rw [format_eq, read]
      dsimp only
      rw [if_pos reported]
    · refine .inl ⟨.offsetNotDecimal, fun inserted values _ => ?_⟩
      rw [format_eq, read]
      dsimp only
      rw [if_neg reported]
  | ok pattern =>
    have formatted (values : Values) :
        format text values locale = formatPattern text pattern values locale := by
      rw [format_eq, read]
    have fixed : IsFixed others name fun values => renderParts values locale none pattern :=
      renderParts_isFixed none pattern (free pattern read)
    cases fixed with
    | segments segments some shows =>
      refine .inr ⟨segments, none, some, fun inserted values binds => ?_⟩
      rw [formatted, formatPattern, shows inserted values binds]
    | failure failure fails =>
      cases failure with
      | fault fault =>
        refine .inl ⟨.fault fault, fun inserted values binds => ?_⟩
        rw [formatted, formatPattern, fails inserted values binds]
      | notANumber key value =>
        refine .inr (verbatim (.notANumber key value) fun inserted values binds => ?_)
        rw [formatted, formatPattern, fails inserted values binds]

/-- A name inside a choice on a number and next to it. -/
def belongings : String :=
  "\x7bwho\x7d has \x7bn, plural, one \x7b'\x7b'#'\x7d'\x7d other \x7b# items of " ++
    "\x7bwho, name\x7d\x7d\x7d"

theorem format_inserted_belongings :
    (∀ pattern, parse belongings = .ok pattern → "who" ∉ Pattern.choosers pattern) ∧
      (∃ segments warning, segments ≠ [] ∧
        ∀ inserted values, Binds [("n", .number (.int 2))] "who" inserted values →
          format belongings values (some "en") = .ok ⟨inserted.intercalate segments, warning⟩) ∧
      format belongings [("n", .number (.int 2)), ("who", .text "\x7bn\x7d'#")] (some "en") =
        .ok ⟨"\x7bn\x7d'# has 2 items of \x7bn\x7d'#", none⟩ := by
  have names : (parse belongings).toOption.map Pattern.choosers = some ["n"] := by
    decide +kernel
  have free : ∀ pattern, parse belongings = .ok pattern → "who" ∉ Pattern.choosers pattern := by
    intro pattern read
    rw [read] at names
    have own : Pattern.choosers pattern = ["n"] := Option.some.inj names
    rw [own]
    decide
  have shown : format belongings [("n", .number (.int 2)), ("who", .text "\x7bn\x7d'#")]
      (some "en") = .ok ⟨"\x7bn\x7d'# has 2 items of \x7bn\x7d'#", none⟩ := by
    decide +kernel
  refine ⟨free, ?_, shown⟩
  rcases format_inserted belongings (some "en") [("n", .number (.int 2))] "who" free with
    ⟨escape, fails⟩ | fixed
  · have binds := binds_set [("n", .number (.int 2))] "who" "\x7bn\x7d'#"
    cases shown.symm.trans (fails _ _ binds)
  · exact fixed

end Phrasebook.Message

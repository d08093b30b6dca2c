import Phrasebook.Message.Format
import Phrasebook.Proofs.Outcome

set_option autoImplicit false

/-!
How rendering fails. Rendering needs the texts of values and of numbers, and the decisions of plural
choices, and it needs only those of the parts it comes to. It fails exactly if one of these cannot
be had.
-/
namespace Phrasebook.Message

open Number (Fault)
open Outcome (ok_bind error_bind)

/-- What rendering needs and may not get. -/
inductive Demand where
  | text (value : Value)
  | pound (number : Number)
  | choice (name : String) (value : Value) (selectors : List String) (offset : Nat)
      (ordinal : Bool)

/-- A demand is not met, for a reason. -/
inductive Demand.Fails [Plural.Rules] (locale : Option String) : Demand → RenderFailure → Prop where
  | text {value : Value} {fault : Fault} (unwritten : value.written = .error fault) :
    Demand.Fails locale (.text value) (.fault fault)
  | pound {number : Number} {fault : Fault} (unwritten : number.plainWritten = .error fault) :
    Demand.Fails locale (.pound number) (.fault fault)
  | uncounted {name : String} {value : Value} {selectors : List String} {offset : Nat}
      {ordinal : Bool} {failure : RenderFailure}
      (uncounted : numberOf name value = .error failure) :
    Demand.Fails locale (.choice name value selectors offset ordinal) failure
  | choice {name : String} {value : Value} {number : Number} {selectors : List String}
      {offset : Nat} {ordinal : Bool} {fault : Fault} (counted : numberOf name value = .ok number)
      (undecided : pluralChoice selectors number offset locale ordinal = .error fault) :
    Demand.Fails locale (.choice name value selectors offset ordinal) (.fault fault)

section Asking

variable [Plural.Rules] (values : Values) (locale : Option String)

/-- Rendering a pattern comes to a demand: that of its first part, one inside the option that this
part takes, or one further on if the first part is rendered. -/
inductive Asks : Option Number → Pattern → Demand → Prop where
  | pound {number : Number} {rest : Pattern} : Asks (some number) (.pound :: rest) (.pound number)
  | argument {pound : Option Number} {name source : String} {value : Value} {rest : Pattern}
      (given : values.get? name = some value) :
    Asks pound (.argument name source :: rest) (.text value)
  | select {pound : Option Number} {name source : String} {value : Value}
      {options : List (String × Pattern)} {rest : Pattern} (given : values.get? name = some value) :
    Asks pound (.select name source options :: rest) (.text value)
  | selected {pound : Option Number} {name source shown selector : String} {value : Value}
      {options : List (String × Pattern)} {body rest : Pattern} {index : Nat} {demand : Demand}
      (given : values.get? name = some value) (written : value.written = .ok shown)
      (taken : selectPlace (options.map (·.1)) shown = some index)
      (option : options[index]? = some (selector, body)) (inner : Asks pound body demand) :
    Asks pound (.select name source options :: rest) demand
  | choice {pound : Option Number} {name source : String} {value : Value}
      {options : List (String × Pattern)} {offset : Nat} {ordinal : Bool} {rest : Pattern}
      (given : values.get? name = some value) :
    Asks pound (.plural name source options offset ordinal :: rest)
      (.choice name value (options.map (·.1)) offset ordinal)
  | chosen {pound : Option Number} {name source selector : String} {value : Value}
      {options : List (String × Pattern)} {offset : Nat} {ordinal : Bool} {body rest : Pattern}
      {number shown : Number} {index : Nat} {demand : Demand}
      (given : values.get? name = some value) (counted : numberOf name value = .ok number)
      (taken : pluralChoice (options.map (·.1)) number offset locale ordinal =
        .ok (some index, shown))
      (option : options[index]? = some (selector, body)) (inner : Asks (some shown) body demand) :
    Asks pound (.plural name source options offset ordinal :: rest) demand
  | later {pound : Option Number} {part : Part} {rest : Pattern} {text : String} {demand : Demand}
      (shown : renderPart values locale pound part = .ok text) (inner : Asks pound rest demand) :
    Asks pound (part :: rest) demand

end Asking

@[simp] theorem orFault_ok {α : Type} (value : α) : orFault (.ok value) = .ok value := rfl

@[simp] theorem orFault_error {α : Type} (fault : Fault) :
    orFault (α := α) (.error fault) = .error (.fault fault) := rfl

section Rendering

variable [Plural.Rules] {values : Values} {locale : Option String}

theorem renderOption_eq (pound : Option Number) (index : Nat) (options : List (String × Pattern)) :
    renderOption values locale pound index options =
      match options[index]? with
      | some (_, body) => renderParts values locale pound body
      | none => .ok "" := by
  induction options generalizing index with
  | nil => simp [renderOption]
  | cons option rest ih =>
    cases index with
    | zero => simp [renderOption]
    | succ index => rw [renderOption, ih, List.getElem?_cons_succ]

theorem renderParts_error_of_head {pound : Option Number} {part : Part} {rest : Pattern}
    {failure : RenderFailure} (failed : renderPart values locale pound part = .error failure) :
    renderParts values locale pound (part :: rest) = .error failure := by
  rw [renderParts, failed, error_bind]

/-- A demand that rendering comes to and that is not met makes it fail. -/
theorem renderParts_of_asks {pound : Option Number} {pattern : Pattern} {demand : Demand}
    {failure : RenderFailure} (asked : Asks values locale pound pattern demand)
    (fails : demand.Fails locale failure) :
    renderParts values locale pound pattern = .error failure := by
  induction asked with
  | pound =>
    cases fails with
    | pound unwritten => exact renderParts_error_of_head (by simp [renderPart, unwritten])
  | argument given =>
    cases fails with
    | text unwritten => exact renderParts_error_of_head (by simp [renderPart, given, unwritten])
  | select given =>
    cases fails with
    | text unwritten => exact renderParts_error_of_head (by simp [renderPart, given, unwritten])
  | selected given written taken option inner ih =>
    apply renderParts_error_of_head
    simp [renderPart, given, written, taken, renderOption_eq, option, ih fails]
  | choice given =>
    apply renderParts_error_of_head
    cases fails with
    | uncounted uncounted => simp [renderPart, given, uncounted]
    | choice counted undecided => simp [renderPart, given, counted, undecided]
  | chosen given counted taken option inner ih =>
    apply renderParts_error_of_head
    simp [renderPart, given, counted, taken, renderOption_eq, option, ih fails]
  | later shown inner ih =>
    rw [renderParts, shown, ok_bind, ih fails, error_bind]

mutual

/-- A part that is not rendered comes to a demand that is not met. -/
theorem asks_of_renderPart {pound : Option Number} {failure : RenderFailure} (part : Part)
    (rest : Pattern) (failed : renderPart values locale pound part = .error failure) :
    ∃ demand, Asks values locale pound (part :: rest) demand ∧ demand.Fails locale failure := by
  match part with
  | .literal text => simp [renderPart] at failed
  | .pound =>
    cases pound with
    | none => simp [renderPart] at failed
    | some number =>
      cases written : number.plainWritten with
      | ok text => simp [renderPart, written] at failed
      | error fault =>
        obtain rfl : .fault fault = failure := by simpa [renderPart, written] using failed
        exact ⟨.pound number, .pound, .pound written⟩
  | .argument name source =>
    cases given : values.get? name with
    | none => simp [renderPart, given] at failed
    | some value =>
      cases written : value.written with
      | ok text => simp [renderPart, given, written] at failed
      | error fault =>
        obtain rfl : .fault fault = failure := by simpa [renderPart, given, written] using failed
        exact ⟨.text value, .argument given, .text written⟩
  | .select name source options =>
    cases given : values.get? name with
    | none => simp [renderPart, given] at failed
    | some value =>
      cases written : value.written with
      | error fault =>
        obtain rfl : .fault fault = failure := by simpa [renderPart, given, written] using failed
        exact ⟨.text value, .select given, .text written⟩
      | ok shown =>
        cases taken : selectPlace (options.map (·.1)) shown with
        | none => simp [renderPart, given, written, taken] at failed
        | some index =>
          obtain ⟨selector, body, demand, option, asked, fails⟩ :=
            asks_of_renderOption options index
              (by simpa [renderPart, given, written, taken] using failed)
          exact ⟨demand, .selected given written taken option asked, fails⟩
  | .plural name source options offset ordinal =>
    cases given : values.get? name with
    | none => simp [renderPart, given] at failed
    | some value =>
      cases counted : numberOf name value with
      | error reason =>
        obtain rfl : reason = failure := by simpa [renderPart, given, counted] using failed
        exact ⟨_, .choice given, .uncounted counted⟩
      | ok number =>
        cases taken : pluralChoice (options.map (·.1)) number offset locale ordinal with
        | error fault =>
          obtain rfl : .fault fault = failure := by
            simpa [renderPart, given, counted, taken] using failed
          exact ⟨_, .choice given, .choice counted taken⟩
        | ok choice =>
          obtain ⟨_ | index, shown⟩ := choice
          · simp [renderPart, given, counted, taken] at failed
          · obtain ⟨selector, body, demand, option, asked, fails⟩ :=
              asks_of_renderOption options index
                (by simpa [renderPart, given, counted, taken] using failed)
            exact ⟨demand, .chosen given counted taken option asked, fails⟩

theorem asks_of_renderParts {pound : Option Number} {failure : RenderFailure}
    (pattern : List Part) (failed : renderParts values locale pound pattern = .error failure) :
    ∃ demand, Asks values locale pound pattern demand ∧ demand.Fails locale failure := by
  match pattern with
  | [] => cases failed
  | part :: rest =>
    rw [renderParts] at failed
    cases head : renderPart values locale pound part with
    | error reason =>
      rw [head, error_bind] at failed
      cases failed
      exact asks_of_renderPart part rest head
    | ok text =>
      rw [head, ok_bind] at failed
      cases tail : renderParts values locale pound rest with
      | error reason =>
        rw [tail, error_bind] at failed
        cases failed
        obtain ⟨demand, asked, fails⟩ := asks_of_renderParts rest tail
        exact ⟨demand, .later head asked, fails⟩
      | ok more =>
        rw [tail] at failed
        cases failed

theorem asks_of_renderOption {pound : Option Number} {failure : RenderFailure}
    (options : List (String × List Part)) (index : Nat)
    (failed : renderOption values locale pound index options = .error failure) :
    ∃ selector body demand, options[index]? = some (selector, body) ∧
      Asks values locale pound body demand ∧ demand.Fails locale failure := by
  match options, index with
  | [], _ => simp [renderOption] at failed
  | (selector, body) :: _, 0 =>
    obtain ⟨demand, asked, fails⟩ := asks_of_renderParts body (by simpa [renderOption] using failed)
    exact ⟨selector, body, demand, rfl, asked, fails⟩
  | (_, _) :: rest, index + 1 =>
    exact asks_of_renderOption rest index (by simpa [renderOption] using failed)

end

/-- Rendering fails exactly if it comes to a demand that is not met, and for the same reason. -/
theorem renderParts_error_iff {pound : Option Number} {pattern : Pattern}
    {failure : RenderFailure} :
    renderParts values locale pound pattern = .error failure ↔
      ∃ demand, Asks values locale pound pattern demand ∧ demand.Fails locale failure :=
  ⟨asks_of_renderParts pattern, fun ⟨_, asked, fails⟩ => renderParts_of_asks asked fails⟩

end Rendering

end Phrasebook.Message

import Mathlib.Data.List.Forall2

set_option autoImplicit false

/-!
Computations that may fail, one after another.
-/
namespace Phrasebook.Outcome

variable {ε α β : Type}

@[simp] theorem ok_bind (value : α) (next : α → Except ε β) :
    (Except.ok value >>= next) = next value := rfl

@[simp] theorem error_bind (reason : ε) (next : α → Except ε β) :
    (Except.error reason >>= next) = .error reason := rfl

theorem bind_ok (first : Except ε α) : (first >>= fun value => .ok value) = first := by
  cases first with
  | ok value => rfl
  | error reason => rfl

theorem bind_eq_ok {first : Except ε α} {next : α → Except ε β} {result : β} :
    (first >>= next) = .ok result ↔ ∃ value, first = .ok value ∧ next value = .ok result := by
  cases first with
  | ok value => simp
  | error reason => simp

theorem bind_eq_error {first : Except ε α} {next : α → Except ε β} {reason : ε} :
    (first >>= next) = .error reason ↔
      first = .error reason ∨ ∃ value, first = .ok value ∧ next value = .error reason := by
  cases first with
  | ok value => simp
  | error reason => simp

theorem mapError_eq_ok {δ : Type} {change : ε → δ} {result : Except ε α} {value : α} :
    result.mapError change = .ok value ↔ result = .ok value := by
  cases result with
  | ok own =>
    constructor
    · exact fun same => congrArg _ (Except.ok.inj same)
    · exact fun same => congrArg _ (Except.ok.inj same)
  | error reason => exact ⟨nofun, nofun⟩

theorem toOption_eq_some {result : Except ε α} {value : α} :
    result.toOption = some value ↔ result = .ok value := by
  cases result with
  | ok own => exact ⟨fun same => congrArg _ (Option.some.inj same), fun same => by rw [same]; rfl⟩
  | error reason => exact ⟨nofun, nofun⟩

/-- Going through a list fails with the first of its items that fails. -/
theorem mapM_eq_error {step : α → Except ε β} {items : List α} {reason : ε} :
    items.mapM step = .error reason ↔ ∃ before item after, items = before ++ item :: after ∧
      (∀ earlier ∈ before, ∃ value, step earlier = .ok value) ∧ step item = .error reason := by
  induction items with
  | nil => simp [pure, Except.pure]
  | cons first items ih =>
    simp only [List.mapM_cons, bind_eq_error, ih]
    constructor
    · rintro (here | ⟨value, passed, ⟨before, item, after, rfl, earlier, failed⟩ | ⟨_, _, done⟩⟩)
      · exact ⟨[], first, items, rfl, by simp, here⟩
      · exact ⟨first :: before, item, after, rfl,
          List.forall_mem_cons.mpr ⟨⟨value, passed⟩, earlier⟩, failed⟩
      · cases done
    · rintro ⟨before, item, after, cut, earlier, failed⟩
      cases before with
      | nil =>
        obtain ⟨rfl, rfl⟩ := List.cons.inj cut
        exact .inl failed
      | cons other before =>
        obtain ⟨rfl, rfl⟩ := List.cons.inj cut
        obtain ⟨⟨value, passed⟩, earlier⟩ := List.forall_mem_cons.mp earlier
        exact .inr ⟨value, passed, .inl ⟨before, item, after, rfl, earlier, failed⟩⟩

/-- What follows a computation matters only for the values that it can give. -/
theorem bind_congr_ok {first : Except ε α} {next other : α → Except ε β}
    (same : ∀ value, first = .ok value → next value = other value) :
    (first >>= next) = (first >>= other) := by
  cases first with
  | ok value => exact same value rfl
  | error reason => rfl

/-- Taking each of a list apart gives the list of their parts. -/
theorem mapM_eq_some_iff {part? : α → Option β} {IsPart : α → β → Prop} {whole : List α}
    {parts : List β}
    (exact : ∀ one ∈ whole, ∀ part ∈ parts, part? one = some part ↔ IsPart one part) :
    whole.mapM part? = some parts ↔ List.Forall₂ IsPart whole parts := by
  induction whole generalizing parts with
  | nil => simp [eq_comm]
  | cons one whole ih =>
    cases parts with
    | nil => simp [List.mapM_cons, Option.bind_eq_some_iff]
    | cons part parts =>
      have first := exact one List.mem_cons_self part List.mem_cons_self
      have others := @ih parts fun other own later member =>
        exact other (List.mem_cons_of_mem _ own) later (List.mem_cons_of_mem _ member)
      simp [List.mapM_cons, Option.bind_eq_some_iff, first, others]

end Phrasebook.Outcome

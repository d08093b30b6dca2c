import Phrasebook.Proofs.Locale.Fresh

set_option autoImplicit false

/-!
Subscribers that neither fail nor use the store. Among them an operation does what it is to do and
nothing else: what it leaves of the store and what it tells can be said without running a reaction,
and so can what a run leaves and tells.
-/
namespace Phrasebook.Locale

open Filter (atTop)

variable {World : Type}

/-- Neither fails nor uses the store. -/
inductive Reaction.IsQuiet : Reaction World → Prop where
  | finish : IsQuiet .finish
  | look {next : World → State → Reaction World}
      (later : ∀ world state, IsQuiet (next world state)) : IsQuiet (.look next)
  | write {world : World} {next : Reaction World} (later : IsQuiet next) :
    IsQuiet (.write world next)

/-! ### What operations do among quiet subscribers -/

/-- What a subscriber is told about a state that is active. -/
def State.toldTo (state : State) (token : Nat) : Delivery := ⟨token, state.locale, state⟩

namespace Store

/-- The store after an operation. -/
def after (store : Store World) (operation : Operation World) : Store World :=
  match operation with
  | .subscribe subscriber =>
    ⟨store.state, store.subscribers ++ [subscriber], store.defaultLocale⟩
  | .unsubscribe token =>
    ⟨store.state, removeFirst token store.subscribers, store.defaultLocale⟩
  | operation =>
    ⟨(operation.activated? store.defaultLocale).getD store.state, store.subscribers,
      store.defaultLocale⟩

/-- What an operation tells. -/
def tells (store : Store World) (operation : Operation World) : List Delivery :=
  match operation with
  | .subscribe subscriber => [store.state.toldTo subscriber.token]
  | operation =>
    match operation.activated? store.defaultLocale with
    | some state => store.subscribers.map fun subscriber => state.toldTo subscriber.token
    | none => []

/-- The store after operations. -/
def afterAll (store : Store World) (operations : List (Operation World)) : Store World :=
  operations.foldl after store

/-- What operations tell. -/
def tellsAll (store : Store World) : List (Operation World) → List Delivery
  | [] => []
  | operation :: rest => store.tells operation ++ (store.after operation).tellsAll rest

@[simp] theorem after_defaultLocale (store : Store World) (operation : Operation World) :
    (store.after operation).defaultLocale = store.defaultLocale := by
  cases operation <;> rfl

@[simp] theorem afterAll_defaultLocale (store : Store World) (operations : List (Operation World)) :
    (store.afterAll operations).defaultLocale = store.defaultLocale := by
  induction operations generalizing store with
  | nil => rfl
  | cons operation rest ih =>
    rw [afterAll, List.foldl_cons]
    exact (ih _).trans (store.after_defaultLocale operation)

end Store

/-- An operation that is to activate a locale, but an empty one. -/
def Operation.isRefused (defaultLocale : String) : Operation World → Bool
  | activate locale _ => locale.isEmpty
  | reset => defaultLocale.isEmpty
  | _ => false

/-- How an operation ends among quiet subscribers. -/
def Operation.result (defaultLocale : String) (operation : Operation World) :
    Except Failure Unit :=
  if operation.isRefused defaultLocale then .error .emptyLocale else .ok ()

namespace Session

theorem react_quiet {reaction : Reaction World} (quiet : reaction.IsQuiet)
    (session : Session World) :
    ∃ world, ∀ᶠ steps in atTop, react steps session reaction =
      (session.withWorld world, .ok ()) := by
  induction quiet generalizing session with
  | finish => exact ⟨session.world, eventually_of_succ (.of_forall fun _ => rfl)⟩
  | look _ ih =>
    obtain ⟨world, done⟩ := ih session.world session.store.state session
    exact ⟨world, eventually_of_succ done⟩
  | @write world _ _ ih =>
    obtain ⟨later, done⟩ := ih (session.withWorld world)
    exact ⟨later, eventually_of_succ done⟩

/-- Quiet subscribers are told the active locale one after another. -/
theorem tellAll_quiet {subscribers : List (Subscriber World)}
    (quiet : ∀ subscriber ∈ subscribers, subscriber.Reacts Reaction.IsQuiet)
    (session : Session World) :
    ∃ world, ∀ᶠ steps in atTop,
      tellAll (react steps) session.store.state.locale session subscribers =
        (⟨session.store, world, session.deliveries ++ subscribers.map fun subscriber =>
          session.store.state.toldTo subscriber.token⟩, .ok ()) := by
  induction subscribers generalizing session with
  | nil =>
    refine ⟨session.world, .of_forall fun steps => ?_⟩
    rw [tellAll, List.map_nil, List.append_nil]
  | cons subscriber rest ih =>
    obtain ⟨own, others⟩ := List.forall_mem_cons.mp quiet
    obtain ⟨world, done⟩ := react_quiet (own session.store.state.locale)
      (session.withDelivery (session.store.state.toldTo subscriber.token))
    obtain ⟨later, done'⟩ := ih others
      ((session.withDelivery (session.store.state.toldTo subscriber.token)).withWorld world)
    refine ⟨later, ?_⟩
    filter_upwards [done, done'] with steps ended ended'
    have first : tell (react steps) session.store.state.locale session subscriber = _ := ended
    rw [tellAll, first]
    simpa [List.append_assoc] using ended'

theorem perform_refused {session : Session World} {operation : Operation World}
    (steps : Nat) (refused : operation.isRefused session.store.defaultLocale = true) :
    session.perform steps operation = (session, .error .emptyLocale) := by
  cases operation with
  | subscribe subscriber => cases refused
  | unsubscribe token => cases refused
  | activate locale messages =>
    rw [perform, activate, activateBy_empty messages refused]
    rfl
  | reset =>
    rw [perform_reset, perform, activate, activateBy_empty [] refused]
    rfl

theorem activate_quiet {session : Session World} (all : session.AllReact Reaction.IsQuiet)
    (locale : String) (messages : Translations) :
    ∃ world, ∀ᶠ steps in atTop, session.perform steps (.activate locale messages) =
      (⟨session.store.after (.activate locale messages), world,
        session.deliveries ++ session.store.tells (.activate locale messages)⟩,
        Operation.result session.store.defaultLocale
          (.activate locale messages : Operation World)) := by
  cases empty : locale.isEmpty with
  | true =>
    refine ⟨session.world, .of_forall fun steps => ?_⟩
    rw [perform, activate, activateBy_empty messages empty]
    simp [Store.after, Store.tells, Operation.result, Operation.isRefused, Operation.activated?,
      empty, Except.map]
  | false =>
    obtain ⟨world, done⟩ := tellAll_quiet all (session.withState ⟨locale, messages⟩)
    refine ⟨world, ?_⟩
    filter_upwards [done] with steps ended
    have told : tellAll (react steps) locale (session.withState ⟨locale, messages⟩)
        session.store.subscribers = _ := ended
    rw [perform, activate, activateBy_eq empty, told]
    simp [Store.after, Store.tells, Operation.result, Operation.isRefused, Operation.activated?,
      empty, Except.map, withState]

/-- An operation does what it is to do, whatever the world becomes. -/
theorem perform_quiet {session : Session World} {operation : Operation World}
    (all : session.AllReact Reaction.IsQuiet) (reacts : operation.Reacts Reaction.IsQuiet) :
    ∃ world, ∀ᶠ steps in atTop, session.perform steps operation =
      (⟨session.store.after operation, world, session.deliveries ++ session.store.tells operation⟩,
        operation.result session.store.defaultLocale) := by
  cases operation with
  | subscribe subscriber => exact react_quiet (reacts _ rfl _) _
  | unsubscribe token =>
    refine ⟨session.world, .of_forall fun steps => ?_⟩
    simp [perform, Session.unsubscribe, withSubscribers, Store.after, Store.tells,
      Operation.result, Operation.isRefused, Operation.activated?]
  | activate locale messages => exact activate_quiet all locale messages
  | reset => exact activate_quiet all session.store.defaultLocale []

theorem after_quiet {session : Session World} {operation : Operation World}
    (all : session.AllReact Reaction.IsQuiet) (reacts : operation.Reacts Reaction.IsQuiet) :
    ∀ subscriber ∈ (session.store.after operation).subscribers,
      subscriber.Reacts Reaction.IsQuiet := by
  cases operation with
  | subscribe added =>
    intro subscriber member
    rcases List.mem_append.mp member with former | new
    · exact all subscriber former
    · rw [List.mem_singleton.mp new]
      exact reacts added rfl
  | unsubscribe token =>
    exact fun subscriber member => all subscriber ((removeFirst_sublist token _).subset member)
  | activate locale messages => exact all
  | reset => exact all

/-- A run does what its operations are to do, whatever the world becomes. -/
theorem performAll_quiet {operations : List (Operation World)} {start : Session World}
    (all : start.AllReact Reaction.IsQuiet)
    (reacts : ∀ operation ∈ operations, operation.Reacts Reaction.IsQuiet) :
    ∃ after : Session World, after.AllReact Reaction.IsQuiet ∧
      after.store = start.store.afterAll operations ∧
      after.deliveries = start.deliveries ++ start.store.tellsAll operations ∧
      ∀ᶠ steps in atTop, start.performAll steps operations = after := by
  induction operations generalizing start with
  | nil =>
    exact ⟨start, all, rfl, (List.append_nil _).symm, .of_forall fun _ => rfl⟩
  | cons operation rest ih =>
    obtain ⟨own, others⟩ := List.forall_mem_cons.mp reacts
    obtain ⟨world, done⟩ := perform_quiet all own
    have kept : (Session.mk (start.store.after operation) world
        (start.deliveries ++ start.store.tells operation)).AllReact Reaction.IsQuiet :=
      after_quiet all own
    obtain ⟨after, kept', store, deliveries, done'⟩ := ih kept others
    refine ⟨after, kept', store, ?_, ?_⟩
    · rw [deliveries, List.append_assoc]
      rfl
    · filter_upwards [done, done'] with steps ended ended'
      rw [performAll, List.foldl_cons, ended]
      exact ended'

/-- With so many steps the beginning of a run does what its operations are to do, and each operation
of the run would then end as it is to end. -/
structure Settled (steps : Nat) (start : Session World)
    (operations earlier : List (Operation World)) : Prop where
  store : (start.performAll steps earlier).store = start.store.afterAll earlier
  deliveries :
    (start.performAll steps earlier).deliveries = start.deliveries ++ start.store.tellsAll earlier
  ends : ∀ operation ∈ operations, ((start.performAll steps earlier).perform steps operation).2 =
    operation.result start.store.defaultLocale

theorem performAll_settled {operations : List (Operation World)} {start : Session World}
    (all : start.AllReact Reaction.IsQuiet)
    (reacts : ∀ operation ∈ operations, operation.Reacts Reaction.IsQuiet) :
    ∀ᶠ steps in atTop, ∀ earlier, earlier <+: operations →
      Settled steps start operations earlier := by
  refine eventually_forall_initial fun earlier within => ?_
  obtain ⟨after, kept, store, deliveries, done⟩ :=
    performAll_quiet all fun operation member => reacts operation (within.subset member)
  have ends : ∀ operation ∈ operations, ∀ᶠ steps in atTop,
      (after.perform steps operation).2 = operation.result start.store.defaultLocale := by
    intro operation member
    obtain ⟨world, ended⟩ := perform_quiet kept (reacts operation member)
    filter_upwards [ended] with steps ended
    rw [ended, store, Store.afterAll_defaultLocale]
  have together := (Filter.eventually_all_finite (List.finite_toSet operations)).mpr ends
  filter_upwards [done, together] with steps ended ends
  rw [← ended] at store deliveries ends
  exact ⟨store, deliveries, ends⟩

end Session

end Phrasebook.Locale

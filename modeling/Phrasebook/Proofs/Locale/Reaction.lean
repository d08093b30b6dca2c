import Mathlib.Data.List.Infix
import Mathlib.Data.Set.Finite.Basic
import Mathlib.Order.Filter.AtTopBot.Basic
import Mathlib.Order.Filter.Finite
import Phrasebook.Locale.Store

set_option autoImplicit false

/-!
What an application does with a store, operation after operation, and what reactions leave behind.
Whoever is told something is in step: what it was last told, it was told while the state of now was
active. Reactions that activate nothing change no state and leave all others in step, however they
end; those that never fail end, given enough steps.
-/
namespace Phrasebook.Locale

open Filter (atTop)

/-- What is done with a store from outside of any reaction. -/
inductive Operation (World : Type) where
  | subscribe (subscriber : Subscriber World)
  | unsubscribe (token : Nat)
  | activate (locale : String) (messages : Translations)
  | reset

variable {World : Type}

/-- The subscriber that an operation adds. -/
def Operation.subscriber? : Operation World → Option (Subscriber World)
  | subscribe subscriber => some subscriber
  | _ => none

/-- What an operation activates, by the locale of the start; an empty locale is not activated. -/
def Operation.activated? (defaultLocale : String) : Operation World → Option State
  | activate locale messages => if locale.isEmpty then none else some ⟨locale, messages⟩
  | reset => if defaultLocale.isEmpty then none else some ⟨defaultLocale, []⟩
  | _ => none

namespace Session

/-- Does an operation. It fails if a subscriber does. -/
def perform (steps : Nat) (session : Session World) :
    Operation World → Session World × Except Failure Unit
  | .subscribe subscriber => session.subscribe steps subscriber
  | .unsubscribe token => (session.unsubscribe token, .ok ())
  | .activate locale messages =>
    let (session, result) := session.activate steps locale messages
    (session, result.map fun _ => ())
  | .reset =>
    let (session, result) := session.reset steps
    (session, result.map fun _ => ())

theorem perform_reset (steps : Nat) (session : Session World) :
    session.perform steps .reset =
      session.perform steps (.activate session.store.defaultLocale []) := rfl

/-- Does operations one after another, whether they fail or not. -/
def performAll (steps : Nat) (session : Session World) (operations : List (Operation World)) :
    Session World :=
  operations.foldl (fun session operation => (session.perform steps operation).1) session

theorem performAll_append (steps : Nat) (session : Session World)
    (operations later : List (Operation World)) :
    session.performAll steps (operations ++ later) =
      (session.performAll steps operations).performAll steps later :=
  List.foldl_append

theorem performAll_concat (steps : Nat) (session : Session World)
    (operations : List (Operation World)) (operation : Operation World) :
    session.performAll steps (operations ++ [operation]) =
      ((session.performAll steps operations).perform steps operation).1 :=
  performAll_append steps session operations [operation]

/-- What a subscriber was told, from first to last. -/
def told (session : Session World) (token : Nat) : List Delivery :=
  session.deliveries.filter fun delivery => delivery.token = token

def lastTold (session : Session World) (token : Nat) : Option Delivery :=
  (session.told token).getLast?

/-! ### Parts of a changed session -/

section Parts

variable (session : Session World)

@[simp] theorem withState_state (state : State) :
    (session.withState state).store.state = state := rfl

@[simp] theorem withState_subscribers (state : State) :
    (session.withState state).store.subscribers = session.store.subscribers := rfl

@[simp] theorem withState_deliveries (state : State) :
    (session.withState state).deliveries = session.deliveries := rfl

@[simp] theorem withSubscribers_state (subscribers : List (Subscriber World)) :
    (session.withSubscribers subscribers).store.state = session.store.state := rfl

@[simp] theorem withSubscribers_subscribers (subscribers : List (Subscriber World)) :
    (session.withSubscribers subscribers).store.subscribers = subscribers := rfl

@[simp] theorem withSubscribers_deliveries (subscribers : List (Subscriber World)) :
    (session.withSubscribers subscribers).deliveries = session.deliveries := rfl

@[simp] theorem withWorld_store (world : World) :
    (session.withWorld world).store = session.store := rfl

@[simp] theorem withWorld_deliveries (world : World) :
    (session.withWorld world).deliveries = session.deliveries := rfl

@[simp] theorem withDelivery_store (delivery : Delivery) :
    (session.withDelivery delivery).store = session.store := rfl

@[simp] theorem withDelivery_deliveries (delivery : Delivery) :
    (session.withDelivery delivery).deliveries = session.deliveries ++ [delivery] := rfl

theorem told_withDelivery (delivery : Delivery) (token : Nat) :
    (session.withDelivery delivery).told token =
      if delivery.token = token then session.told token ++ [delivery]
      else session.told token := by
  rw [told, withDelivery_deliveries, List.filter_append]
  by_cases own : delivery.token = token
  · simp [own, told]
  · simp [own, told]

theorem lastTold_self (delivery : Delivery) :
    (session.withDelivery delivery).lastTold delivery.token = some delivery := by
  rw [lastTold, told_withDelivery, if_pos rfl, List.getLast?_concat]

theorem lastTold_other {delivery : Delivery} {token : Nat} (other : delivery.token ≠ token) :
    (session.withDelivery delivery).lastTold token = session.lastTold token := by
  rw [lastTold, told_withDelivery, if_neg other, lastTold]

end Parts

end Session

theorem removeFirst_sublist (token : Nat) (subscribers : List (Subscriber World)) :
    (removeFirst token subscribers).Sublist subscribers := by
  induction subscribers with
  | nil => exact .slnil
  | cons first rest ih =>
    rw [removeFirst]
    split
    · exact List.sublist_cons_self first rest
    · exact ih.cons_cons first

/-! ### Kinds of reactions -/

/-- Activates nothing, and neither does what it subscribes. -/
inductive Reaction.IsPassive : Reaction World → Prop where
  | finish : IsPassive .finish
  | fail (failure : Failure) : IsPassive (.fail failure)
  | look {next : World → State → Reaction World}
      (later : ∀ world state, IsPassive (next world state)) : IsPassive (.look next)
  | write {world : World} {next : Reaction World} (later : IsPassive next) :
    IsPassive (.write world next)
  | subscribe {token : Nat} {react : String → Reaction World}
      {next : Except Failure Unit → Reaction World} (inner : ∀ locale, IsPassive (react locale))
      (later : ∀ result, IsPassive (next result)) : IsPassive (.subscribe token react next)
  | unsubscribe {token : Nat} {next : Reaction World} (later : IsPassive next) :
    IsPassive (.unsubscribe token next)

/-- Activates nothing and never fails, and neither does what it subscribes. -/
inductive Reaction.IsSmooth : Reaction World → Prop where
  | finish : IsSmooth .finish
  | look {next : World → State → Reaction World}
      (later : ∀ world state, IsSmooth (next world state)) : IsSmooth (.look next)
  | write {world : World} {next : Reaction World} (later : IsSmooth next) :
    IsSmooth (.write world next)
  | subscribe {token : Nat} {react : String → Reaction World}
      {next : Except Failure Unit → Reaction World} (inner : ∀ locale, IsSmooth (react locale))
      (later : ∀ result, IsSmooth (next result)) : IsSmooth (.subscribe token react next)
  | unsubscribe {token : Nat} {next : Reaction World} (later : IsSmooth next) :
    IsSmooth (.unsubscribe token next)

theorem Reaction.IsSmooth.isPassive {reaction : Reaction World} (smooth : reaction.IsSmooth) :
    reaction.IsPassive := by
  induction smooth with
  | finish => exact .finish
  | look _ later => exact .look later
  | write _ later => exact .write later
  | subscribe _ _ inner later => exact .subscribe inner later
  | unsubscribe _ later => exact .unsubscribe later

/-- All reactions of a subscriber are of a kind. -/
def Subscriber.Reacts (kind : Reaction World → Prop) (subscriber : Subscriber World) : Prop :=
  ∀ locale, kind (subscriber.react locale)

namespace Session

/-- All reactions of all subscribers are of a kind. -/
def AllReact (kind : Reaction World → Prop) (session : Session World) : Prop :=
  ∀ subscriber ∈ session.store.subscribers, subscriber.Reacts kind

/-! ### Being in step -/

/-- All subscribers, except some that are about to be told something, were last told something
while the state of now was active. -/
def InStepExcept (pending : List Nat) (session : Session World) : Prop :=
  ∀ subscriber ∈ session.store.subscribers, subscriber.token ∈ pending ∨
    ∃ delivery, session.lastTold subscriber.token = some delivery ∧
      delivery.state = session.store.state

/-- All deliveries told the locale that was active at the time. -/
def IsCurrent (session : Session World) : Prop :=
  ∀ delivery ∈ session.deliveries, delivery.locale = delivery.state.locale

section Steps

variable {session : Session World} {pending others : List Nat}

theorem InStepExcept.weaken (inStep : session.InStepExcept pending) (wider : pending ⊆ others) :
    session.InStepExcept others := by
  intro subscriber member
  rcases inStep subscriber member with waiting | told
  · exact .inl (wider waiting)
  · exact .inr told

theorem InStepExcept.told {token : Nat} (inStep : session.InStepExcept (token :: pending))
    (locale : String) :
    (session.withDelivery ⟨token, locale, session.store.state⟩).InStepExcept pending := by
  intro subscriber member
  by_cases own : token = subscriber.token
  · subst own
    exact .inr ⟨_, lastTold_self session ⟨_, _, _⟩, rfl⟩
  · rcases inStep subscriber member with waiting | ⟨delivery, last, same⟩
    · have further := (List.mem_cons.mp waiting).resolve_left (Ne.symm own)
      exact .inl further
    · rw [lastTold_other session own]
      exact .inr ⟨delivery, last, same⟩

theorem InStepExcept.added (inStep : session.InStepExcept pending)
    (subscriber : Subscriber World) :
    (session.withSubscribers (session.store.subscribers ++ [subscriber])).InStepExcept
      (subscriber.token :: pending) := by
  intro other member
  rcases List.mem_append.mp member with former | new
  · exact inStep.weaken (List.subset_cons_self _ _) other former
  · rw [List.mem_singleton.mp new]
    exact .inl List.mem_cons_self

theorem InStepExcept.unsubscribe (inStep : session.InStepExcept pending) (token : Nat) :
    (session.unsubscribe token).InStepExcept pending := by
  intro subscriber member
  exact inStep subscriber ((removeFirst_sublist token _).subset member)

theorem inStepExcept_all (session : Session World) :
    session.InStepExcept (session.store.subscribers.map Subscriber.token) := by
  intro subscriber member
  exact .inl (List.mem_map_of_mem member)

theorem IsCurrent.told (current : session.IsCurrent) (token : Nat) :
    (session.withDelivery ⟨token, session.store.state.locale, session.store.state⟩).IsCurrent := by
  intro delivery member
  rcases List.mem_append.mp member with former | new
  · exact current delivery former
  · rw [List.mem_singleton.mp new]

end Steps

/-! ### Passive reactions -/

/-- What passive reactions make of a session: the state stays, new subscribers are passive, nobody
falls out of step, and deliveries stay current. -/
structure Follows (before after : Session World) : Prop where
  state : after.store.state = before.store.state
  subscribers : ∀ subscriber ∈ after.store.subscribers,
    subscriber ∈ before.store.subscribers ∨ subscriber.Reacts Reaction.IsPassive
  inStep : ∀ pending, before.InStepExcept pending → after.InStepExcept pending
  current : before.IsCurrent → after.IsCurrent

theorem Follows.refl (session : Session World) : Follows session session :=
  ⟨rfl, fun _ member => .inl member, fun _ inStep => inStep, id⟩

theorem Follows.trans {first second third : Session World} (begun : Follows first second)
    (later : Follows second third) : Follows first third := by
  refine ⟨later.state.trans begun.state, ?_, ?_, ?_⟩
  · intro subscriber member
    rcases later.subscribers subscriber member with former | passive
    · exact begun.subscribers subscriber former
    · exact .inr passive
  · intro pending inStep
    exact later.inStep pending (begun.inStep pending inStep)
  · intro current
    exact later.current (begun.current current)

theorem Follows.allPassive {before after : Session World} (follows : Follows before after)
    (all : before.AllReact Reaction.IsPassive) : after.AllReact Reaction.IsPassive := by
  intro subscriber member
  rcases follows.subscribers subscriber member with former | passive
  · exact all subscriber former
  · exact passive

theorem follows_withWorld (session : Session World) (world : World) :
    Follows session (session.withWorld world) :=
  ⟨rfl, fun _ member => .inl member, fun _ inStep => inStep, id⟩

theorem follows_unsubscribe (session : Session World) (token : Nat) :
    Follows session (session.unsubscribe token) := by
  refine ⟨rfl, ?_, fun _ inStep => inStep.unsubscribe token, id⟩
  intro subscriber member
  exact .inl ((removeFirst_sublist token _).subset member)

theorem follows_told (session : Session World) (token : Nat) :
    Follows session
      (session.withDelivery ⟨token, session.store.state.locale, session.store.state⟩) := by
  refine ⟨rfl, fun _ member => .inl member, ?_, fun current => current.told token⟩
  intro pending inStep
  exact (inStep.weaken (List.subset_cons_self token pending)).told _

theorem follows_added (session : Session World) {subscriber : Subscriber World}
    (passive : subscriber.Reacts Reaction.IsPassive) :
    Follows session
      ((session.withSubscribers (session.store.subscribers ++ [subscriber])).withDelivery
        ⟨subscriber.token, session.store.state.locale, session.store.state⟩) := by
  refine ⟨rfl, ?_, ?_, ?_⟩
  · intro other member
    rcases List.mem_append.mp member with former | new
    · exact .inl former
    · rw [List.mem_singleton.mp new]
      exact .inr passive
  · intro pending inStep
    exact (inStep.added subscriber).told _
  · intro current
    have kept : (session.withSubscribers (session.store.subscribers ++ [subscriber])).IsCurrent :=
      current
    exact kept.told subscriber.token

theorem react_follows (steps : Nat) (session : Session World) {reaction : Reaction World}
    (passive : reaction.IsPassive) : Follows session (react steps session reaction).1 := by
  induction steps generalizing session reaction with
  | zero => exact .refl session
  | succ steps ih =>
    cases passive with
    | finish => exact .refl session
    | fail failure => exact .refl session
    | look later => exact ih session (later _ _)
    | write later => exact (follows_withWorld session _).trans (ih _ later)
    | unsubscribe later => exact (follows_unsubscribe session _).trans (ih _ later)
    | @subscribe token react next inner later =>
      have passive : (Subscriber.mk token react).Reacts Reaction.IsPassive := inner
      have told : Follows session (session.subscribeBy (Session.react steps) ⟨token, react⟩).1 :=
        (follows_added session passive).trans (ih _ (inner _))
      exact told.trans (ih _ (later _))

theorem subscribeBy_follows (steps : Nat) (session : Session World)
    {subscriber : Subscriber World} (passive : subscriber.Reacts Reaction.IsPassive) :
    Follows session (session.subscribeBy (react steps) subscriber).1 :=
  (follows_added session passive).trans (react_follows steps _ (passive _))

/-! ### Reactions that never fail -/

theorem AllReact.added {kind : Reaction World → Prop} {session : Session World}
    (all : session.AllReact kind) {subscriber : Subscriber World} (reacts : subscriber.Reacts kind)
    (delivery : Delivery) :
    ((session.withSubscribers (session.store.subscribers ++ [subscriber])).withDelivery
      delivery).AllReact kind := by
  intro other member
  rcases List.mem_append.mp member with former | new
  · exact all other former
  · rwa [List.mem_singleton.mp new]

theorem AllReact.unsubscribe {kind : Reaction World → Prop} {session : Session World}
    (all : session.AllReact kind) (token : Nat) : (session.unsubscribe token).AllReact kind := by
  intro subscriber member
  exact all subscriber ((removeFirst_sublist token _).subset member)

/-- What holds with one step more each time holds with enough steps. -/
theorem eventually_of_succ {holds : Nat → Prop} (later : ∀ᶠ steps in atTop, holds (steps + 1)) :
    ∀ᶠ steps in atTop, holds steps := by
  obtain ⟨enough, held⟩ := Filter.eventually_atTop.mp later
  refine Filter.eventually_atTop.mpr ⟨enough + 1, ?_⟩
  intro steps more
  obtain ⟨count, rfl⟩ := Nat.exists_eq_add_of_le' more
  exact held (count + enough) (Nat.le_add_left enough count)

/-- What holds of each beginning of a list with enough steps holds of all of them together. -/
theorem eventually_forall_initial {α : Type} {holds : Nat → List α → Prop} {whole : List α}
    (each : ∀ earlier, earlier <+: whole → ∀ᶠ steps in atTop, holds steps earlier) :
    ∀ᶠ steps in atTop, ∀ earlier, earlier <+: whole → holds steps earlier := by
  simp only [← List.mem_inits] at each ⊢
  exact (Filter.eventually_all_finite (List.finite_toSet whole.inits)).mpr each

/-- With enough steps a smooth reaction ends, without a failure and always in the same way. -/
theorem react_settles {reaction : Reaction World} (smooth : reaction.IsSmooth)
    {session : Session World} (all : session.AllReact Reaction.IsSmooth) :
    ∃ after : Session World, after.AllReact Reaction.IsSmooth ∧
      ∀ᶠ steps in atTop, react steps session reaction = (after, .ok ()) := by
  induction smooth generalizing session with
  | finish => exact ⟨session, all, eventually_of_succ (.of_forall fun _ => rfl)⟩
  | look _ ih =>
    obtain ⟨after, kept, done⟩ := ih session.world session.store.state all
    exact ⟨after, kept, eventually_of_succ done⟩
  | @write world _ _ ih =>
    have same : (session.withWorld world).AllReact Reaction.IsSmooth := all
    obtain ⟨after, kept, done⟩ := ih same
    exact ⟨after, kept, eventually_of_succ done⟩
  | @unsubscribe token _ _ ih =>
    obtain ⟨after, kept, done⟩ := ih (all.unsubscribe token)
    exact ⟨after, kept, eventually_of_succ done⟩
  | @subscribe token react next inner _ innerEnds laterEnds =>
    have smooth : (Subscriber.mk token react).Reacts Reaction.IsSmooth := inner
    obtain ⟨told, kept, done⟩ := innerEnds session.store.state.locale
      (all.added smooth ⟨token, session.store.state.locale, session.store.state⟩)
    obtain ⟨after, kept', done'⟩ := laterEnds (.ok ()) kept
    refine ⟨after, kept', eventually_of_succ ?_⟩
    filter_upwards [done, done'] with steps ended ended'
    have subscribed : session.subscribeBy (Session.react steps) ⟨token, react⟩ = (told, .ok ()) :=
      ended
    rw [Session.react, subscribed]
    exact ended'

end Session

end Phrasebook.Locale

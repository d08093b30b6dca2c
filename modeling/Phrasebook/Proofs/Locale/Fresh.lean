import Mathlib.Data.List.Induction
import Phrasebook.Proofs.Locale.InStep

set_option autoImplicit false

/-!
Subscribers and the active locale over whole runs. Unless something has failed since the last
activation that returned, everyone who is subscribed was last told something while the state of now
was active. If nobody activates anything when told, everyone was then told the locale of now. An
activation that was overtaken by one inside of it goes on telling its own locale, though, and one
that has failed has not told everyone.
-/
namespace Phrasebook.Locale

open Filter (atTop)

variable {World : Type}

/-- The reactions of the subscriber that an operation adds are of a kind. -/
def Operation.Reacts (kind : Reaction World → Prop) (operation : Operation World) : Prop :=
  ∀ subscriber ∈ operation.subscriber?, subscriber.Reacts kind

namespace Session

/-- Everyone who is subscribed was last told the active locale. -/
def IsFresh (session : Session World) : Prop :=
  ∀ subscriber ∈ session.store.subscribers, ∃ delivery,
    session.lastTold subscriber.token = some delivery ∧
      delivery.locale = session.store.state.locale

/-- Everyone who is subscribed was last told something while the state of now was active. -/
def IsInStep (session : Session World) : Prop :=
  ∀ subscriber ∈ session.store.subscribers, ∃ delivery,
    session.lastTold subscriber.token = some delivery ∧ delivery.state = session.store.state

theorem inStepExcept_nil {session : Session World} :
    session.InStepExcept [] ↔ session.IsInStep := by
  simp [InStepExcept, IsInStep]

/-- In step, one is told the active locale exactly if one was last told that of the state. -/
theorem isFresh_iff {session : Session World} (inStep : session.IsInStep) :
    session.IsFresh ↔ ∀ subscriber ∈ session.store.subscribers, ∀ delivery,
      session.lastTold subscriber.token = some delivery →
        delivery.locale = delivery.state.locale := by
  constructor
  · intro fresh subscriber member delivery last
    obtain ⟨same, last', told⟩ := fresh subscriber member
    obtain ⟨same', last'', active⟩ := inStep subscriber member
    cases last.symm.trans last'
    cases last.symm.trans last''
    rw [told, active]
  · intro told subscriber member
    obtain ⟨delivery, last, active⟩ := inStep subscriber member
    exact ⟨delivery, last, by rw [told subscriber member delivery last, active]⟩

theorem isFresh_of_isCurrent {session : Session World} (inStep : session.IsInStep)
    (current : session.IsCurrent) : session.IsFresh := by
  rw [isFresh_iff inStep]
  intro subscriber _ delivery last
  have told := List.mem_of_getLast? last
  exact current delivery (List.mem_filter.mp told).1

/-! ### Single operations -/

section Perform

variable {steps : Nat} {session : Session World} {operation : Operation World}

theorem returned_of_map {α : Type} {result : Except Failure α}
    (returned : (result.map fun _ => ()) = .ok ()) : ∃ value, result = .ok value := by
  cases result with
  | ok value => exact ⟨value, rfl⟩
  | error failure => cases returned

theorem perform_orderly (all : session.AllReact Reaction.IsOrderly)
    (reacts : operation.Reacts Reaction.IsOrderly) :
    (session.perform steps operation).1.AllReact Reaction.IsOrderly := by
  cases operation with
  | subscribe subscriber => exact (react_safe steps).subscribeBy_orderly (reacts _ rfl) all
  | unsubscribe token => exact all.unsubscribe token
  | activate locale messages => exact (react_safe steps).activateBy_orderly locale messages all
  | reset => exact (react_safe steps).activateBy_orderly _ _ all

theorem activate_inStep {locale : String} {messages : Translations}
    (all : session.AllReact Reaction.IsOrderly)
    (returned : (session.perform steps (.activate locale messages)).2 = .ok ()) :
    (session.perform steps (.activate locale messages)).1.InStepExcept [] := by
  obtain ⟨state, done⟩ := returned_of_map returned
  exact (react_safe steps).activateBy_inStep all done

theorem reset_inStep (all : session.AllReact Reaction.IsOrderly)
    (returned : (session.perform steps .reset).2 = .ok ()) :
    (session.perform steps .reset).1.InStepExcept [] := by
  rw [perform_reset] at returned ⊢
  exact activate_inStep all returned

/-- An activation that returns leaves everyone in step. -/
theorem perform_renews {state : State} (all : session.AllReact Reaction.IsOrderly)
    (activated : operation.activated? session.store.defaultLocale = some state)
    (returned : (session.perform steps operation).2 = .ok ()) :
    (session.perform steps operation).1.IsInStep := by
  rw [← inStepExcept_nil]
  cases operation with
  | subscribe subscriber => cases activated
  | unsubscribe token => cases activated
  | activate locale messages => exact activate_inStep all returned
  | reset => exact reset_inStep all returned

/-- An operation that returns leaves everyone in step who was. -/
theorem perform_inStep (all : session.AllReact Reaction.IsOrderly)
    (reacts : operation.Reacts Reaction.IsOrderly)
    (returned : (session.perform steps operation).2 = .ok ()) (inStep : session.IsInStep) :
    (session.perform steps operation).1.IsInStep := by
  rw [← inStepExcept_nil] at inStep ⊢
  cases operation with
  | subscribe subscriber =>
    exact (react_safe steps).subscribeBy_inStep (reacts _ rfl) all returned inStep
  | unsubscribe token => exact inStep.unsubscribe token
  | activate locale messages => exact activate_inStep all returned
  | reset => exact reset_inStep all returned

/-- An operation that activates nothing is followed, even if it fails. -/
theorem perform_follows (reacts : operation.Reacts Reaction.IsPassive)
    (idle : operation.activated? session.store.defaultLocale = none) :
    Follows session (session.perform steps operation).1 := by
  cases operation with
  | subscribe subscriber => exact subscribeBy_follows steps session (reacts _ rfl)
  | unsubscribe token => exact follows_unsubscribe session token
  | activate locale messages =>
    have empty : locale.isEmpty = true := by simpa [Operation.activated?] using idle
    rw [perform, activate, activateBy_empty messages empty]
    exact .refl session
  | reset =>
    have empty : session.store.defaultLocale.isEmpty = true := by
      simpa [Operation.activated?] using idle
    rw [perform_reset, perform, activate, activateBy_empty [] empty]
    exact .refl session

theorem activateBy_current (locale : String) (messages : Translations)
    (all : session.AllReact Reaction.IsPassive) (current : session.IsCurrent) :
    (session.activateBy (react steps) locale messages).1.AllReact Reaction.IsPassive ∧
      (session.activateBy (react steps) locale messages).1.IsCurrent := by
  cases empty : locale.isEmpty with
  | true =>
    rw [activateBy_empty messages empty]
    exact ⟨all, current⟩
  | false =>
    rw [activateBy_eq empty]
    -- While subscribers are told, the new state stays active.
    have told : Follows (session.withState ⟨locale, messages⟩)
        (tellAll (react steps) locale (session.withState ⟨locale, messages⟩)
          session.store.subscribers).1 := by
      refine tellAll_preserves ?_ (.refl _)
      intro before subscriber member follows
      have active : locale = before.store.state.locale := by rw [follows.state]; rfl
      subst active
      exact follows.trans ((follows_told before subscriber.token).trans
        (react_follows steps _ (all subscriber member _)))
    exact ⟨told.allPassive all, told.current current⟩

/-- Passive subscribers stay passive and are told what is active, whatever fails. -/
theorem perform_current (all : session.AllReact Reaction.IsPassive)
    (reacts : operation.Reacts Reaction.IsPassive) (current : session.IsCurrent) :
    (session.perform steps operation).1.AllReact Reaction.IsPassive ∧
      (session.perform steps operation).1.IsCurrent := by
  have followed : operation.activated? session.store.defaultLocale = none →
      (session.perform steps operation).1.AllReact Reaction.IsPassive ∧
        (session.perform steps operation).1.IsCurrent := by
    intro idle
    have follows : Follows session (session.perform steps operation).1 :=
      perform_follows reacts idle
    exact ⟨follows.allPassive all, follows.current current⟩
  cases operation with
  | subscribe subscriber => exact followed rfl
  | unsubscribe token => exact followed rfl
  | activate locale messages => exact activateBy_current locale messages all current
  | reset => exact activateBy_current _ _ all current

end Perform

/-! ### Runs -/

/-- Nothing has failed since the start of a run, or since the last activation that returned, except
operations that activate nothing and add nobody who does. -/
inductive Undisturbed (steps : Nat) (start : Session World) : List (Operation World) → Prop where
  | nil : Undisturbed steps start []
  | returned {operations : List (Operation World)} {operation : Operation World}
      (before : Undisturbed steps start operations)
      (returned : ((start.performAll steps operations).perform steps operation).2 = .ok ()) :
    Undisturbed steps start (operations ++ [operation])
  | idle {operations : List (Operation World)} {operation : Operation World}
      (before : Undisturbed steps start operations)
      (idle : operation.activated? (start.performAll steps operations).store.defaultLocale = none)
      (passive : operation.Reacts Reaction.IsPassive) :
    Undisturbed steps start (operations ++ [operation])
  | renewed {operations : List (Operation World)} {operation : Operation World} {state : State}
      (activated :
        operation.activated? (start.performAll steps operations).store.defaultLocale = some state)
      (returned : ((start.performAll steps operations).perform steps operation).2 = .ok ()) :
    Undisturbed steps start (operations ++ [operation])

section Runs

variable {steps : Nat} {start : Session World} {operations : List (Operation World)}

theorem performAll_orderly (all : start.AllReact Reaction.IsOrderly)
    (reacts : ∀ operation ∈ operations, operation.Reacts Reaction.IsOrderly) :
    (start.performAll steps operations).AllReact Reaction.IsOrderly := by
  induction operations generalizing start with
  | nil => exact all
  | cons operation rest ih =>
    obtain ⟨own, others⟩ := List.forall_mem_cons.mp reacts
    exact ih (perform_orderly all own) others

theorem performAll_current (all : start.AllReact Reaction.IsPassive)
    (reacts : ∀ operation ∈ operations, operation.Reacts Reaction.IsPassive)
    (current : start.IsCurrent) : (start.performAll steps operations).IsCurrent := by
  induction operations generalizing start with
  | nil => exact current
  | cons operation rest ih =>
    obtain ⟨own, others⟩ := List.forall_mem_cons.mp reacts
    obtain ⟨kept, current'⟩ :
        (start.perform steps operation).1.AllReact Reaction.IsPassive ∧
          (start.perform steps operation).1.IsCurrent := perform_current all own current
    exact ih kept others current'

theorem performAll_inStep (all : start.AllReact Reaction.IsOrderly)
    (reacts : ∀ operation ∈ operations, operation.Reacts Reaction.IsOrderly)
    (begun : start.IsInStep) (undisturbed : Undisturbed steps start operations) :
    (start.performAll steps operations).IsInStep := by
  induction undisturbed with
  | nil => exact begun
  | @returned operations operation _ returned ih =>
    obtain ⟨earlier, own⟩ := List.forall_mem_append.mp reacts
    rw [performAll_concat]
    exact perform_inStep (performAll_orderly all earlier) (List.forall_mem_singleton.mp own)
      returned (ih earlier)
  | @idle operations operation _ idle passive ih =>
    obtain ⟨earlier, -⟩ := List.forall_mem_append.mp reacts
    have before := inStepExcept_nil.mpr (ih earlier)
    rw [performAll_concat]
    exact inStepExcept_nil.mp ((perform_follows passive idle).inStep [] before)
  | @renewed operations operation _ activated returned =>
    obtain ⟨earlier, -⟩ := List.forall_mem_append.mp reacts
    rw [performAll_concat]
    exact perform_renews (performAll_orderly all earlier) activated returned

end Runs

/-! ### Runs that come to an end -/

theorem tellAll_settles (locale : String) {subscribers : List (Subscriber World)}
    (react : ∀ subscriber ∈ subscribers, subscriber.Reacts Reaction.IsSmooth)
    {session : Session World} (all : session.AllReact Reaction.IsSmooth) :
    ∃ after : Session World, after.AllReact Reaction.IsSmooth ∧
      ∀ᶠ steps in atTop, tellAll (Session.react steps) locale session subscribers =
        (after, .ok ()) := by
  induction subscribers generalizing session with
  | nil => exact ⟨session, all, .of_forall fun _ => rfl⟩
  | cons subscriber rest ih =>
    have told : (session.withDelivery ⟨subscriber.token, locale, session.store.state⟩).AllReact
        Reaction.IsSmooth := all
    obtain ⟨own, others⟩ := List.forall_mem_cons.mp react
    obtain ⟨mid, kept, done⟩ := react_settles (own locale) told
    obtain ⟨after, kept', done'⟩ := ih others kept
    refine ⟨after, kept', ?_⟩
    filter_upwards [done, done'] with steps ended ended'
    have first : tell (Session.react steps) locale session subscriber = (mid, .ok ()) := ended
    rw [tellAll, first]
    exact ended'

theorem activateBy_settles (locale : String) (messages : Translations) {session : Session World}
    (all : session.AllReact Reaction.IsSmooth) :
    ∃ after : Session World, after.AllReact Reaction.IsSmooth ∧
      ∀ᶠ steps in atTop, session.activateBy (react steps) locale messages =
        (after, if locale.isEmpty then .error .emptyLocale else .ok ⟨locale, messages⟩) := by
  cases empty : locale.isEmpty with
  | true => exact ⟨session, all, .of_forall fun _ => activateBy_empty messages empty⟩
  | false =>
    have begun : (session.withState ⟨locale, messages⟩).AllReact Reaction.IsSmooth := all
    obtain ⟨after, kept, done⟩ := tellAll_settles locale all begun
    refine ⟨after, kept, ?_⟩
    filter_upwards [done] with steps ended
    rw [activateBy_eq empty, ended]
    rfl

theorem activate_settles (locale : String) (messages : Translations) {session : Session World}
    (all : session.AllReact Reaction.IsSmooth) :
    ∃ (after : Session World) (result : Except Failure Unit), after.AllReact Reaction.IsSmooth ∧
      (∀ᶠ steps in atTop, session.perform steps (.activate locale messages) = (after, result)) ∧
      (result = .ok () ∨ locale.isEmpty = true) := by
  obtain ⟨after, kept, done⟩ := activateBy_settles locale messages all
  cases empty : locale.isEmpty with
  | true =>
    refine ⟨after, .error .emptyLocale, kept, ?_, .inr rfl⟩
    filter_upwards [done] with steps ended
    rw [perform, activate, ended, empty]
    rfl
  | false =>
    refine ⟨after, .ok (), kept, ?_, .inl rfl⟩
    filter_upwards [done] with steps ended
    rw [perform, activate, ended, empty]
    rfl

/-- With enough steps an operation among smooth subscribers ends always in the same way, and fails
only if it activates nothing. -/
theorem perform_settles {operation : Operation World} {session : Session World}
    (all : session.AllReact Reaction.IsSmooth) (reacts : operation.Reacts Reaction.IsSmooth) :
    ∃ (after : Session World) (result : Except Failure Unit), after.AllReact Reaction.IsSmooth ∧
      (∀ᶠ steps in atTop, session.perform steps operation = (after, result)) ∧
      (result = .ok () ∨ operation.activated? session.store.defaultLocale = none) := by
  cases operation with
  | subscribe subscriber =>
    obtain ⟨after, kept, done⟩ := react_settles (reacts _ rfl _) (all.added (reacts _ rfl) _)
    exact ⟨after, .ok (), kept, done, .inl rfl⟩
  | unsubscribe token =>
    exact ⟨session.unsubscribe token, .ok (), all.unsubscribe token, .of_forall fun _ => rfl,
      .inl rfl⟩
  | activate locale messages =>
    simpa [Operation.activated?] using activate_settles locale messages all
  | reset =>
    have ends := activate_settles session.store.defaultLocale [] all
    simpa [Operation.activated?, perform_reset] using ends

theorem performAll_settles {operations : List (Operation World)} {start : Session World}
    (all : start.AllReact Reaction.IsSmooth)
    (reacts : ∀ operation ∈ operations, operation.Reacts Reaction.IsSmooth) :
    ∃ after : Session World, after.AllReact Reaction.IsSmooth ∧
      ∀ᶠ steps in atTop, start.performAll steps operations = after := by
  induction operations generalizing start with
  | nil => exact ⟨start, all, .of_forall fun _ => rfl⟩
  | cons operation rest ih =>
    obtain ⟨own, others⟩ := List.forall_mem_cons.mp reacts
    obtain ⟨mid, result, kept, done, -⟩ := perform_settles all own
    obtain ⟨after, kept', done'⟩ := ih kept others
    refine ⟨after, kept', ?_⟩
    filter_upwards [done, done'] with steps ended ended'
    have first : (start.perform steps operation).1 = mid := by rw [ended]
    rw [performAll, List.foldl_cons, first]
    exact ended'

/-- With enough steps a run among smooth subscribers is undisturbed. -/
theorem undisturbed_of_smooth {operations : List (Operation World)} {start : Session World}
    (all : start.AllReact Reaction.IsSmooth)
    (reacts : ∀ operation ∈ operations, operation.Reacts Reaction.IsSmooth) :
    ∀ᶠ steps in atTop, Undisturbed steps start operations := by
  induction operations using List.reverseRecOn with
  | nil => exact .of_forall fun _ => .nil
  | append_singleton operations operation ih =>
    obtain ⟨others, last⟩ := List.forall_mem_append.mp reacts
    have own := List.forall_mem_singleton.mp last
    obtain ⟨mid, kept, done⟩ := performAll_settles all others
    obtain ⟨after, result, -, done', ends⟩ := perform_settles kept own
    filter_upwards [ih others, done, done'] with steps undisturbed ended ended'
    rcases ends with rfl | idle
    · exact .returned undisturbed (by rw [ended, ended'])
    · exact .idle undisturbed (by rw [ended, idle])
        fun subscriber added locale => (own subscriber added locale).isPassive

end Session

/-- A session with a new store. -/
def Session.begin (defaultLocale : String) (messages : Translations) (world : World) :
    Session World :=
  ⟨.create defaultLocale messages, world, []⟩

theorem Session.begin_allReact (kind : Reaction World → Prop) (defaultLocale : String)
    (messages : Translations) (world : World) :
    (begin defaultLocale messages world).AllReact kind := by
  intro subscriber member
  cases member

open Session

/-- In an undisturbed run everyone who is subscribed was last told something while the state of now
was active, however activations are nested; so everyone was last told the active locale unless the
last to tell was an activation that had been overtaken. None has if nobody activates anything when
told. If moreover nobody fails when told, then a run with enough steps is undisturbed all along. -/
theorem run_isFresh {operations : List (Operation World)} (defaultLocale : String)
    (messages : Translations) (world : World)
    (orderly : ∀ operation ∈ operations, operation.Reacts Reaction.IsOrderly) :
    (∀ steps, Undisturbed steps (begin defaultLocale messages world) operations →
      let after := (begin defaultLocale messages world).performAll steps operations
      after.IsInStep ∧
      (after.IsFresh ↔ ∀ subscriber ∈ after.store.subscribers, ∀ delivery,
        after.lastTold subscriber.token = some delivery →
          delivery.locale = delivery.state.locale) ∧
      ((∀ operation ∈ operations, operation.Reacts Reaction.IsPassive) → after.IsFresh)) ∧
    ((∀ operation ∈ operations, operation.Reacts Reaction.IsSmooth) →
      ∃ enough, ∀ steps, enough ≤ steps → ∀ earlier, earlier <+: operations →
        Undisturbed steps (begin defaultLocale messages world) earlier) := by
  have nobody := fun kind => begin_allReact kind defaultLocale messages world
  refine ⟨?_, ?_⟩
  · intro steps undisturbed
    have begun : (begin defaultLocale messages world).IsInStep := by
      intro subscriber member
      cases member
    have inStep := performAll_inStep (nobody _) orderly begun undisturbed
    refine ⟨inStep, isFresh_iff inStep, ?_⟩
    intro passive
    have silent : (begin defaultLocale messages world).IsCurrent := by
      intro delivery member
      cases member
    exact isFresh_of_isCurrent inStep (performAll_current (nobody _) passive silent)
  · intro smooth
    refine Filter.eventually_atTop.mp (eventually_forall_initial fun earlier within => ?_)
    exact undisturbed_of_smooth (nobody _) fun other member => smooth other (within.subset member)

/-! ### A relay -/

/-- Hears what is told and does nothing. -/
def listener : Subscriber Unit := ⟨1, fun _ => .finish⟩

/-- Goes on to French when it is told Japanese. -/
def relay : Subscriber Unit :=
  ⟨2, fun locale =>
    if locale = "ja" then
      .activate "fr" [] fun
        | .ok _ => .finish
        | .error failure => .fail failure
    else .finish⟩

/-- Refuses Japanese. -/
def refuser : Subscriber Unit :=
  ⟨2, fun locale => if locale = "ja" then .fail .refused else .finish⟩

/-- Two subscribers, one after the other, and then Japanese. -/
def toJapanese (first second : Subscriber Unit) : List (Operation Unit) :=
  [.subscribe first, .subscribe second, .activate "ja" []]

theorem toJapanese_reacts {kind : Reaction Unit → Prop} {first second : Subscriber Unit}
    (reacts : first.Reacts kind) (reacts' : second.Reacts kind) :
    ∀ operation ∈ toJapanese first second, operation.Reacts kind := by
  intro operation member subscriber added
  simp only [toJapanese, List.mem_cons, List.not_mem_nil, or_false] at member
  rcases member with rfl | rfl | rfl
  · cases added
    exact reacts
  · cases added
    exact reacts'
  · cases added

theorem relay_orderly : relay.Reacts Reaction.IsOrderly := by
  intro locale
  rw [relay]
  dsimp only
  split
  · exact .activate (fun _ => .passive .finish) fun failure => ⟨failure, rfl⟩
  · exact .passive .finish

theorem undisturbed_relayLast :
    Undisturbed 9 (begin "en" [] ()) (toJapanese listener relay) := by
  change Undisturbed 9 _ ((([] ++ [_]) ++ [_]) ++ [_])
  exact .returned (.returned (.returned .nil rfl) rfl) rfl

/-- A relay that is told last leaves everyone up to date, and so do any listeners. -/
theorem run_isFresh_relayLast :
    ((begin "en" [] ()).performAll 9 (toJapanese listener relay)).IsFresh ∧
      ∃ enough, ∀ steps, enough ≤ steps →
        Undisturbed steps (begin "en" [] ()) (toJapanese listener listener) := by
  have listens : listener.Reacts Reaction.IsSmooth := fun _ => .finish
  have orderly : listener.Reacts Reaction.IsOrderly :=
    fun locale => .passive (listens locale).isPassive
  have relayed := run_isFresh "en" [] () (toJapanese_reacts orderly relay_orderly)
  have heard := run_isFresh "en" [] () (toJapanese_reacts orderly orderly)
  refine ⟨?_, ?_⟩
  · obtain ⟨-, fresh, -⟩ := relayed.1 9 undisturbed_relayLast
    refine fresh.mpr ?_
    intro subscriber member delivery last
    have among : subscriber = listener ∨ subscriber = relay := by
      have listed : subscriber ∈ [listener, relay] := member
      simpa using listed
    have last' : ((begin "en" [] ()).performAll 9 (toJapanese listener relay)).lastTold
        subscriber.token = some ⟨subscriber.token, "fr", ⟨"fr", []⟩⟩ := by
      rcases among with rfl | rfl <;> decide
    cases last.symm.trans last'
    rfl
  · obtain ⟨enough, undisturbed⟩ := heard.2 (toJapanese_reacts listens listens)
    exact ⟨enough, fun steps more => undisturbed steps more _ List.prefix_rfl⟩

theorem not_isFresh {World : Type} {session : Session World} {subscriber : Subscriber World}
    {delivery : Delivery} (subscribed : subscriber ∈ session.store.subscribers)
    (last : session.lastTold subscriber.token = some delivery)
    (stale : delivery.locale ≠ session.store.state.locale) : ¬ session.IsFresh := by
  intro fresh
  obtain ⟨same, last', told⟩ := fresh subscriber subscribed
  cases last.symm.trans last'
  exact stale told

/-- A relay that is told first leaves the one after it with Japanese while French is active, and if
the first one refuses Japanese, then the one after it is never told. -/
theorem run_stale :
    ¬ ((begin "en" [] ()).performAll 9 (toJapanese relay listener)).IsFresh ∧
      ¬ ((begin "en" [] ()).performAll 9 (toJapanese refuser listener)).IsFresh := by
  have second : ∀ first : Subscriber Unit, listener ∈ [first, listener] := by simp
  constructor
  · have last : ((begin "en" [] ()).performAll 9 (toJapanese relay listener)).lastTold 1 =
        some ⟨1, "ja", ⟨"fr", []⟩⟩ := by decide
    exact not_isFresh (second relay) last (by decide)
  · have last : ((begin "en" [] ()).performAll 9 (toJapanese refuser listener)).lastTold 1 =
        some ⟨1, "en", ⟨"en", []⟩⟩ := by decide
    exact not_isFresh (second refuser) last (by decide)

end Phrasebook.Locale

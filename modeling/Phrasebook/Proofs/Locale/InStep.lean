import Phrasebook.Proofs.Locale.Reaction

set_option autoImplicit false

/-!
Activations inside activations. A reaction may activate a locale as long as it does not go on after
that has failed. Then an activation that returns leaves all subscribers in step, whatever has been
activated inside of it: the innermost activation that comes last has told everyone, and what is
told later is told while its state is active.
-/
namespace Phrasebook.Locale

variable {World : Type}

/-- Does not go on after an activation has failed, and after a subscription only if nothing in it
can have been activated. -/
inductive Reaction.IsOrderly : Reaction World → Prop where
  | passive {reaction : Reaction World} (passive : reaction.IsPassive) : IsOrderly reaction
  | look {next : World → State → Reaction World}
      (later : ∀ world state, IsOrderly (next world state)) : IsOrderly (.look next)
  | write {world : World} {next : Reaction World} (later : IsOrderly next) :
    IsOrderly (.write world next)
  | activate {locale : String} {messages : Translations}
      {next : Except Failure State → Reaction World} (done : ∀ state, IsOrderly (next (.ok state)))
      (failed : ∀ failure, ∃ reason, next (.error failure) = .fail reason) :
    IsOrderly (.activate locale messages next)
  | subscribe {token : Nat} {react : String → Reaction World}
      {next : Except Failure Unit → Reaction World} (inner : ∀ locale, IsOrderly (react locale))
      (done : IsOrderly (next (.ok ())))
      (failed : ∀ failure, ∃ reason, next (.error failure) = .fail reason) :
    IsOrderly (.subscribe token react next)
  | unsubscribe {token : Nat} {next : Reaction World} (later : IsOrderly next) :
    IsOrderly (.unsubscribe token next)

namespace Session

/-- A way to run reactions that keeps subscribers orderly, and in step if the reaction ends without
a failure. -/
structure Runner.IsSafe (run : Runner World) : Prop where
  orderly : ∀ {session : Session World} {reaction : Reaction World}, reaction.IsOrderly →
    session.AllReact Reaction.IsOrderly → (run session reaction).1.AllReact Reaction.IsOrderly
  inStep : ∀ {session : Session World} {reaction : Reaction World} {pending : List Nat},
    reaction.IsOrderly → session.AllReact Reaction.IsOrderly →
    (run session reaction).2 = .ok () → session.InStepExcept pending →
    (run session reaction).1.InStepExcept pending

section Runs

variable {run : Runner World} {session : Session World} {pending : List Nat}

theorem tellAll_cons_ok {locale : String} {subscriber : Subscriber World}
    (rest : List (Subscriber World)) (told : (tell run locale session subscriber).2 = .ok ()) :
    tellAll run locale session (subscriber :: rest) =
      tellAll run locale (tell run locale session subscriber).1 rest := by
  rw [tellAll]
  rcases ended : tell run locale session subscriber with ⟨after, result⟩
  rw [ended] at told
  subst told
  rfl

theorem tellAll_cons_error {locale : String} {subscriber : Subscriber World} {failure : Failure}
    (rest : List (Subscriber World))
    (failed : (tell run locale session subscriber).2 = .error failure) :
    tellAll run locale session (subscriber :: rest) =
      ((tell run locale session subscriber).1, .error failure) := by
  rw [tellAll]
  rcases ended : tell run locale session subscriber with ⟨after, result⟩
  rw [ended] at failed
  subst failed
  rfl

/-- Telling subscribers is a loop: what telling one of them preserves, it preserves. -/
theorem tellAll_preserves {holds : Session World → Prop} {locale : String}
    {subscribers : List (Subscriber World)}
    (step : ∀ session, ∀ subscriber ∈ subscribers, holds session →
      holds (tell run locale session subscriber).1) (held : holds session) :
    holds (tellAll run locale session subscribers).1 := by
  induction subscribers generalizing session with
  | nil => exact held
  | cons subscriber rest ih =>
    have first := step session subscriber (by simp) held
    cases told : (tell run locale session subscriber).2 with
    | ok _ =>
      rw [tellAll_cons_ok rest told]
      exact ih (fun session other member => step session other (by simp [member])) first
    | error failure =>
      rw [tellAll_cons_error rest told]
      exact first

theorem Runner.IsSafe.tell_orderly (safe : run.IsSafe) {locale : String}
    {subscriber : Subscriber World} (reacts : subscriber.Reacts Reaction.IsOrderly)
    (all : session.AllReact Reaction.IsOrderly) :
    (tell run locale session subscriber).1.AllReact Reaction.IsOrderly := by
  have told : (session.withDelivery ⟨subscriber.token, locale, session.store.state⟩).AllReact
      Reaction.IsOrderly := all
  exact safe.orderly (reacts locale) told

theorem Runner.IsSafe.tell_inStep (safe : run.IsSafe) {locale : String}
    {subscriber : Subscriber World} (reacts : subscriber.Reacts Reaction.IsOrderly)
    (all : session.AllReact Reaction.IsOrderly)
    (returned : (tell run locale session subscriber).2 = .ok ())
    (inStep : session.InStepExcept (subscriber.token :: pending)) :
    (tell run locale session subscriber).1.InStepExcept pending := by
  have told : (session.withDelivery ⟨subscriber.token, locale, session.store.state⟩).AllReact
      Reaction.IsOrderly := all
  exact safe.inStep (reacts locale) told returned (inStep.told locale)

/-- Whoever was pending has been told when the loop ends without a failure. -/
theorem Runner.IsSafe.tellAll_inStep (safe : run.IsSafe) {locale : String}
    {subscribers : List (Subscriber World)}
    (react : ∀ subscriber ∈ subscribers, subscriber.Reacts Reaction.IsOrderly)
    (all : session.AllReact Reaction.IsOrderly)
    (returned : (tellAll run locale session subscribers).2 = .ok ())
    (inStep : session.InStepExcept (subscribers.map Subscriber.token)) :
    (tellAll run locale session subscribers).1.InStepExcept [] := by
  induction subscribers generalizing session with
  | nil => exact inStep
  | cons subscriber rest ih =>
    have reacts := react subscriber (by simp)
    cases told : (tell run locale session subscriber).2 with
    | ok _ =>
      rw [tellAll_cons_ok rest told] at returned ⊢
      exact ih (fun other member => react other (by simp [member])) (safe.tell_orderly reacts all)
        returned (safe.tell_inStep reacts all told inStep)
    | error failure =>
      rw [tellAll_cons_error rest told] at returned
      cases returned

theorem activateBy_eq {locale : String} {messages : Translations} (given : locale.isEmpty = false) :
    session.activateBy run locale messages =
      ((tellAll run locale (session.withState ⟨locale, messages⟩) session.store.subscribers).1,
        (tellAll run locale (session.withState ⟨locale, messages⟩)
          session.store.subscribers).2.map fun _ => ⟨locale, messages⟩) := by
  rw [activateBy, if_neg (by simp [given])]
  dsimp only
  rcases tellAll run locale (session.withState ⟨locale, messages⟩) session.store.subscribers with
    ⟨after, _ | _⟩
  · rfl
  · rfl

theorem activateBy_empty {locale : String} (messages : Translations)
    (empty : locale.isEmpty = true) :
    session.activateBy run locale messages = (session, .error .emptyLocale) := by
  rw [activateBy, if_pos empty]

/-- What holds with the new state, and is preserved by telling a subscriber, holds after an
activation, which does nothing without a locale. -/
theorem activateBy_preserves {holds : Session World → Prop} {locale : String}
    {messages : Translations}
    (step : ∀ before, ∀ subscriber ∈ session.store.subscribers, holds before →
      holds (tell run locale before subscriber).1)
    (held : holds session) (begun : holds (session.withState ⟨locale, messages⟩)) :
    holds (session.activateBy run locale messages).1 := by
  cases empty : locale.isEmpty with
  | true =>
    rw [activateBy_empty messages empty]
    exact held
  | false =>
    rw [activateBy_eq empty]
    exact tellAll_preserves step begun

/-- An activation that returns has told everyone without a failure. -/
theorem told_of_activateBy {locale : String} {messages : Translations} {state : State}
    (returned : (session.activateBy run locale messages).2 = .ok state) :
    locale.isEmpty = false ∧ (tellAll run locale (session.withState ⟨locale, messages⟩)
      session.store.subscribers).2 = .ok () := by
  cases empty : locale.isEmpty with
  | true =>
    rw [activateBy_empty messages empty] at returned
    cases returned
  | false =>
    rw [activateBy_eq empty] at returned
    refine ⟨rfl, ?_⟩
    cases told : (tellAll run locale (session.withState ⟨locale, messages⟩)
        session.store.subscribers).2 with
    | ok _ => rfl
    | error failure =>
      rw [told] at returned
      cases returned

theorem Runner.IsSafe.activateBy_orderly (safe : run.IsSafe) (locale : String)
    (messages : Translations) (all : session.AllReact Reaction.IsOrderly) :
    (session.activateBy run locale messages).1.AllReact Reaction.IsOrderly := by
  refine activateBy_preserves ?_ all all
  intro before subscriber member kept
  exact safe.tell_orderly (all subscriber member) kept

/-- An activation that returns leaves everyone in step, from whatever state of affairs. -/
theorem Runner.IsSafe.activateBy_inStep (safe : run.IsSafe) {locale : String}
    {messages : Translations} {state : State} (all : session.AllReact Reaction.IsOrderly)
    (returned : (session.activateBy run locale messages).2 = .ok state) :
    (session.activateBy run locale messages).1.InStepExcept [] := by
  obtain ⟨given, told⟩ := told_of_activateBy returned
  rw [activateBy_eq given]
  have begun : (session.withState ⟨locale, messages⟩).AllReact Reaction.IsOrderly := all
  have pending := inStepExcept_all (session.withState ⟨locale, messages⟩)
  exact safe.tellAll_inStep all begun told pending

theorem Runner.IsSafe.subscribeBy_orderly (safe : run.IsSafe) {subscriber : Subscriber World}
    (reacts : subscriber.Reacts Reaction.IsOrderly) (all : session.AllReact Reaction.IsOrderly) :
    (session.subscribeBy run subscriber).1.AllReact Reaction.IsOrderly :=
  safe.orderly (reacts _) (all.added reacts _)

theorem Runner.IsSafe.subscribeBy_inStep (safe : run.IsSafe) {subscriber : Subscriber World}
    (reacts : subscriber.Reacts Reaction.IsOrderly) (all : session.AllReact Reaction.IsOrderly)
    (returned : (session.subscribeBy run subscriber).2 = .ok ())
    (inStep : session.InStepExcept pending) :
    (session.subscribeBy run subscriber).1.InStepExcept pending :=
  safe.inStep (reacts _) (all.added reacts _) returned ((inStep.added subscriber).told _)

end Runs

theorem react_fail (steps : Nat) (session : Session World) (reason : Failure) :
    (react steps session (.fail reason)).1 = session ∧
      (react steps session (.fail reason)).2 ≠ .ok () := by
  cases steps <;> exact ⟨rfl, nofun⟩

theorem react_activate (steps : Nat) (session : Session World) (locale : String)
    (messages : Translations) (next : Except Failure State → Reaction World) :
    react (steps + 1) session (.activate locale messages next) =
      react steps (session.activateBy (react steps) locale messages).1
        (next (session.activateBy (react steps) locale messages).2) := rfl

theorem react_subscribe (steps : Nat) (session : Session World) (token : Nat)
    (reaction : String → Reaction World) (next : Except Failure Unit → Reaction World) :
    react (steps + 1) session (.subscribe token reaction next) =
      react steps (session.subscribeBy (react steps) ⟨token, reaction⟩).1
        (next (session.subscribeBy (react steps) ⟨token, reaction⟩).2) := rfl

section Step

variable {steps : Nat} {session : Session World} {reaction : Reaction World}

theorem react_orderly_succ (safe : (react steps : Runner World).IsSafe)
    (orderly : reaction.IsOrderly) (all : session.AllReact Reaction.IsOrderly) :
    (react (steps + 1) session reaction).1.AllReact Reaction.IsOrderly := by
  cases orderly with
  | passive passive =>
    intro subscriber member
    have follows := react_follows (steps + 1) session passive
    rcases follows.subscribers subscriber member with former | new
    · exact all subscriber former
    · exact fun locale => .passive (new locale)
  | look later => exact safe.orderly (later _ _) all
  | @write world _ later =>
    have same : (session.withWorld world).AllReact Reaction.IsOrderly := all
    exact safe.orderly later same
  | unsubscribe later => exact safe.orderly later (all.unsubscribe _)
  | @activate locale messages next done failed =>
    have kept := safe.activateBy_orderly locale messages all
    rw [react_activate]
    cases activated : (session.activateBy (react steps) locale messages).2 with
    | ok state => exact safe.orderly (done state) kept
    | error failure =>
      obtain ⟨reason, stops⟩ := failed failure
      rw [stops, (react_fail steps _ reason).1]
      exact kept
  | @subscribe token reaction next inner done failed =>
    have reacts : (Subscriber.mk token reaction).Reacts Reaction.IsOrderly := inner
    have kept := safe.subscribeBy_orderly reacts all
    rw [react_subscribe]
    cases subscribed : (session.subscribeBy (react steps) ⟨token, reaction⟩).2 with
    | ok _ => exact safe.orderly done kept
    | error failure =>
      obtain ⟨reason, stops⟩ := failed failure
      rw [stops, (react_fail steps _ reason).1]
      exact kept

theorem react_inStep_succ (safe : (react steps : Runner World).IsSafe)
    {pending : List Nat} (orderly : reaction.IsOrderly)
    (all : session.AllReact Reaction.IsOrderly)
    (returned : (react (steps + 1) session reaction).2 = .ok ())
    (inStep : session.InStepExcept pending) :
    (react (steps + 1) session reaction).1.InStepExcept pending := by
  cases orderly with
  | passive passive => exact (react_follows (steps + 1) session passive).inStep pending inStep
  | look later => exact safe.inStep (later _ _) all returned inStep
  | @write world _ later =>
    have same : (session.withWorld world).AllReact Reaction.IsOrderly := all
    exact safe.inStep later same returned inStep
  | unsubscribe later =>
    exact safe.inStep later (all.unsubscribe _) returned (inStep.unsubscribe _)
  | @activate locale messages next done failed =>
    rw [react_activate] at returned ⊢
    cases activated : (session.activateBy (react steps) locale messages).2 with
    | ok state =>
      rw [activated] at returned
      have renewed := safe.activateBy_inStep all activated
      exact safe.inStep (done state) (safe.activateBy_orderly locale messages all) returned
        (renewed.weaken (List.nil_subset pending))
    | error failure =>
      obtain ⟨reason, stops⟩ := failed failure
      rw [activated, stops] at returned
      exact absurd returned (react_fail steps _ reason).2
  | @subscribe token reaction next inner done failed =>
    have reacts : (Subscriber.mk token reaction).Reacts Reaction.IsOrderly := inner
    rw [react_subscribe] at returned ⊢
    cases subscribed : (session.subscribeBy (react steps) ⟨token, reaction⟩).2 with
    | ok _ =>
      rw [subscribed] at returned
      exact safe.inStep done (safe.subscribeBy_orderly reacts all) returned
        (safe.subscribeBy_inStep reacts all subscribed inStep)
    | error failure =>
      obtain ⟨reason, stops⟩ := failed failure
      rw [subscribed, stops] at returned
      exact absurd returned (react_fail steps _ reason).2

end Step

/-- However many steps there are, running reactions is safe. -/
theorem react_safe (steps : Nat) : (react steps : Runner World).IsSafe := by
  induction steps with
  | zero => exact ⟨fun _ all => all, fun _ _ returned => by cases returned⟩
  | succ steps safe => exact ⟨react_orderly_succ safe, react_inStep_succ safe⟩

end Session

end Phrasebook.Locale

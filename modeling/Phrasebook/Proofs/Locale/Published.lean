import Phrasebook.Proofs.Locale.Fresh

set_option autoImplicit false

/-!
Which states are made active while reactions run, those of activations inside of others counted. What
is active in the end is what was made active last, however activations are nested and however they
end. An activation that returns has told everyone who was subscribed when it began.
-/
namespace Phrasebook.Locale

variable {World : Type}

/-- What is active after states were made active one after another. -/
def State.after (start : State) (published : List State) : State := published.getLast?.getD start

@[simp] theorem State.after_nil (start : State) : start.after [] = start := rfl

theorem State.after_cons (start first : State) (rest : List State) :
    start.after (first :: rest) = first.after rest := by
  simp [after, List.getLast?_cons]

theorem State.after_append (start : State) (published later : List State) :
    start.after (published ++ later) = (start.after published).after later := by
  unfold after
  rw [List.getLast?_append]
  cases later.getLast? with
  | none => rfl
  | some state => rfl

namespace Session

/-! ### What is made active -/

/-- Which states running a reaction makes active, from first to last. -/
abbrev Log (World : Type) := Session World → Reaction World → List State

/-- What telling subscribers a locale makes active. -/
def tellAllLog (run : Runner World) (log : Log World) (locale : String) :
    Session World → List (Subscriber World) → List State
  | _, [] => []
  | session, subscriber :: rest =>
    log (session.withDelivery ⟨subscriber.token, locale, session.store.state⟩)
        (subscriber.react locale) ++
      match tell run locale session subscriber with
      | (session, .ok ()) => tellAllLog run log locale session rest
      | (_, .error _) => []

/-- What activating a locale makes active: that locale, then what those who are told activate. -/
def activateLog (run : Runner World) (log : Log World) (session : Session World)
    (locale : String) (messages : Translations) : List State :=
  if locale.isEmpty then []
  else
    let state : State := ⟨locale, messages⟩
    state :: tellAllLog run log locale (session.withState state) session.store.subscribers

/-- What adding a subscriber makes active. -/
def subscribeLog (log : Log World) (session : Session World) (subscriber : Subscriber World) :
    List State :=
  log ((session.withSubscribers (session.store.subscribers ++ [subscriber])).withDelivery
    ⟨subscriber.token, session.store.state.locale, session.store.state⟩)
    (subscriber.react session.store.state.locale)

/-- What running a reaction for so many steps makes active. -/
def reactLog : Nat → Log World
  | 0, _, _ => []
  | _ + 1, _, .finish => []
  | _ + 1, _, .fail _ => []
  | steps + 1, session, .look next =>
    reactLog steps session (next session.world session.store.state)
  | steps + 1, session, .write world next => reactLog steps (session.withWorld world) next
  | steps + 1, session, .activate locale messages next =>
    let (after, result) := session.activateBy (react steps) locale messages
    session.activateLog (react steps) (reactLog steps) locale messages ++
      reactLog steps after (next result)
  | steps + 1, session, .subscribe token reaction next =>
    let (after, result) := session.subscribeBy (react steps) ⟨token, reaction⟩
    session.subscribeLog (reactLog steps) ⟨token, reaction⟩ ++ reactLog steps after (next result)
  | steps + 1, session, .unsubscribe token next =>
    reactLog steps (session.unsubscribe token) next

/-- What an operation makes active. -/
def performLog (steps : Nat) (session : Session World) : Operation World → List State
  | .subscribe subscriber => session.subscribeLog (reactLog steps) subscriber
  | .unsubscribe _ => []
  | .activate locale messages => session.activateLog (react steps) (reactLog steps) locale messages
  | .reset => session.activateLog (react steps) (reactLog steps) session.store.defaultLocale []

/-! ### What is active in the end -/

/-- A log tells what is active after the reaction was run. -/
def Runner.HasLog (run : Runner World) (log : Log World) : Prop :=
  ∀ session reaction, (run session reaction).1.store.state =
    session.store.state.after (log session reaction)

section Logs

variable {run : Runner World} {log : Log World}

theorem Runner.HasLog.tell (logged : run.HasLog log) (locale : String) (session : Session World)
    (subscriber : Subscriber World) :
    (tell run locale session subscriber).1.store.state = session.store.state.after
      (log (session.withDelivery ⟨subscriber.token, locale, session.store.state⟩)
        (subscriber.react locale)) := by
  exact logged (session.withDelivery ⟨subscriber.token, locale, session.store.state⟩) _

theorem Runner.HasLog.tellAll (logged : run.HasLog log) (locale : String)
    (session : Session World) (subscribers : List (Subscriber World)) :
    (tellAll run locale session subscribers).1.store.state =
      session.store.state.after (tellAllLog run log locale session subscribers) := by
  induction subscribers generalizing session with
  | nil => rfl
  | cons subscriber rest ih =>
    have first := logged.tell locale session subscriber
    rw [Session.tellAll, tellAllLog, State.after_append, ← first]
    rcases Session.tell run locale session subscriber with ⟨told, _ | _⟩
    · rfl
    · exact ih told

theorem Runner.HasLog.activateBy (logged : run.HasLog log) (session : Session World)
    (locale : String) (messages : Translations) :
    (session.activateBy run locale messages).1.store.state =
      session.store.state.after (session.activateLog run log locale messages) := by
  cases empty : locale.isEmpty with
  | true =>
    rw [activateBy_empty messages empty, activateLog, if_pos empty]
    rfl
  | false =>
    rw [activateBy_eq empty, activateLog, if_neg (by simp [empty]), State.after_cons]
    exact logged.tellAll locale (session.withState ⟨locale, messages⟩) session.store.subscribers

end Logs

theorem react_hasLog (steps : Nat) : (react steps : Runner World).HasLog (reactLog steps) := by
  induction steps with
  | zero =>
    intro session reaction
    rfl
  | succ steps ih =>
    intro session reaction
    cases reaction with
    | finish => rfl
    | fail failure => rfl
    | look next => exact ih session _
    | write world next => exact ih (session.withWorld world) next
    | unsubscribe token next => exact ih (session.unsubscribe token) next
    | activate locale messages next =>
      have inner := ih.activateBy session locale messages
      rw [react_activate, ih, inner, ← State.after_append]
      rfl
    | subscribe token reaction next =>
      have inner : (session.subscribeBy (react steps) ⟨token, reaction⟩).1.store.state =
          session.store.state.after (session.subscribeLog (reactLog steps) ⟨token, reaction⟩) :=
        ih _ _
      rw [react_subscribe, ih, inner, ← State.after_append]
      rfl

/-- What is active after an operation is what it made active last. -/
theorem perform_state (steps : Nat) (session : Session World) (operation : Operation World) :
    (session.perform steps operation).1.store.state =
      session.store.state.after (session.performLog steps operation) := by
  cases operation with
  | subscribe subscriber => exact react_hasLog steps _ _
  | unsubscribe token => rfl
  | activate locale messages => exact (react_hasLog steps).activateBy session locale messages
  | reset => exact (react_hasLog steps).activateBy session session.store.defaultLocale []

/-! ### Who is told -/

/-- A way to run reactions that forgets no delivery. -/
def Runner.Remembers (run : Runner World) : Prop :=
  ∀ session reaction, session.deliveries <+: (run session reaction).1.deliveries

section Remembering

variable {run : Runner World}

theorem Runner.Remembers.tell (remembers : run.Remembers) (locale : String)
    (session : Session World) (subscriber : Subscriber World) :
    session.deliveries ++ [⟨subscriber.token, locale, session.store.state⟩] <+:
      (tell run locale session subscriber).1.deliveries :=
  remembers (session.withDelivery ⟨subscriber.token, locale, session.store.state⟩) _

theorem Runner.Remembers.tellAll (remembers : run.Remembers) (locale : String)
    (session : Session World) (subscribers : List (Subscriber World)) :
    session.deliveries <+: (tellAll run locale session subscribers).1.deliveries := by
  have step : ∀ before : Session World, ∀ subscriber ∈ subscribers,
      session.deliveries <+: before.deliveries →
        session.deliveries <+: (Session.tell run locale before subscriber).1.deliveries := by
    intro before subscriber _ kept
    have told := remembers.tell locale before subscriber
    exact kept.trans ((List.prefix_append _ _).trans told)
  exact @tellAll_preserves World run session (fun after => session.deliveries <+: after.deliveries)
    locale subscribers step List.prefix_rfl

theorem Runner.Remembers.activateBy (remembers : run.Remembers) (session : Session World)
    (locale : String) (messages : Translations) :
    session.deliveries <+: (session.activateBy run locale messages).1.deliveries := by
  cases empty : locale.isEmpty with
  | true =>
    rw [activateBy_empty messages empty]
  | false =>
    rw [activateBy_eq empty]
    exact remembers.tellAll locale (session.withState ⟨locale, messages⟩) session.store.subscribers

/-- Telling subscribers without a failure tells each of them. -/
theorem Runner.Remembers.tells (remembers : run.Remembers) {locale : String}
    {session : Session World} {subscribers : List (Subscriber World)}
    (returned : (Session.tellAll run locale session subscribers).2 = .ok ()) :
    ∀ subscriber ∈ subscribers,
      ∃ delivery ∈ (Session.tellAll run locale session subscribers).1.deliveries.drop
        session.deliveries.length,
        delivery.token = subscriber.token ∧ delivery.locale = locale := by
  induction subscribers generalizing session with
  | nil =>
    intro subscriber member
    cases member
  | cons first rest ih =>
    cases told : (Session.tell run locale session first).2 with
    | error failure =>
      rw [tellAll_cons_error rest told] at returned
      cases returned
    | ok _ =>
      rw [tellAll_cons_ok rest told] at returned ⊢
      obtain ⟨more, kept⟩ := remembers.tell locale session first
      obtain ⟨further, whole⟩ := remembers.tellAll locale
        (Session.tell run locale session first).1 rest
      intro subscriber member
      rcases List.mem_cons.mp member with rfl | other
      · refine ⟨⟨subscriber.token, locale, session.store.state⟩, ?_, rfl, rfl⟩
        rw [← whole, ← kept, List.append_assoc, List.append_assoc, List.drop_left]
        simp
      · obtain ⟨delivery, recent, token, same⟩ := ih returned subscriber other
        refine ⟨delivery, ?_, token, same⟩
        have shorter : session.deliveries.length ≤
            (Session.tell run locale session first).1.deliveries.length := by
          rw [← kept, List.length_append, List.length_append]
          omega
        exact List.drop_subset_drop_left _ shorter recent

end Remembering

theorem react_remembers (steps : Nat) : (react steps : Runner World).Remembers := by
  induction steps with
  | zero =>
    intro session reaction
    exact List.prefix_rfl
  | succ steps ih =>
    intro session reaction
    cases reaction with
    | finish => exact List.prefix_rfl
    | fail failure => exact List.prefix_rfl
    | look next => exact ih session _
    | write world next => exact ih (session.withWorld world) next
    | unsubscribe token next => exact ih (session.unsubscribe token) next
    | activate locale messages next =>
      rw [react_activate]
      exact (ih.activateBy session locale messages).trans (ih _ _)
    | subscribe token reaction next =>
      have inner := ih.tell session.store.state.locale
        (session.withSubscribers (session.store.subscribers ++ [⟨token, reaction⟩]))
        ⟨token, reaction⟩
      rw [react_subscribe]
      exact ((List.prefix_append _ _).trans inner).trans (ih _ _)

/-- An activation that returns has told everyone who was subscribed when it began. -/
theorem activate_tells (steps : Nat) {session : Session World} {locale : String}
    {messages : Translations} {state : State}
    (returned : (session.activate steps locale messages).2 = .ok state) :
    ∀ subscriber ∈ session.store.subscribers,
      ∃ delivery ∈ (session.activate steps locale messages).1.deliveries.drop
        session.deliveries.length,
        delivery.token = subscriber.token ∧ delivery.locale = locale := by
  obtain ⟨given, told⟩ := told_of_activateBy returned
  rw [activate, activateBy_eq given]
  exact (react_remembers steps).tells told

/-! ### Passive reactions -/

/-- Passive reactions make nothing active. -/
theorem reactLog_passive (steps : Nat) (session : Session World) {reaction : Reaction World}
    (passive : reaction.IsPassive) : reactLog steps session reaction = [] := by
  induction steps generalizing session reaction with
  | zero => rfl
  | succ steps ih =>
    cases passive with
    | finish => rfl
    | fail failure => rfl
    | look later => exact ih session (later _ _)
    | write later => exact ih _ later
    | unsubscribe later => exact ih _ later
    | @subscribe token react next inner later =>
      have first : session.subscribeLog (reactLog steps) ⟨token, react⟩ = [] := ih _ (inner _)
      show session.subscribeLog (reactLog steps) ⟨token, react⟩ ++ reactLog steps _ _ = []
      rw [first, ih _ (later _), List.append_nil]

theorem tellAllLog_passive (steps : Nat) (locale : String) (session : Session World)
    {subscribers : List (Subscriber World)}
    (passive : ∀ subscriber ∈ subscribers, subscriber.Reacts Reaction.IsPassive) :
    tellAllLog (react steps) (reactLog steps) locale session subscribers = [] := by
  induction subscribers generalizing session with
  | nil => rfl
  | cons subscriber rest ih =>
    obtain ⟨own, others⟩ := List.forall_mem_cons.mp passive
    rw [tellAllLog, reactLog_passive steps _ (own locale), List.nil_append]
    split
    · exact ih _ others
    · rfl

theorem performLog_activate_passive (steps : Nat) {session : Session World} (locale : String)
    (messages : Translations) (all : session.AllReact Reaction.IsPassive) :
    session.performLog steps (.activate locale messages) =
      ((Operation.activate locale messages : Operation World).activated?
        session.store.defaultLocale).toList := by
  have told := tellAllLog_passive steps locale (session.withState ⟨locale, messages⟩) all
  rw [performLog, activateLog, Operation.activated?]
  dsimp only
  rw [told]
  by_cases empty : locale.isEmpty = true
  · rw [if_pos empty, if_pos empty]
    rfl
  · rw [if_neg empty, if_neg empty]
    rfl

/-- Among passive subscribers an operation makes active what it is to activate and nothing else. -/
theorem performLog_passive (steps : Nat) {session : Session World} {operation : Operation World}
    (all : session.AllReact Reaction.IsPassive) (reacts : operation.Reacts Reaction.IsPassive) :
    session.performLog steps operation =
      (operation.activated? session.store.defaultLocale).toList := by
  cases operation with
  | subscribe subscriber => exact reactLog_passive steps _ (reacts subscriber rfl _)
  | unsubscribe token => rfl
  | activate locale messages => exact performLog_activate_passive steps locale messages all
  | reset => exact performLog_activate_passive steps session.store.defaultLocale [] all

theorem activateBy_passive (steps : Nat) {session : Session World} (locale : String)
    (messages : Translations) (all : session.AllReact Reaction.IsPassive) :
    (session.activateBy (react steps) locale messages).1.AllReact Reaction.IsPassive := by
  refine activateBy_preserves ?_ all all
  intro before subscriber member kept
  exact (react_follows steps _ (all subscriber member locale)).allPassive kept

/-- Among passive subscribers all stay passive. -/
theorem perform_passive (steps : Nat) {session : Session World} {operation : Operation World}
    (all : session.AllReact Reaction.IsPassive) (reacts : operation.Reacts Reaction.IsPassive) :
    (session.perform steps operation).1.AllReact Reaction.IsPassive := by
  cases operation with
  | subscribe subscriber =>
    exact (subscribeBy_follows steps session (reacts subscriber rfl)).allPassive all
  | unsubscribe token => exact all.unsubscribe token
  | activate locale messages => exact activateBy_passive steps locale messages all
  | reset => exact activateBy_passive steps session.store.defaultLocale [] all

end Session

end Phrasebook.Locale

import Phrasebook.Translate

set_option autoImplicit false

/-!
The active locale together with its catalog, translating with both, and the store that keeps them.
Subscribers are told the locale when they subscribe and each time one is activated. What a subscriber
does then may use the store again: it may activate a locale, subscribe and unsubscribe, or fail,
which ends the operation that told it.

`World` is what the application keeps besides the store.
-/
namespace Phrasebook.Locale

/-! ### States -/

/-- A locale with its catalog. The two are replaced together. -/
structure State where
  locale : String
  messages : Translations
  deriving DecidableEq, Repr

/-- Why an operation on the active locale fails. -/
inductive Failure where
  | emptyLocale
  /-- A subscriber refuses. -/
  | refused
  /-- A catalog cannot be loaded. -/
  | notLoaded
  | translation (failure : TranslateFailure)
  /-- Subscribers go on without end. -/
  | endless
  deriving DecidableEq, Repr

namespace State

/-- The text of a statement with its arguments. -/
def translate [Plural.Rules] (state : State) (statement : Statement) (args : List Value) :
    Except TranslateFailure Message.Formatted := do
  let descriptor ← (Descriptor.ofStatement statement args).mapError .descriptor
  Phrasebook.translate descriptor state.locale state.messages .none

/-- The text of variations for a number. -/
def translatePlural [Plural.Rules] (state : State) (number : Value)
    (variations : Plural.Variations) : Except TranslateFailure Message.Formatted :=
  Phrasebook.translatePlural number variations state.locale state.messages

end State

/-! ### The store -/

/-- What is done when a subscriber is told a locale, step by step. -/
inductive Reaction (World : Type) where
  | finish
  | fail (failure : Failure)
  /-- Goes on by what the application keeps and what is active now. -/
  | look (next : World → State → Reaction World)
  /-- Changes what the application keeps. -/
  | write (world : World) (next : Reaction World)
  | activate (locale : String) (messages : Translations)
      (next : Except Failure State → Reaction World)
  | subscribe (token : Nat) (react : String → Reaction World)
      (next : Except Failure Unit → Reaction World)
  | unsubscribe (token : Nat) (next : Reaction World)

/-- A subscriber. Its token tells it from others. -/
structure Subscriber (World : Type) where
  token : Nat
  react : String → Reaction World

structure Store (World : Type) where
  state : State
  /-- In the order in which they subscribed. -/
  subscribers : List (Subscriber World)
  defaultLocale : String

/-- A subscriber was told a locale while a state was active. -/
structure Delivery where
  token : Nat
  locale : String
  state : State
  deriving DecidableEq, Repr

/-- A store with the world around it and all deliveries so far. -/
structure Session (World : Type) where
  store : Store World
  world : World
  deliveries : List Delivery

variable {World : Type}

/-- A store without subscribers. -/
def Store.create (defaultLocale : String) (messages : Translations) : Store World :=
  ⟨⟨defaultLocale, messages⟩, [], defaultLocale⟩

/-- Removes the first subscriber with a token. -/
def removeFirst (token : Nat) : List (Subscriber World) → List (Subscriber World)
  | [] => []
  | first :: rest => if first.token = token then rest else first :: removeFirst token rest

namespace Session

def withState (session : Session World) (state : State) : Session World :=
  ⟨⟨state, session.store.subscribers, session.store.defaultLocale⟩, session.world,
    session.deliveries⟩

def withSubscribers (session : Session World) (subscribers : List (Subscriber World)) :
    Session World :=
  ⟨⟨session.store.state, subscribers, session.store.defaultLocale⟩, session.world,
    session.deliveries⟩

def withWorld (session : Session World) (world : World) : Session World :=
  ⟨session.store, world, session.deliveries⟩

def withDelivery (session : Session World) (delivery : Delivery) : Session World :=
  ⟨session.store, session.world, session.deliveries ++ [delivery]⟩

/-- Takes the first subscriber with a token off the list. -/
def unsubscribe (session : Session World) (token : Nat) : Session World :=
  session.withSubscribers (removeFirst token session.store.subscribers)

/-- How a reaction is run. -/
abbrev Runner (World : Type) :=
  Session World → Reaction World → Session World × Except Failure Unit

/-- Tells a subscriber a locale. -/
def tell (run : Runner World) (locale : String) (session : Session World)
    (subscriber : Subscriber World) : Session World × Except Failure Unit :=
  run (session.withDelivery ⟨subscriber.token, locale, session.store.state⟩)
    (subscriber.react locale)

/-- Tells subscribers a locale, one after another, up to the first that fails. -/
def tellAll (run : Runner World) (locale : String) :
    Session World → List (Subscriber World) → Session World × Except Failure Unit
  | session, [] => (session, .ok ())
  | session, subscriber :: rest =>
    match tell run locale session subscriber with
    | (session, .ok ()) => tellAll run locale session rest
    | (session, .error failure) => (session, .error failure)

/-- Activates a locale with its catalog and tells those who are subscribed at that time. -/
def activateBy (run : Runner World) (session : Session World) (locale : String)
    (messages : Translations) : Session World × Except Failure State :=
  if locale.isEmpty then (session, .error .emptyLocale)
  else
    let state : State := ⟨locale, messages⟩
    match tellAll run locale (session.withState state) session.store.subscribers with
    | (session, .ok ()) => (session, .ok state)
    | (session, .error failure) => (session, .error failure)

/-- Adds a subscriber and tells it the active locale. It stays on the list if it fails then. -/
def subscribeBy (run : Runner World) (session : Session World) (subscriber : Subscriber World) :
    Session World × Except Failure Unit :=
  tell run session.store.state.locale
    (session.withSubscribers (session.store.subscribers ++ [subscriber])) subscriber

/-- Runs a reaction for at most so many steps, those of the reactions in it counted. -/
def react : Nat → Runner World
  | 0, session, _ => (session, .error .endless)
  | _ + 1, session, .finish => (session, .ok ())
  | _ + 1, session, .fail failure => (session, .error failure)
  | steps + 1, session, .look next =>
    react steps session (next session.world session.store.state)
  | steps + 1, session, .write world next => react steps (session.withWorld world) next
  | steps + 1, session, .activate locale messages next =>
    let (session, result) := session.activateBy (react steps) locale messages
    react steps session (next result)
  | steps + 1, session, .subscribe token reaction next =>
    let (session, result) := session.subscribeBy (react steps) ⟨token, reaction⟩
    react steps session (next result)
  | steps + 1, session, .unsubscribe token next => react steps (session.unsubscribe token) next

/-- Activates a locale with its catalog. -/
def activate (session : Session World) (steps : Nat) (locale : String) (messages : Translations) :
    Session World × Except Failure State :=
  session.activateBy (react steps) locale messages

/-- Goes back to the locale of the start, without a catalog. -/
def reset (session : Session World) (steps : Nat) : Session World × Except Failure State :=
  session.activate steps session.store.defaultLocale []

/-- Adds a subscriber and tells it the active locale. -/
def subscribe (session : Session World) (steps : Nat) (subscriber : Subscriber World) :
    Session World × Except Failure Unit :=
  session.subscribeBy (react steps) subscriber

end Session

/-- A value that follows from what is active. -/
structure Derived (α : Type) where
  compute : State → α

namespace Derived

variable {α : Type}

def get (derived : Derived α) (store : Store World) : α := derived.compute store.state

/-- Reacts to each change with the value that follows from what is active then. -/
def onChange (derived : Derived α) (react : α → Reaction World) : String → Reaction World :=
  fun _ => .look fun _ state => react (derived.compute state)

end Derived

end Phrasebook.Locale

import Phrasebook.Locale.Store

set_option autoImplicit false

/-!
Switching to locales whose catalogs have to be loaded. Switches run one after another in the order
in which they were started: a catalog is not asked for before every earlier switch has ended.
-/
namespace Phrasebook.Locale

variable {World : Type}

/-- What loading a catalog does, step by step. -/
inductive Loading (World : Type) where
  | loaded (messages : Translations)
  | failed
  /-- Changes what the application keeps. -/
  | write (change : World → World) (next : Loading World)
  /-- Lets others go on first. -/
  | suspend (next : Loading World)

/-- How many steps loading takes. -/
def Loading.steps : Loading World → Nat
  | loaded _ => 1
  | failed => 1
  | write _ next => next.steps + 1
  | suspend next => next.steps + 1

/-- A switch to a locale by means of a loader. -/
structure Switch (World : Type) where
  locale : String
  load : String → Loading World

/-- The switches of an event loop: those that wait, the one that loads, and the results of those
that have ended. -/
structure Loop (World : Type) where
  session : Session World
  waiting : List (Switch World)
  running : Option (String × Loading World)
  results : List (Except Failure State)

namespace Loop

/-- One step of the switch that loads, or the start of the next one. -/
def turn (steps : Nat) (loop : Loop World) : Loop World :=
  match loop.running with
  | none =>
    match loop.waiting with
    | [] => loop
    | first :: rest =>
      ⟨loop.session, rest, some (first.locale, first.load first.locale), loop.results⟩
  | some (locale, .write change next) =>
    ⟨loop.session.withWorld (change loop.session.world), loop.waiting, some (locale, next),
      loop.results⟩
  | some (locale, .suspend next) => ⟨loop.session, loop.waiting, some (locale, next), loop.results⟩
  | some (_, .failed) =>
    ⟨loop.session, loop.waiting, none, loop.results ++ [.error .notLoaded]⟩
  | some (locale, .loaded messages) =>
    let (session, result) := loop.session.activate steps locale messages
    ⟨session, loop.waiting, none, loop.results ++ [result]⟩

/-- So many turns. -/
def turns (steps : Nat) : Nat → Loop World → Loop World
  | 0, loop => loop
  | count + 1, loop => turns steps count (loop.turn steps)

/-- How many turns all switches take. -/
def turnCount : List (Switch World) → Nat
  | [] => 0
  | switch :: rest => (switch.load switch.locale).steps + 1 + turnCount rest

/-- Runs switches to their ends. -/
def runAll (steps : Nat) (session : Session World) (switches : List (Switch World)) :
    Session World × List (Except Failure State) :=
  let loop := turns steps (turnCount switches) ⟨session, switches, none, []⟩
  (loop.session, loop.results)

end Loop

end Phrasebook.Locale

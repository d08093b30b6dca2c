import Phrasebook.Proofs.Locale.Published
import Phrasebook.Proofs.Locale.Schedule

set_option autoImplicit false

/-!
What is active while switches run. A switch that fails changes nothing and tells nobody; those that
end well make their own states active, in the order in which they were started. So what is active when
all have ended is the state of the last one that ended well, unless something was activated directly
after it.
-/
namespace Phrasebook.Locale

open Filter (atTop)
open Happening (started)

variable {World : Type}

namespace Happening

/-- The reactions of the subscriber that is added are of a kind. -/
def Reacts (kind : Reaction World → Prop) : Happening World → Prop
  | operate operation => operation.Reacts kind
  | _ => True

theorem Reacts.passive {happening : Happening World}
    (smooth : happening.Reacts Reaction.IsSmooth) : happening.Reacts Reaction.IsPassive := by
  cases happening with
  | start switch => trivial
  | turn => trivial
  | operate operation =>
    intro subscriber added locale
    exact (smooth subscriber added locale).isPassive

end Happening

/-- A state becomes active, by the switch that made it or by anyone else. -/
inductive Publication where
  | switched (state : State)
  | direct (state : State)
  deriving DecidableEq, Repr

namespace Publication

def state : Publication → State
  | switched state => state
  | direct state => state

def switched? : Publication → Option State
  | switched state => some state
  | direct _ => none

end Publication

namespace Loop

/-- What a happening makes active. A switch makes its own state active, and whatever else those who
are told activate is activated directly. -/
def publishes (steps : Nat) (loop : Loop World) : Happening World → List Publication
  | .start _ => []
  | .operate operation => (loop.session.performLog steps operation).map .direct
  | .turn =>
    match loop.running with
    | some (locale, .loaded messages) =>
      match loop.session.activateLog (Session.react steps) (Session.reactLog steps) locale
        messages with
      | [] => []
      | own :: others => .switched own :: others.map .direct
    | _ => []

/-- What a run makes active, from first to last. -/
def publications (steps : Nat) : Loop World → List (Happening World) → List Publication
  | _, [] => []
  | loop, happening :: rest =>
    loop.publishes steps happening ++ publications steps (loop.happen steps happening) rest

/-! ### What becomes active -/

section Publications

variable {steps : Nat} {loop : Loop World}

theorem map_direct_state (states : List State) :
    (states.map Publication.direct).map Publication.state = states := by
  rw [List.map_map]
  exact List.map_id states

theorem filterMap_direct (states : List State) :
    (states.map Publication.direct).filterMap Publication.switched? = [] := by
  rw [List.filterMap_map, List.filterMap_eq_nil_iff]
  intro state _
  rfl

/-- What a turn makes active, forgetting who did. -/
theorem publishes_turn_state {locale : String} {messages : Translations}
    (busy : loop.running = some (locale, .loaded messages)) :
    (loop.publishes steps .turn).map Publication.state =
      loop.session.activateLog (Session.react steps) (Session.reactLog steps) locale
        messages := by
  simp only [publishes, busy]
  split
  · rename_i none
    rw [none]
    rfl
  · rename_i own others log
    rw [log, List.map_cons, map_direct_state]
    rfl

/-- What is active after a happening is what it made active last. -/
theorem happen_state (steps : Nat) (loop : Loop World) (happening : Happening World) :
    (loop.happen steps happening).session.store.state =
      loop.session.store.state.after
        ((loop.publishes steps happening).map Publication.state) := by
  cases happening with
  | start switch => rfl
  | operate operation =>
    have performed := Session.perform_state steps loop.session operation
    unfold publishes
    rw [map_direct_state]
    exact performed
  | turn =>
    unfold happen
    rcases running : loop.running with _ | ⟨locale, loading⟩
    · cases waiting : loop.waiting with
      | nil => simp only [turn_none_nil running waiting, publishes, running, List.map_nil,
          State.after_nil]
      | cons first rest => simp only [turn_none_cons running waiting, publishes, running,
          List.map_nil, State.after_nil]
    · cases loading with
      | write change next => simp only [turn_write running, publishes, running, List.map_nil,
          State.after_nil, Session.withWorld_store]
      | suspend next => simp only [turn_suspend running, publishes, running, List.map_nil,
          State.after_nil]
      | failed => simp only [turn_failed running, publishes, running, List.map_nil,
          State.after_nil]
      | loaded messages =>
        have activated := (Session.react_hasLog steps).activateBy loop.session locale messages
        rw [publishes_turn_state running, turn_loaded running]
        exact activated

/-- What is active after a run is what it made active last. -/
theorem run_state (steps : Nat) (loop : Loop World) (happenings : List (Happening World)) :
    (loop.happenAll steps happenings).session.store.state =
      loop.session.store.state.after
        ((loop.publications steps happenings).map Publication.state) := by
  induction happenings generalizing loop with
  | nil => rfl
  | cons happening rest ih =>
    rw [publications, List.map_append, State.after_append, ← happen_state]
    exact ih (loop.happen steps happening)

/-- A turn in which no switch ends well leaves alone what is active and tells nobody. -/
structure Spares (steps : Nat) (loop : Loop World) : Prop where
  store : (loop.turn steps).session.store = loop.session.store
  deliveries : (loop.turn steps).session.deliveries = loop.session.deliveries
  publications : loop.publishes steps .turn = []

/-- A turn in which a switch ends well makes its state active and tells it to everyone. -/
structure Announces (steps : Nat) (loop : Loop World) (state : State) : Prop where
  published : ∃ others : List State, loop.publishes steps .turn = .switched state :: others.map .direct
  told : ∀ subscriber ∈ loop.session.store.subscribers,
    ∃ delivery ∈ (loop.turn steps).session.deliveries.drop loop.session.deliveries.length,
      delivery.token = subscriber.token ∧ delivery.locale = state.locale

/-- How a turn ends: a switch ends well, a switch fails, or none ends. -/
inductive TurnEnds (steps : Nat) (loop : Loop World) : Prop where
  | well {state : State} (results : (loop.turn steps).results = loop.results ++ [.ok state])
      (announces : loop.Announces steps state)
  | badly {failure : Failure}
      (results : (loop.turn steps).results = loop.results ++ [.error failure])
      (spares : loop.Spares steps)
  | later (results : (loop.turn steps).results = loop.results) (spares : loop.Spares steps)

theorem loaded_ends {locale : String} {messages : Translations}
    (busy : loop.running = some (locale, .loaded messages)) (admits : loop.Admits steps .turn) :
    loop.TurnEnds steps := by
  have turned : loop.turn steps = _ := turn_loaded busy
  cases empty : locale.isEmpty with
  | true =>
    have refused : loop.session.activate steps locale messages =
        (loop.session, .error .emptyLocale) := Session.activateBy_empty messages empty
    rw [refused] at turned
    refine .badly (congrArg Loop.results turned) ⟨?_, ?_, ?_⟩
    · rw [turned]
    · rw [turned]
    · simp only [publishes, busy, Session.activateLog, empty, if_true]
  | false =>
    have returned : (loop.session.activate steps locale messages).2 = .ok ⟨locale, messages⟩ := by
      simp only [Admits, busy] at admits
      exact admits empty
    have results : (loop.turn steps).results = loop.results ++ [.ok ⟨locale, messages⟩] := by
      rw [turned, returned]
    refine .well results ⟨?_, ?_⟩
    · simp only [publishes, busy, Session.activateLog, empty]
      exact ⟨_, rfl⟩
    · rw [turned]
      exact Session.activate_tells steps returned

theorem turn_ends (admits : loop.Admits steps .turn) : loop.TurnEnds steps := by
  rcases running : loop.running with _ | ⟨locale, loading⟩
  · have nothing : loop.publishes steps .turn = [] := by simp only [publishes, running]
    cases waiting : loop.waiting with
    | nil =>
      have turned : loop.turn steps = loop := turn_none_nil running waiting
      exact .later (by rw [turned]) ⟨by rw [turned], by rw [turned], nothing⟩
    | cons first rest =>
      have turned : loop.turn steps = _ := turn_none_cons running waiting
      exact .later (by rw [turned]) ⟨by rw [turned], by rw [turned], nothing⟩
  · cases loading with
    | write change next =>
      have turned : loop.turn steps = _ := turn_write running
      have nothing : loop.publishes steps .turn = [] := by simp only [publishes, running]
      refine .later (by rw [turned]) ⟨?_, ?_, nothing⟩
      · rw [turned, Session.withWorld_store]
      · rw [turned, Session.withWorld_deliveries]
    | suspend next =>
      have turned : loop.turn steps = _ := turn_suspend running
      have nothing : loop.publishes steps .turn = [] := by simp only [publishes, running]
      exact .later (by rw [turned]) ⟨by rw [turned], by rw [turned], nothing⟩
    | failed =>
      have turned : loop.turn steps = _ := turn_failed running
      have nothing : loop.publishes steps .turn = [] := by simp only [publishes, running]
      exact .badly (congrArg Loop.results turned) ⟨by rw [turned], by rw [turned], nothing⟩
    | loaded messages => exact loaded_ends running admits

/-- The states that switches make active are those of the switches that end well. -/
theorem happen_switched {happening : Happening World} (admits : loop.Admits steps happening) :
    (loop.happen steps happening).results.filterMap Except.toOption =
      loop.results.filterMap Except.toOption ++
        (loop.publishes steps happening).filterMap Publication.switched? := by
  cases happening with
  | start switch => exact (List.append_nil _).symm
  | operate operation =>
    unfold publishes
    rw [filterMap_direct, List.append_nil]
    rfl
  | turn =>
    show (loop.turn steps).results.filterMap Except.toOption = _
    cases turn_ends admits with
    | @well state results announces =>
      obtain ⟨others, published⟩ := announces.published
      have own : (Publication.switched state :: others.map .direct).filterMap
          Publication.switched? = [state] := by
        rw [List.filterMap_cons]
        exact congrArg (state :: ·) (filterMap_direct others)
      rw [results, published, own, List.filterMap_append]
      rfl
    | badly results spares =>
      rw [results, spares.publications, List.filterMap_append]
      rfl
    | later results spares =>
      rw [results, spares.publications]
      exact (List.append_nil _).symm

theorem run_switched {happenings : List (Happening World)}
    (admits : loop.AdmitsAll steps happenings) :
    (loop.happenAll steps happenings).results.filterMap Except.toOption =
      loop.results.filterMap Except.toOption ++
        (loop.publications steps happenings).filterMap Publication.switched? := by
  induction happenings generalizing loop with
  | nil => exact (List.append_nil _).symm
  | cons happening rest ih =>
    obtain ⟨own, later⟩ := admits
    rw [publications, List.filterMap_append, ← List.append_assoc, ← happen_switched own]
    exact ih later

end Publications

/-- If nobody else comes last, then what became active last was made so by the last switch. -/
theorem last_switched {publications : List Publication}
    (undisturbed : ∀ state, publications.getLast? ≠ some (.direct state)) (start : State) :
    start.after (publications.map Publication.state) =
      start.after (publications.filterMap Publication.switched?) := by
  induction publications using List.reverseRecOn with
  | nil => rfl
  | append_singleton earlier last _ =>
    cases last with
    | switched state =>
      rw [List.map_append, List.filterMap_append, State.after_append, State.after_append]
      rfl
    | direct state =>
      have absurdly := undisturbed state
      rw [List.getLast?_concat] at absurdly
      exact absurd rfl absurdly

/-! ### Smooth subscribers -/

section Smooth

variable {loop : Loop World}

/-- With enough steps a happening among smooth subscribers always comes to the same, and no
subscriber fails. -/
theorem turn_settles (all : loop.session.AllReact Reaction.IsSmooth) :
    ∃ after : Loop World, after.session.AllReact Reaction.IsSmooth ∧
      ∀ᶠ steps in atTop, loop.Admits steps .turn ∧ loop.turn steps = after := by
  rcases running : loop.running with _ | ⟨locale, loading⟩
  · cases waiting : loop.waiting with
    | nil =>
      refine ⟨loop, all, .of_forall fun steps => ⟨?_, turn_none_nil running waiting⟩⟩
      simp only [Admits, running]
    | cons first rest =>
      refine ⟨⟨loop.session, rest, some (first.locale, first.load first.locale), loop.results⟩, all,
        .of_forall fun steps => ⟨?_, turn_none_cons running waiting⟩⟩
      simp only [Admits, running]
  · cases loading with
    | write change next =>
      refine ⟨⟨loop.session.withWorld (change loop.session.world), loop.waiting,
        some (locale, next), loop.results⟩, all,
        .of_forall fun steps => ⟨?_, turn_write running⟩⟩
      simp only [Admits, running]
    | suspend next =>
      refine ⟨⟨loop.session, loop.waiting, some (locale, next), loop.results⟩, all,
        .of_forall fun steps => ⟨?_, turn_suspend running⟩⟩
      simp only [Admits, running]
    | failed =>
      refine ⟨⟨loop.session, loop.waiting, none, loop.results ++ [.error .notLoaded]⟩, all,
        .of_forall fun steps => ⟨?_, turn_failed running⟩⟩
      simp only [Admits, running]
    | loaded messages =>
      obtain ⟨after, kept, done⟩ := Session.activateBy_settles locale messages all
      refine ⟨⟨after, loop.waiting, none, loop.results ++
        [if locale.isEmpty then .error .emptyLocale else .ok ⟨locale, messages⟩]⟩, kept, ?_⟩
      filter_upwards [done] with steps ended
      have activated : loop.session.activate steps locale messages = _ := ended
      constructor
      · simp only [Admits, running]
        intro given
        rw [activated, given]
        rfl
      · rw [turn_loaded running, activated]

theorem happen_settles {happening : Happening World}
    (all : loop.session.AllReact Reaction.IsSmooth) (reacts : happening.Reacts Reaction.IsSmooth) :
    ∃ after : Loop World, after.session.AllReact Reaction.IsSmooth ∧
      ∀ᶠ steps in atTop, loop.Admits steps happening ∧ loop.happen steps happening = after := by
  cases happening with
  | start switch =>
    exact ⟨⟨loop.session, loop.waiting ++ [switch], loop.running, loop.results⟩, all,
      .of_forall fun steps => ⟨trivial, rfl⟩⟩
  | turn => exact turn_settles all
  | operate operation =>
    obtain ⟨after, result, kept, done, -⟩ := Session.perform_settles all reacts
    refine ⟨⟨after, loop.waiting, loop.running, loop.results⟩, kept, ?_⟩
    filter_upwards [done] with steps ended
    refine ⟨trivial, ?_⟩
    rw [happen, ended]

theorem run_admits {happenings : List (Happening World)}
    (all : loop.session.AllReact Reaction.IsSmooth)
    (reacts : ∀ happening ∈ happenings, happening.Reacts Reaction.IsSmooth) :
    ∀ᶠ steps in atTop, loop.AdmitsAll steps happenings := by
  induction happenings generalizing loop with
  | nil => exact .of_forall fun _ => trivial
  | cons happening rest ih =>
    obtain ⟨own, later⟩ := List.forall_mem_cons.mp reacts
    obtain ⟨after, kept, done⟩ := happen_settles all own
    filter_upwards [done, ih kept later] with steps ended admits
    refine ⟨ended.1, ?_⟩
    rw [ended.2]
    exact admits

end Smooth

/-! ### Passive subscribers -/

section Passive

variable {steps : Nat} {loop : Loop World}

theorem turn_passive (all : loop.session.AllReact Reaction.IsPassive) :
    (loop.turn steps).session.AllReact Reaction.IsPassive := by
  rcases running : loop.running with _ | ⟨locale, loading⟩
  · cases waiting : loop.waiting with
    | nil =>
      rw [turn_none_nil running waiting]
      exact all
    | cons first rest =>
      rw [turn_none_cons running waiting]
      exact all
  · cases loading with
    | write change next =>
      rw [turn_write running]
      exact all
    | suspend next =>
      rw [turn_suspend running]
      exact all
    | failed =>
      rw [turn_failed running]
      exact all
    | loaded messages =>
      rw [turn_loaded running]
      exact Session.activateBy_passive steps locale messages all

theorem happenAll_passive {happenings : List (Happening World)}
    (all : loop.session.AllReact Reaction.IsPassive)
    (reacts : ∀ happening ∈ happenings, happening.Reacts Reaction.IsPassive) :
    (loop.happenAll steps happenings).session.AllReact Reaction.IsPassive := by
  induction happenings generalizing loop with
  | nil => exact all
  | cons happening rest ih =>
    obtain ⟨own, later⟩ := List.forall_mem_cons.mp reacts
    have kept : (loop.happen steps happening).session.AllReact Reaction.IsPassive := by
      cases happening with
      | start switch => exact all
      | turn => exact turn_passive all
      | operate operation => exact Session.perform_passive steps all own
    exact ih kept later

/-- Among passive subscribers a switch makes its own state active and no other. -/
theorem turn_not_direct (all : loop.session.AllReact Reaction.IsPassive) (state : State) :
    .direct state ∉ loop.publishes steps .turn := by
  unfold publishes
  rcases running : loop.running with _ | ⟨locale, loading⟩
  · exact List.not_mem_nil
  · cases loading with
    | loaded messages =>
      have log : loop.session.activateLog (Session.react steps) (Session.reactLog steps) locale
          messages = _ := Session.performLog_activate_passive steps locale messages all
      dsimp only
      rw [log, Operation.activated?]
      cases locale.isEmpty <;> simp
    | failed => exact List.not_mem_nil
    | write change next => exact List.not_mem_nil
    | suspend next => exact List.not_mem_nil

/-- Among passive subscribers only operations activate anything directly. -/
theorem operation_of_direct {happening : Happening World} {state : State}
    (all : loop.session.AllReact Reaction.IsPassive) (reacts : happening.Reacts Reaction.IsPassive)
    (direct : .direct state ∈ loop.publishes steps happening) :
    ∃ operation, happening = .operate operation ∧
      operation.activated? loop.session.store.defaultLocale = some state := by
  cases happening with
  | start switch => cases direct
  | turn => exact absurd direct (turn_not_direct all state)
  | operate operation =>
    have log := Session.performLog_passive steps all reacts
    have published : loop.publishes steps (.operate operation) =
        (loop.session.performLog steps operation).map .direct := rfl
    rw [published, log] at direct
    exact ⟨operation, rfl, by simpa using direct⟩

end Passive

/-! ### Runs -/

theorem AdmitsAll.at {steps : Nat} {loop : Loop World} {earlier later : List (Happening World)}
    {happening : Happening World} (admits : loop.AdmitsAll steps (earlier ++ happening :: later)) :
    (loop.happenAll steps earlier).Admits steps happening := by
  induction earlier generalizing loop with
  | nil => exact admits.1
  | cons first rest ih => exact ih admits.2

/-- As long as no subscriber fails when a switch makes its state active, what can be seen of a run
is that of switches that run one after another in the order in which they were started; a turn in
which no switch ends well changes nothing and tells nobody, and one in which a switch does makes the
state of that switch active and tells everyone; all switches end if there are turns enough; and then
what is active is the state of the last switch that ended well, unless something was activated
directly after that. No subscriber fails if all are smooth, and then nobody but operations
activates anything directly. -/
theorem run_switches (start : Session World) (happenings : List (Happening World)) :
    (∀ steps, (begin start).AdmitsAll steps happenings →
      let after := (begin start).happenAll steps happenings
      let publications := (begin start).publications steps happenings
      (begin start).marks steps happenings <+: Switch.script (started happenings) ∧
      (∀ earlier, earlier ++ [.turn] <+: happenings →
        ((begin start).happenAll steps earlier).TurnEnds steps) ∧
      after.session.store.state =
        start.store.state.after (publications.map Publication.state) ∧
      (∀ earlier later, happenings = earlier ++ later → started later = [] →
        turnCount (started earlier) ≤ later.countP Happening.isTurn → after.IsIdle) ∧
      (after.IsIdle →
        (begin start).marks steps happenings = Switch.script (started happenings) ∧
        after.results = (started happenings).map Switch.outcome ∧
        publications.filterMap Publication.switched? =
          ((started happenings).map Switch.outcome).filterMap Except.toOption ∧
        ((∀ state, publications.getLast? ≠ some (.direct state)) →
          after.session.store.state = start.store.state.after
            (((started happenings).map Switch.outcome).filterMap Except.toOption)))) ∧
    (start.AllReact Reaction.IsSmooth →
      (∀ happening ∈ happenings, happening.Reacts Reaction.IsSmooth) →
      ∃ enough, ∀ steps, enough ≤ steps →
        (begin start).AdmitsAll steps happenings ∧
        ∀ earlier happening, earlier ++ [happening] <+: happenings → ∀ state,
          .direct state ∈ ((begin start).happenAll steps earlier).publishes steps happening →
          ∃ operation, happening = .operate operation ∧ operation.activated?
            ((begin start).happenAll steps earlier).session.store.defaultLocale = some state) := by
  refine ⟨?_, ?_⟩
  · intro steps admits
    have stands : ((begin start).happenAll steps happenings).Stands (started happenings)
        ((begin start).marks steps happenings) := (begin_stands start).run admits
    have active := run_state steps (begin start) happenings
    refine ⟨stands.marks_prefix, ?_, active, ?_, ?_⟩
    · rintro earlier ⟨later, rfl⟩
      rw [List.append_assoc] at admits
      exact turn_ends admits.at
    · rintro earlier later rfl last enough
      exact run_idle steps start last enough
    · intro idle
      obtain ⟨marks, results⟩ := stands.of_idle idle
      have switched := run_switched admits
      rw [results] at switched
      refine ⟨marks, results, switched.symm, ?_⟩
      intro undisturbed
      rw [active, last_switched undisturbed, switched]
      rfl
  · intro all reacts
    obtain ⟨enough, admits⟩ := Filter.eventually_atTop.mp (@run_admits _ (begin start) _ all reacts)
    refine ⟨enough, fun steps more => ⟨admits steps more, ?_⟩⟩
    rintro earlier happening ⟨later, rfl⟩ state direct
    have passive : start.AllReact Reaction.IsPassive :=
      fun subscriber member locale => (all subscriber member locale).isPassive
    obtain ⟨before, -⟩ := List.forall_mem_append.mp reacts
    obtain ⟨before, own⟩ := List.forall_mem_append.mp before
    have kept := @happenAll_passive _ steps (begin start) earlier passive
      fun happening member => Happening.Reacts.passive (before happening member)
    have last := own happening (List.mem_singleton_self happening)
    exact operation_of_direct kept (Happening.Reacts.passive last) direct

/-- Loads a catalog after others have gone on. -/
def patient (locale : String) : Switch Unit :=
  ⟨locale, fun locale => .suspend (.loaded [("greeting", locale)])⟩

/-- Two switches that end well, with one that fails to load and one to no locale between them;
French is activated while the first of them loads. -/
def mixedRun : List (Happening Unit) :=
  [.operate (.subscribe listener), .start (patient "ja"), .turn,
    .start ⟨"ko", fun _ => .suspend .failed⟩, .operate (.activate "fr" []),
    .start ⟨"", fun _ => .loaded []⟩, .start (patient "de"), .turn, .turn, .turn, .turn, .turn,
    .turn, .turn, .turn, .turn, .turn, .turn]

/-- The last switch wins, and both that end well are told to the listener, whatever else fails. -/
theorem run_switches_mixed :
    (((begin (.begin "en" [] ())).happenAll 9 mixedRun).session.store.state =
      ⟨"de", [("greeting", "de")]⟩ ∧
    ((begin (.begin "en" [] ())).happenAll 9 mixedRun).results =
      [.ok ⟨"ja", [("greeting", "ja")]⟩, .error .notLoaded, .error .emptyLocale,
        .ok ⟨"de", [("greeting", "de")]⟩] ∧
    ((begin (.begin "en" [] ())).happenAll 9 mixedRun).session.deliveries.map Delivery.locale =
      ["en", "fr", "ja", "de"]) ∧
    ∃ enough, ∀ steps, enough ≤ steps →
      (begin (.begin "en" [] ())).AdmitsAll steps mixedRun := by
  have run := run_switches (Session.begin "en" [] ()) mixedRun
  have admits : (begin (Session.begin "en" [] ())).AdmitsAll 9 mixedRun :=
    ⟨trivial, trivial, trivial, trivial, trivial, trivial, trivial, trivial, fun _ => rfl, trivial,
      trivial, trivial, trivial, (fun empty => nomatch empty), trivial, trivial, fun _ => rfl, trivial,
      trivial⟩
  obtain ⟨-, -, -, ends, last⟩ := run.1 9 admits
  have idle := ends (mixedRun.take 7) (mixedRun.drop 7) rfl rfl (by decide)
  obtain ⟨-, results, -, wins⟩ := last idle
  refine ⟨⟨wins ?_, results, rfl⟩, ?_⟩
  · intro state direct
    have switched : ((begin (Session.begin "en" [] ())).publications 9 mixedRun).getLast? =
        some (.switched ⟨"de", [("greeting", "de")]⟩) := rfl
    rw [switched] at direct
    cases direct
  · have smooth : ∀ happening ∈ mixedRun, happening.Reacts Reaction.IsSmooth := by
      intro happening member
      simp only [mixedRun, List.mem_cons, List.not_mem_nil, or_false, or_self] at member
      rcases member with rfl | rfl | rfl | rfl | rfl | rfl | rfl | rfl
      · intro subscriber added locale
        cases added
        exact .finish
      all_goals first | trivial | exact fun _ added => (nomatch added)
    obtain ⟨enough, all⟩ := run.2 (Session.begin_allReact _ _ _ _) smooth
    exact ⟨enough, fun steps more => (all steps more).1⟩

/-! ### Running switches to their ends -/

theorem happenAll_starts (steps : Nat) (loop : Loop World) (switches : List (Switch World)) :
    loop.happenAll steps (switches.map .start) =
      ⟨loop.session, loop.waiting ++ switches, loop.running, loop.results⟩ := by
  induction switches generalizing loop with
  | nil => rw [List.map_nil, List.append_nil]; rfl
  | cons switch rest ih =>
    rw [List.map_cons, happenAll_cons, ih]
    show Loop.mk _ (loop.waiting ++ [switch] ++ rest) _ _ = _
    rw [List.append_assoc]
    rfl

theorem happenAll_turns (steps count : Nat) (loop : Loop World) :
    loop.happenAll steps (List.replicate count .turn) = turns steps count loop := by
  induction count generalizing loop with
  | zero => rfl
  | succ count ih =>
    rw [List.replicate_succ, happenAll_cons, ih]
    rfl

/-- Switches that are started at once and then left alone. -/
def undisturbed (switches : List (Switch World)) : List (Happening World) :=
  switches.map .start ++ List.replicate (turnCount switches) .turn

theorem runAll_eq (steps : Nat) (session : Session World) (switches : List (Switch World)) :
    runAll steps session switches =
      (((begin session).happenAll steps (undisturbed switches)).session,
        ((begin session).happenAll steps (undisturbed switches)).results) := by
  rw [undisturbed, happenAll_append, happenAll_starts, happenAll_turns]
  rfl

theorem started_starts (switches : List (Switch World)) :
    started (switches.map .start) = switches := by
  rw [started, List.filterMap_map]
  exact List.filterMap_some

theorem started_turns (count : Nat) :
    started (List.replicate count (.turn : Happening World)) = [] := by
  rw [started, List.filterMap_replicate_of_none rfl]

/-- Nobody but switches makes anything active if all that happens are starts and turns. -/
theorem publications_not_direct {steps : Nat} {loop : Loop World} {happenings : List (Happening World)}
    (all : loop.session.AllReact Reaction.IsPassive)
    (alone : ∀ happening ∈ happenings, ∀ operation, happening ≠ .operate operation)
    (state : State) : .direct state ∉ loop.publications steps happenings := by
  induction happenings generalizing loop with
  | nil => exact List.not_mem_nil
  | cons happening rest ih =>
    obtain ⟨own, later⟩ := List.forall_mem_cons.mp alone
    rw [publications, List.mem_append]
    rintro (now | after)
    · cases happening with
      | start switch => cases now
      | turn => exact turn_not_direct all state now
      | operate operation => exact own operation rfl
    · have kept : (loop.happenAll steps [happening]).session.AllReact Reaction.IsPassive := by
        apply happenAll_passive all
        intro other member
        rw [List.mem_singleton.mp member]
        cases happening with
        | start switch => trivial
        | turn => trivial
        | operate operation => exact absurd rfl (own operation)
      exact ih kept later after

/-- Switches that are started at once and then left alone come to what they are to come to, and the
last one that ends well is active in the end. -/
theorem runAll_settles {session : Session World} (all : session.AllReact Reaction.IsSmooth)
    (switches : List (Switch World)) :
    ∀ᶠ steps in atTop, (runAll steps session switches).2 = switches.map Switch.outcome ∧
      (runAll steps session switches).1.store.state = session.store.state.after
        ((switches.map Switch.outcome).filterMap Except.toOption) := by
  have alone : ∀ happening ∈ undisturbed switches,
      ∀ operation, happening ≠ (.operate operation : Happening World) := by
    rintro happening member operation rfl
    simp [undisturbed, List.mem_replicate] at member
  have smooth : ∀ happening ∈ undisturbed switches, happening.Reacts Reaction.IsSmooth := by
    intro happening member
    cases happening with
    | operate operation => exact absurd rfl (alone _ member operation)
    | start switch => trivial
    | turn => trivial
  have passive : session.AllReact Reaction.IsPassive :=
    fun subscriber member locale => (all subscriber member locale).isPassive
  have order : started (undisturbed switches) = switches := by
    have whole : started (undisturbed switches) =
        started (switches.map .start) ++ started (List.replicate (turnCount switches) .turn) :=
      List.filterMap_append
    rw [whole, started_starts, started_turns, List.append_nil]
  filter_upwards [@run_admits _ (begin session) _ all smooth] with steps admits
  have idle : ((begin session).happenAll steps (undisturbed switches)).IsIdle := by
    apply run_idle
    · exact started_turns (turnCount switches)
    · rw [started_starts, List.countP_replicate]
      exact Nat.le_refl _
  have results := (((begin_stands session).run admits).of_idle idle).2
  have switched := run_switched admits
  rw [List.nil_append, order] at results
  rw [results] at switched
  rw [runAll_eq]
  refine ⟨results, ?_⟩
  have nobody : ∀ state, ((begin session).publications steps (undisturbed switches)).getLast? ≠
      some (.direct state) := by
    intro state last
    exact publications_not_direct passive alone state (List.mem_of_getLast? last)
  rw [switched, run_state, last_switched nobody]
  rfl

end Loop

end Phrasebook.Locale

import Phrasebook.Locale.Switch
import Phrasebook.Proofs.Locale.InStep
import Phrasebook.Proofs.Locale.Reaction

set_option autoImplicit false

/-!
Schedules of an event loop on which switches run, among whatever else happens there: further switches
are started and locales are activated directly while a catalog loads. In every run what can be seen
of the switches is that they run one after another in the order in which they were started, and all
of them end if there are turns enough.
-/
namespace Phrasebook.Locale

variable {World : Type}

/-! ### What switches come to -/

/-- The catalog that loading gives in the end. -/
def Loading.catalog? : Loading World → Option Translations
  | loaded messages => some messages
  | failed => none
  | write _ next => next.catalog?
  | suspend next => next.catalog?

/-- What activating a locale with the catalog that was loaded for it is to come to. -/
def Loading.outcome (locale : String) (loading : Loading World) : Except Failure State :=
  match loading.catalog? with
  | none => .error .notLoaded
  | some messages => if locale.isEmpty then .error .emptyLocale else .ok ⟨locale, messages⟩

/-- What a switch is to come to. -/
def Switch.outcome (switch : Switch World) : Except Failure State :=
  (switch.load switch.locale).outcome switch.locale

/-! ### Schedules -/

/-- What happens on an event loop: a switch is started, the switch whose turn it is goes on, or
something is done with the store directly. -/
inductive Happening (World : Type) where
  | start (switch : Switch World)
  | turn
  | operate (operation : Operation World)

namespace Happening

/-- The switch that is started. -/
def started? : Happening World → Option (Switch World)
  | start switch => some switch
  | _ => none

def isTurn : Happening World → Bool
  | turn => true
  | _ => false

/-- The switches that are started, in their order. -/
def started (happenings : List (Happening World)) : List (Switch World) :=
  happenings.filterMap started?

end Happening

open Happening (started)

/-- What can be seen of a switch: it asks for its catalog, and it ends. -/
inductive Mark (World : Type) where
  | asked (locale : String) (loading : Loading World)
  | ended (result : Except Failure State)

/-- What can be seen of switches that run one after another to their ends. -/
def Switch.script (switches : List (Switch World)) : List (Mark World) :=
  switches.flatMap fun switch =>
    [.asked switch.locale (switch.load switch.locale), .ended switch.outcome]

namespace Loop

/-- A loop without switches. -/
def begin (session : Session World) : Loop World := ⟨session, [], none, []⟩

/-- What a happening makes of a loop. Whoever starts a switch waits until the earlier ones end. -/
def happen (steps : Nat) (loop : Loop World) : Happening World → Loop World
  | .start switch => ⟨loop.session, loop.waiting ++ [switch], loop.running, loop.results⟩
  | .turn => loop.turn steps
  | .operate operation =>
    ⟨(loop.session.perform steps operation).1, loop.waiting, loop.running, loop.results⟩

def happenAll (steps : Nat) (loop : Loop World) (happenings : List (Happening World)) :
    Loop World :=
  happenings.foldl (happen steps) loop

/-- No switch waits or loads. -/
structure IsIdle (loop : Loop World) : Prop where
  waiting : loop.waiting = []
  running : loop.running = none

/-- What can be seen when one loop becomes another: whose catalog begins to load, and how switches
have ended. -/
def shown (before after : Loop World) : List (Mark World) :=
  (match before.running, after.running with
    | none, some (locale, loading) => [.asked locale loading]
    | _, _ => []) ++
  (after.results.drop before.results.length).map .ended

/-- What can be seen of a run. -/
def marks (steps : Nat) : Loop World → List (Happening World) → List (Mark World)
  | _, [] => []
  | loop, happening :: rest =>
    loop.shown (loop.happen steps happening) ++ marks steps (loop.happen steps happening) rest

/-- No subscriber fails when a switch makes its state active. -/
def Admits (steps : Nat) (loop : Loop World) : Happening World → Prop
  | .turn =>
    match loop.running with
    | some (locale, .loaded messages) =>
      locale.isEmpty = false → (loop.session.activate steps locale messages).2 =
        .ok ⟨locale, messages⟩
    | _ => True
  | _ => True

/-- In a run no subscriber fails when a switch makes its state active. -/
def AdmitsAll (steps : Nat) : Loop World → List (Happening World) → Prop
  | _, [] => True
  | loop, happening :: rest =>
    loop.Admits steps happening ∧ AdmitsAll steps (loop.happen steps happening) rest

/-! ### The order of switches -/

end Loop

theorem Switch.script_append (switches later : List (Switch World)) :
    script (switches ++ later) = script switches ++ script later :=
  List.flatMap_append

theorem Switch.script_singleton (switch : Switch World) :
    script [switch] =
      [.asked switch.locale (switch.load switch.locale), .ended switch.outcome] := rfl

namespace Loop

/-- Where a loop stands: the switches that have ended are followed by the one that loads, if any
does, and by those that wait. -/
inductive Stands (loop : Loop World) (switches : List (Switch World)) : List (Mark World) → Prop where
  | resting {ended : List (Switch World)} (free : loop.running = none)
      (all : switches = ended ++ loop.waiting)
      (results : loop.results = ended.map Switch.outcome) :
    Stands loop switches (Switch.script ended)
  | loading {ended : List (Switch World)} {current : Switch World} {loading : Loading World}
      (busy : loop.running = some (current.locale, loading))
      (same : loading.outcome current.locale = current.outcome)
      (all : switches = ended ++ current :: loop.waiting)
      (results : loop.results = ended.map Switch.outcome) :
    Stands loop switches
      (Switch.script ended ++ [.asked current.locale (current.load current.locale)])

theorem begin_stands (session : Session World) : (begin session).Stands [] [] := by
  have all : ([] : List (Switch World)) = [] ++ (begin session).waiting := rfl
  exact .resting rfl all rfl

section Steps

variable {steps : Nat} {loop : Loop World} {switches : List (Switch World)}
  {marks : List (Mark World)}

theorem shown_same {after : Loop World} (running : after.running = loop.running)
    (results : after.results = loop.results) : loop.shown after = [] := by
  unfold shown
  rw [running, results, List.drop_length]
  cases loop.running <;> rfl

theorem shown_ended {after : Loop World} {result : Except Failure State}
    (busy : loop.running.isSome = true) (results : after.results = loop.results ++ [result]) :
    loop.shown after = [.ended result] := by
  unfold shown
  rw [results, List.drop_left]
  cases running : loop.running with
  | none => simp [running] at busy
  | some pair => rfl

theorem Stands.begun (stands : loop.Stands switches marks) (switch : Switch World) :
    (loop.happen steps (.start switch)).Stands (switches ++ [switch])
      (marks ++ loop.shown (loop.happen steps (.start switch))) := by
  have unseen : loop.shown (loop.happen steps (.start switch)) = [] := shown_same rfl rfl
  rw [unseen, List.append_nil]
  cases stands with
  | resting free all results =>
    refine .resting free ?_ results
    rw [all, List.append_assoc]
    rfl
  | loading busy same all results =>
    refine .loading busy same ?_ results
    rw [all, List.append_assoc]
    rfl

theorem Stands.operated (stands : loop.Stands switches marks) (operation : Operation World) :
    (loop.happen steps (.operate operation)).Stands switches
      (marks ++ loop.shown (loop.happen steps (.operate operation))) := by
  have unseen : loop.shown (loop.happen steps (.operate operation)) = [] := shown_same rfl rfl
  rw [unseen, List.append_nil]
  cases stands with
  | resting free all results => exact .resting free all results
  | loading busy same all results => exact .loading busy same all results

theorem turn_none_nil (free : loop.running = none) (none : loop.waiting = []) :
    loop.turn steps = loop := by
  simp only [turn, free, none]

theorem turn_none_cons {first : Switch World} {rest : List (Switch World)}
    (free : loop.running = none) (waiting : loop.waiting = first :: rest) :
    loop.turn steps =
      ⟨loop.session, rest, some (first.locale, first.load first.locale), loop.results⟩ := by
  simp only [turn, free, waiting]

theorem turn_write {locale : String} {change : World → World} {next : Loading World}
    (busy : loop.running = some (locale, .write change next)) :
    loop.turn steps = ⟨loop.session.withWorld (change loop.session.world), loop.waiting,
      some (locale, next), loop.results⟩ := by
  simp only [turn, busy]

theorem turn_suspend {locale : String} {next : Loading World}
    (busy : loop.running = some (locale, .suspend next)) :
    loop.turn steps = ⟨loop.session, loop.waiting, some (locale, next), loop.results⟩ := by
  simp only [turn, busy]

theorem turn_failed {locale : String} (busy : loop.running = some (locale, .failed)) :
    loop.turn steps =
      ⟨loop.session, loop.waiting, none, loop.results ++ [.error .notLoaded]⟩ := by
  simp only [turn, busy]

theorem turn_loaded {locale : String} {messages : Translations}
    (busy : loop.running = some (locale, .loaded messages)) :
    loop.turn steps = ⟨(loop.session.activate steps locale messages).1, loop.waiting, none,
      loop.results ++ [(loop.session.activate steps locale messages).2]⟩ := by
  simp only [turn, busy]

/-- Loading that ends has come to what it was to come to. -/
theorem activate_outcome {locale : String} {messages : Translations}
    (busy : loop.running = some (locale, .loaded messages)) (admits : loop.Admits steps .turn) :
    (loop.session.activate steps locale messages).2 =
      (Loading.loaded messages : Loading World).outcome locale := by
  simp only [Admits, busy] at admits
  unfold Loading.outcome Loading.catalog?
  dsimp only
  cases empty : locale.isEmpty with
  | true =>
    rw [Session.activate, Session.activateBy_empty messages empty]
    rfl
  | false =>
    rw [admits empty]
    rfl

/-- The switch that loads has ended. -/
theorem Stands.finished {ended : List (Switch World)} {current : Switch World} {after : Loop World}
    (busy : loop.running.isSome = true) (all : switches = ended ++ current :: loop.waiting)
    (results : loop.results = ended.map Switch.outcome) (free : after.running = none)
    (waiting : after.waiting = loop.waiting)
    (more : after.results = loop.results ++ [current.outcome]) :
    after.Stands switches
      (Switch.script ended ++ [.asked current.locale (current.load current.locale)] ++
        loop.shown after) := by
  have script : Switch.script ended ++ [.asked current.locale (current.load current.locale)] ++
      loop.shown after = Switch.script (ended ++ [current]) := by
    rw [shown_ended busy more, Switch.script_append, Switch.script_singleton, List.append_assoc]
    rfl
  rw [script]
  refine .resting free ?_ ?_
  · rw [all, waiting, List.append_assoc]
    rfl
  · rw [more, results, List.map_append]
    rfl

theorem Stands.turned (stands : loop.Stands switches marks) (admits : loop.Admits steps .turn) :
    (loop.turn steps).Stands switches (marks ++ loop.shown (loop.turn steps)) := by
  cases stands with
  | @resting ended free all results =>
    cases waiting : loop.waiting with
    | nil =>
      rw [turn_none_nil free waiting, shown_same rfl rfl, List.append_nil]
      exact .resting free all results
    | cons first rest =>
      have asked : loop.shown (loop.turn steps) =
          [.asked first.locale (first.load first.locale)] := by
        unfold shown
        rw [turn_none_cons free waiting, free, List.drop_length]
        rfl
      rw [asked, turn_none_cons free waiting]
      exact .loading rfl rfl (by rw [all, waiting]) results
  | @loading ended current loading busy same all results =>
    have some : loop.running.isSome = true := by rw [busy]; rfl
    cases loading with
    | write change next =>
      have unseen : loop.shown (loop.turn steps) = [] := by
        unfold shown
        rw [turn_write busy, busy, List.drop_length]
        rfl
      rw [unseen, List.append_nil, turn_write busy]
      exact .loading rfl same all results
    | suspend next =>
      have unseen : loop.shown (loop.turn steps) = [] := by
        unfold shown
        rw [turn_suspend busy, busy, List.drop_length]
        rfl
      rw [unseen, List.append_nil, turn_suspend busy]
      exact .loading rfl same all results
    | failed =>
      apply Stands.finished some all results
      · rw [turn_failed busy]
      · rw [turn_failed busy]
      · rw [turn_failed busy, ← same]
        rfl
    | loaded messages =>
      have ends := activate_outcome busy admits
      apply Stands.finished some all results
      · rw [turn_loaded busy]
      · rw [turn_loaded busy]
      · rw [turn_loaded busy, ← same, ends]

theorem Stands.happened (stands : loop.Stands switches marks) {happening : Happening World}
    (admits : loop.Admits steps happening) :
    (loop.happen steps happening).Stands (switches ++ started [happening])
      (marks ++ loop.shown (loop.happen steps happening)) := by
  cases happening with
  | start switch => exact stands.begun switch
  | turn =>
    have same : started [(.turn : Happening World)] = [] := rfl
    rw [same, List.append_nil]
    exact stands.turned admits
  | operate operation =>
    have same : started [Happening.operate operation] = [] := rfl
    rw [same, List.append_nil]
    exact stands.operated operation

end Steps

theorem started_cons (happening : Happening World) (rest : List (Happening World)) :
    started (happening :: rest) = started [happening] ++ started rest :=
  List.filterMap_append (l := [happening])

/-- In every run switches end in the order in which they were started. -/
theorem Stands.run {steps : Nat} {loop : Loop World} {switches : List (Switch World)}
    {seen : List (Mark World)} {happenings : List (Happening World)}
    (stands : loop.Stands switches seen) (admits : loop.AdmitsAll steps happenings) :
    (loop.happenAll steps happenings).Stands (switches ++ started happenings)
      (seen ++ loop.marks steps happenings) := by
  induction happenings generalizing loop switches seen with
  | nil =>
    rw [started, List.filterMap_nil, List.append_nil, marks, List.append_nil]
    exact stands
  | cons happening rest ih =>
    obtain ⟨own, later⟩ := admits
    have next := ih (stands.happened own) later
    rw [List.append_assoc, List.append_assoc] at next
    rw [started_cons, marks]
    exact next

theorem Stands.marks_prefix {loop : Loop World} {switches : List (Switch World)}
    {marks : List (Mark World)} (stands : loop.Stands switches marks) :
    marks <+: Switch.script switches := by
  cases stands with
  | @resting ended free all results =>
    rw [all, Switch.script_append]
    exact List.prefix_append _ _
  | @loading ended current loading busy same all results =>
    refine ⟨.ended current.outcome :: Switch.script loop.waiting, ?_⟩
    rw [all, Switch.script_append, List.append_assoc]
    rfl

theorem Stands.of_idle {loop : Loop World} {switches : List (Switch World)}
    {marks : List (Mark World)} (stands : loop.Stands switches marks) (idle : loop.IsIdle) :
    marks = Switch.script switches ∧ loop.results = switches.map Switch.outcome := by
  cases stands with
  | @resting ended free all results =>
    rw [idle.waiting, List.append_nil] at all
    rw [all]
    exact ⟨rfl, results⟩
  | loading busy same all results =>
    rw [idle.running] at busy
    cases busy

/-! ### Nobody is held up -/

/-- How many turns the switches of a loop still take. -/
def remaining (loop : Loop World) : Nat :=
  (match loop.running with
    | none => 0
    | some (_, loading) => loading.steps) + turnCount loop.waiting

theorem turnCount_append (switches later : List (Switch World)) :
    turnCount (switches ++ later) = turnCount switches + turnCount later := by
  induction switches with
  | nil => simp [turnCount]
  | cons switch rest ih =>
    rw [List.cons_append, turnCount, turnCount, ih]
    omega

theorem Loading.steps_pos (loading : Loading World) : 0 < loading.steps := by
  cases loading <;> simp [Loading.steps]

theorem idle_of_remaining {loop : Loop World} (none : loop.remaining = 0) : loop.IsIdle := by
  unfold remaining at none
  constructor
  · cases waiting : loop.waiting with
    | nil => rfl
    | cons switch rest =>
      rw [waiting, turnCount] at none
      omega
  · rcases running : loop.running with _ | ⟨locale, loading⟩
    · rfl
    · have positive := Loading.steps_pos loading
      simp only [running] at none
      omega

theorem turn_remaining (steps : Nat) (loop : Loop World) :
    (loop.turn steps).remaining = loop.remaining - 1 := by
  rcases running : loop.running with _ | ⟨locale, loading⟩
  · cases waiting : loop.waiting with
    | nil =>
      rw [turn_none_nil running waiting]
      simp only [remaining, running, waiting, turnCount]
    | cons first rest =>
      rw [turn_none_cons running waiting]
      simp only [remaining, running, waiting, turnCount]
      omega
  · cases loading with
    | write change next =>
      rw [turn_write running]
      simp only [remaining, running, Loading.steps]
      omega
    | suspend next =>
      rw [turn_suspend running]
      simp only [remaining, running, Loading.steps]
      omega
    | failed =>
      rw [turn_failed running]
      simp only [remaining, running, Loading.steps]
      omega
    | loaded messages =>
      rw [turn_loaded running]
      simp only [remaining, running, Loading.steps]
      omega

theorem happenAll_cons (steps : Nat) (loop : Loop World) (happening : Happening World)
    (rest : List (Happening World)) :
    loop.happenAll steps (happening :: rest) =
      (loop.happen steps happening).happenAll steps rest := rfl

theorem happenAll_append (steps : Nat) (loop : Loop World)
    (earlier later : List (Happening World)) :
    loop.happenAll steps (earlier ++ later) =
      (loop.happenAll steps earlier).happenAll steps later :=
  List.foldl_append

/-- What remains to be done is at most what all switches take. -/
theorem remaining_le (steps : Nat) (loop : Loop World) (happenings : List (Happening World)) :
    (loop.happenAll steps happenings).remaining ≤
      loop.remaining + turnCount (started happenings) := by
  induction happenings generalizing loop with
  | nil => exact Nat.le_add_right _ _
  | cons happening rest ih =>
    have later := ih (loop.happen steps happening)
    rw [happenAll_cons, started_cons, turnCount_append]
    cases happening with
    | start switch =>
      have own : (loop.happen steps (.start switch)).remaining =
          loop.remaining + turnCount [switch] := by
        show _ + turnCount (loop.waiting ++ [switch]) = _
        rw [turnCount_append, ← Nat.add_assoc]
        rfl
      have same : started [Happening.start switch] = [switch] := rfl
      rw [same]
      omega
    | turn =>
      have own : (loop.happen steps .turn).remaining = loop.remaining - 1 :=
        turn_remaining steps loop
      omega
    | operate operation =>
      have own : (loop.happen steps (.operate operation)).remaining = loop.remaining := rfl
      omega

/-- When no more switches are started, each turn brings all of them nearer to their ends. -/
theorem remaining_turns (steps : Nat) (loop : Loop World) {happenings : List (Happening World)}
    (last : started happenings = []) :
    (loop.happenAll steps happenings).remaining =
      loop.remaining - happenings.countP Happening.isTurn := by
  induction happenings generalizing loop with
  | nil => rfl
  | cons happening rest ih =>
    rw [started_cons, List.append_eq_nil_iff] at last
    have later := ih (loop.happen steps happening) last.2
    rw [happenAll_cons, List.countP_cons, later]
    cases happening with
    | start switch =>
      have some := last.1
      cases some
    | turn =>
      have own : (loop.happen steps .turn).remaining = loop.remaining - 1 :=
        turn_remaining steps loop
      rw [own]
      simp only [Happening.isTurn, if_true]
      omega
    | operate operation => rfl

/-- All switches end when there are turns enough after the last of them was started. -/
theorem run_idle (steps : Nat) (session : Session World) {earlier later : List (Happening World)}
    (last : started later = [])
    (enough : turnCount (started earlier) ≤ later.countP Happening.isTurn) :
    ((begin session).happenAll steps (earlier ++ later)).IsIdle := by
  apply idle_of_remaining
  have bounded := remaining_le steps (begin session) earlier
  have none : (begin session).remaining = 0 := rfl
  rw [happenAll_append, remaining_turns steps _ last]
  omega

end Loop

end Phrasebook.Locale

import Mathlib.Data.List.Perm.Basic
import Mathlib.Logic.Relation

set_option autoImplicit false

/-!
A pool of workers. Jobs wait until a worker is free, run side by side, and are done one after another
in any order; what they gave is collected in any order in which they are done. However that goes, in
the end each job's result is collected once.
-/
namespace Phrasebook.Pool

variable {α β : Type}

structure State (α β : Type) where
  waiting : List α
  running : List α
  /-- What the jobs gave that are done, as long as nobody has collected it. -/
  done : List β
  collected : List β

def State.start (jobs : List α) : State α β := ⟨jobs, [], [], []⟩

def State.finished (results : List β) : State α β := ⟨[], [], [], results⟩

/-- A step of the pool: a free worker takes a job, a job is done, or a result is collected. -/
inductive Step (workers : Nat) (work : α → β) : State α β → State α β → Prop where
  | take (before after running : List α) (done collected : List β) (job : α)
    (free : running.length < workers) :
    Step workers work ⟨before ++ job :: after, running, done, collected⟩
      ⟨before ++ after, job :: running, done, collected⟩
  | finish (waiting before after : List α) (done collected : List β) (job : α) :
    Step workers work ⟨waiting, before ++ job :: after, done, collected⟩
      ⟨waiting, before ++ after, work job :: done, collected⟩
  | collect (waiting running : List α) (before after collected : List β) (result : β) :
    Step workers work ⟨waiting, running, before ++ result :: after, collected⟩
      ⟨waiting, running, before ++ after, collected ++ [result]⟩

/-- Any number of steps. -/
abbrev Run (workers : Nat) (work : α → β) : State α β → State α β → Prop :=
  Relation.ReflTransGen (Step workers work)

/-- What all jobs give, those that are not done yet included. -/
def State.results (work : α → β) (state : State α β) : List β :=
  state.collected ++ (state.done ++ (state.running.map work ++ state.waiting.map work))

variable {workers : Nat} {work : α → β} {state next : State α β}

/-- A step neither loses a result nor doubles one. -/
theorem Step.results_perm (step : Step workers work state next) :
    (next.results work).Perm (state.results work) := by
  cases step with
  | take before after running done collected job free =>
    have moved : (work job :: (before.map work ++ after.map work)).Perm
        (before.map work ++ work job :: after.map work) := List.perm_middle.symm
    apply List.Perm.append_left
    apply List.Perm.append_left
    rw [List.map_cons, List.map_append, List.map_append, List.map_cons, List.cons_append]
    exact List.perm_middle.symm.trans (moved.append_left _)
  | finish waiting before after done collected job =>
    have moved : (work job :: (before.map work ++ after.map work)).Perm
        (before.map work ++ work job :: after.map work) := List.perm_middle.symm
    apply List.Perm.append_left
    rw [List.map_append, List.map_append, List.map_cons, List.cons_append]
    exact List.perm_middle.symm.trans ((moved.append_right _).append_left _)
  | collect waiting running before after collected result =>
    have moved : (result :: (before ++ after)).Perm (before ++ result :: after) :=
      List.perm_middle.symm
    rw [State.results, State.results, List.append_assoc, List.singleton_append]
    exact (moved.append_right _).append_left _

theorem Run.results_perm (run : Run workers work state next) :
    (next.results work).Perm (state.results work) := by
  induction run with
  | refl => exact .refl _
  | tail _ step ih => exact step.results_perm.trans ih

/-- How many steps are left: three for a job that waits, two while it runs and one when it is
done. -/
def State.remaining (state : State α β) : Nat :=
  3 * state.waiting.length + 2 * state.running.length + state.done.length

theorem Step.remaining_eq (step : Step workers work state next) :
    state.remaining = next.remaining + 1 := by
  cases step <;> simp only [State.remaining, List.length_append, List.length_cons] <;> omega

/-- As long as not all results are collected, the pool can go on. -/
theorem exists_step (some : 0 < workers) (work : α → β) (left : state.remaining ≠ 0) :
    ∃ next, Step workers work state next := by
  obtain ⟨waiting, running, done, collected⟩ := state
  cases done with
  | cons result done => exact ⟨_, .collect waiting running [] done collected result⟩
  | nil =>
    cases running with
    | cons job running => exact ⟨_, .finish waiting [] running [] collected job⟩
    | nil =>
      cases waiting with
      | cons job waiting => exact ⟨_, .take [] waiting [] [] collected job some⟩
      | nil => exact absurd rfl left

/-- Every run can be brought to its end. -/
theorem exists_run (some : 0 < workers) (work : α → β) (state : State α β) :
    ∃ results, Run workers work state (.finished results) := by
  induction count : state.remaining generalizing state with
  | zero =>
    obtain ⟨waiting, running, done, collected⟩ := state
    simp only [State.remaining] at count
    have none : waiting = [] ∧ running = [] ∧ done = [] := by
      refine ⟨List.length_eq_zero_iff.mp ?_, List.length_eq_zero_iff.mp ?_,
        List.length_eq_zero_iff.mp ?_⟩ <;> omega
    obtain ⟨rfl, rfl, rfl⟩ := none
    exact ⟨collected, .refl⟩
  | succ count ih =>
    have left : state.remaining ≠ 0 := by omega
    obtain ⟨next, step⟩ := exists_step some work left
    have fewer := step.remaining_eq
    obtain ⟨results, run⟩ := ih next (by omega)
    exact ⟨results, .head step run⟩

/-- The results that are collected in the end are those of all jobs, in some order. -/
theorem finished_perm {jobs : List α} {results : List β}
    (run : Run workers work (.start jobs) (.finished results)) :
    results.Perm (jobs.map work) := by
  have kept := run.results_perm
  simpa [State.results, State.start, State.finished] using kept

/-- How the results of jobs come in: one after another, if there is one worker or at most one job,
and else through the pool. -/
inductive Gathers (workers : Nat) (work : α → β) (jobs : List α) : List β → Prop where
  | inOrder (few : workers = 1 ∨ jobs.length ≤ 1) : Gathers workers work jobs (jobs.map work)
  | pooled (many : workers ≠ 1 ∧ 1 < jobs.length) (results : List β)
    (run : Run workers work (.start jobs) (.finished results)) : Gathers workers work jobs results

theorem Gathers.perm {jobs : List α} {results : List β} (gathers : Gathers workers work jobs results) :
    results.Perm (jobs.map work) := by
  cases gathers with
  | inOrder few => exact .refl _
  | pooled many results run => exact finished_perm run

theorem exists_gathers (some : 0 < workers) (work : α → β) (jobs : List α) :
    ∃ results, Gathers workers work jobs results := by
  by_cases few : workers = 1 ∨ jobs.length ≤ 1
  · exact ⟨_, .inOrder few⟩
  · obtain ⟨results, run⟩ := exists_run some work (.start jobs)
    exact ⟨results, .pooled (by omega) results run⟩

end Phrasebook.Pool

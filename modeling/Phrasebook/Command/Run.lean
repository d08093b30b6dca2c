import Phrasebook.Command.Arguments
import Phrasebook.Command.Tasks

set_option autoImplicit false

/-!
What a request leads to: what is said, and how it ends. Faults of the program's own end it with a
word on them; all others escape.
-/
namespace Phrasebook.Command

structure Outcome where
  exitCode : Nat
  output : String
  complaint : String
  /-- Errors that are logged. -/
  logged : List String
  deriving DecidableEq, Repr

/-- How a program ends that is not asked for a task. -/
def Refusal.exitCode : Refusal → Nat
  | helpWanted => 0
  | misuse => 2
  | noTask => 1

def perform [Catalog.Codecs] (project : Project) : Task → Job Nat
  | .extract isClean exportPath => extract project isClean exportPath
  | .compile isStrict => compile project isStrict
  | .statistics => statistics project

/-- Does what is requested, and gives the files as they are then. -/
def run [Catalog.Codecs] (files : FileTree) (request : Request) : Except Fault Outcome × FileTree :=
  match Project.load files (request.settingsPath.map Path.ofText) with
  | .error fault =>
    match fault.text? with
    | some text => (.ok ⟨1, "", "Ошибка конфигурации: " ++ text ++ "\n", []⟩, files)
    | none => (.error (.project fault), files)
  | .ok project =>
    let (result, progress) := (perform project request.task).run ⟨files, ""⟩
    match result with
    | .ok code => (.ok ⟨code, progress.output, "", []⟩, progress.files)
    | .error fault =>
      match fault.text? with
      | some text => (.ok ⟨1, progress.output, "", [text]⟩, progress.files)
      | none => (.error fault, progress.files)

end Phrasebook.Command

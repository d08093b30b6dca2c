import Phrasebook.Text.Split

set_option autoImplicit false

/-!
The arguments of a command line, and what is asked with them: a task, and the file of settings to do
it with. A flag is named by a word after two hyphens or by a letter after one; the word may be cut
short while it names one flag only. A value stands in the same argument after an equals sign, or in
the next one.
-/
namespace Phrasebook.Command

/-! ### Arguments -/

structure Flag where
  word : String
  letter : Option Char
  takesValue : Bool
  deriving DecidableEq, Repr

def Flag.help : Flag := ⟨"help", some 'h', false⟩

/-- Why arguments do not lead to a task. -/
inductive Refusal where
  | helpWanted
  | misuse
  | noTask
  deriving DecidableEq, Repr

/-- What one argument is. -/
inductive Meaning where
  /-- No flag. -/
  | plain
  /-- Two hyphens alone. -/
  | stop
  | flag (flag : Flag) (value : Option String)
  /-- Several flags by their letters. -/
  | letters (letters : List Char)
  /-- A word cut short that several flags begin with. -/
  | ambiguous
  | unknown
  deriving DecidableEq, Repr

/-- A number below zero in digits, with a point at most, is no flag. -/
def isNegative (text : List Char) : Bool :=
  match text with
  | '-' :: rest =>
    match Text.cutFirst '.' rest with
    | (whole, none) => whole ≠ [] && whole.all Text.isDigit
    | (whole, some fraction) =>
      whole.all Text.isDigit && fraction ≠ [] && fraction.all Text.isDigit
  | _ => false

/-- What an argument is that names no flag of its own. -/
def meaningOfOther (text : List Char) : Meaning :=
  if isNegative text ∨ text.contains ' ' then .plain else .unknown

/-- What a word after two hyphens is. -/
def meaningOfWord (flags : List Flag) (text word : List Char) : Meaning :=
  let (name, value) := Text.cutFirst '=' word
  let value := value.map String.ofList
  match flags.find? fun flag => flag.word.toList = name with
  | some flag => .flag flag value
  | none =>
    match flags.filter fun flag => name.isPrefixOf flag.word.toList with
    | [] => meaningOfOther text
    | [flag] => .flag flag value
    | _ => .ambiguous

def flagOfLetter? (flags : List Flag) (letter : Char) : Option Flag :=
  flags.find? (·.letter = some letter)

/-- What an argument is. -/
def meaning (flags : List Flag) (argument : String) : Meaning :=
  match argument.toList with
  | ['-', '-'] => .stop
  | '-' :: '-' :: word => meaningOfWord flags argument.toList word
  | '-' :: letter :: more =>
    match flagOfLetter? flags letter with
    | some _ => .letters (letter :: more)
    | none => meaningOfOther argument.toList
  | _ => .plain

/-- What has been read of the arguments. -/
structure Given where
  /-- The flags by their words, with their values; the last one comes first. -/
  flags : List (String × String)
  /-- Every argument was understood. -/
  isClear : Bool
  /-- What was not read: the first plain argument and all after it. -/
  rest : List String
  deriving Repr

namespace Given

def empty : Given := ⟨[], true, []⟩

def add (given : Given) (flag : Flag) (value : String) : Except Refusal Given :=
  if flag = .help then .error .helpWanted
  else .ok { given with flags := (flag.word, value) :: given.flags }

def has (given : Given) (word : String) : Bool := (given.flags.lookup word).isSome

/-- The value of a flag. An empty one is none. -/
def value? (given : Given) (word : String) : Option String :=
  (given.flags.lookup word).filter (!·.isEmpty)

end Given

/-- Reads letters. The flags count only if nothing is wrong with those after them. -/
def readLetters (flags : List Flag) (given : Given) : List Char → Except Refusal Given
  | [] => .ok given
  | letter :: more =>
    match flagOfLetter? flags letter with
    | some flag => do
      let isBroken := more.head?.any fun next => next = '-' || next = '='
      if isBroken then .error .misuse
      let read ← readLetters flags given more
      read.add flag ""
    | none => .ok { given with isClear := false }

/-- Reads arguments one after another, up to a plain one or to the end. -/
def readArguments (flags : List Flag) (endsAtPlain : Bool) (given : Given) :
    List String → Except Refusal Given
  | [] => .ok given
  | argument :: rest =>
    match meaning flags argument with
    | .plain =>
      if endsAtPlain then .ok { given with rest := argument :: rest }
      else readArguments flags endsAtPlain { given with isClear := false } rest
    | .unknown => readArguments flags endsAtPlain { given with isClear := false } rest
    | .letters letters => do
      readArguments flags endsAtPlain (← readLetters flags given letters) rest
    | .flag flag none =>
      if flag.takesValue then
        match rest with
        | value :: rest =>
          if meaning flags value = .plain then do
            readArguments flags endsAtPlain (← given.add flag value) rest
          else .error .misuse
        | [] => .error .misuse
      else do readArguments flags endsAtPlain (← given.add flag "") rest
    | .flag flag (some value) =>
      if flag.takesValue then do
        readArguments flags endsAtPlain (← given.add flag value) rest
      else .error .misuse
    | .stop => .error .misuse
    | .ambiguous => .error .misuse

/-- Reads arguments. One that is ambiguous refuses them all. -/
def Given.ofArguments (flags : List Flag) (endsAtPlain : Bool) (arguments : List String) :
    Except Refusal Given :=
  if (arguments.takeWhile (· ≠ "--")).any fun argument => meaning flags argument = .ambiguous then
    .error .misuse
  else readArguments flags endsAtPlain .empty arguments

/-! ### Requests -/

inductive Task where
  /-- Brings the catalogs up to date with the sources, and exports the records if asked to. -/
  | extract (isClean : Bool) (exportPath : Option String)
  /-- Compiles the catalogs. In the strict way a missing translation is a failure. -/
  | compile (isStrict : Bool)
  | statistics
  deriving DecidableEq, Repr

structure Request where
  task : Task
  settingsPath : Option String
  deriving DecidableEq, Repr

namespace Request

/-- The flags before the name of the task. -/
def leadingFlags : List Flag := [.help, ⟨"verbose", some 'v', false⟩]

def settingsFlag : Flag := ⟨"config", none, true⟩

def cleanFlag : Flag := ⟨"clean", none, false⟩

def exportFlag : Flag := ⟨"output", none, true⟩

def strictFlag : Flag := ⟨"strict", none, false⟩

/-- The names of the tasks, with the flags that each takes. -/
def taskFlags : List (String × List Flag) := [
    ("extract", [.help, settingsFlag, cleanFlag, exportFlag]),
    ("compile", [.help, settingsFlag, strictFlag]),
    ("stats", [.help, settingsFlag])]

/-- The task of a name, as its flags say. -/
def taskOf (name : String) (given : Given) : Task :=
  if name = "extract" then
    .extract (given.has cleanFlag.word) (given.value? exportFlag.word)
  else if name = "compile" then .compile (given.has strictFlag.word)
  else .statistics

/-- What arguments ask for. -/
def ofArguments (arguments : List String) : Except Refusal Request := do
  let leading ← Given.ofArguments leadingFlags true arguments
  match leading.rest with
  | [] => .error (if leading.isClear then .noTask else .misuse)
  | name :: rest =>
    match taskFlags.lookup name with
    | none => .error .misuse
    | some flags => do
      let given ← Given.ofArguments flags false rest
      if leading.isClear && given.isClear then
        .ok ⟨taskOf name given, given.value? settingsFlag.word⟩
      else .error .misuse

end Request

end Phrasebook.Command

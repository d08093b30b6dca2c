import Phrasebook.Descriptor

set_option autoImplicit false

/-!
Marking a message for extraction without translating it. A marked text, mapping or structured
message is handed back as it is; a template is put together with its arguments.
-/
namespace Phrasebook

/-- Why a statement cannot be marked. -/
inductive MarkFailure where
  | descriptor (error : DescriptorError)
  /-- The statement is of no kind that can be marked. -/
  | wrongKind
  /-- An argument cannot be written. -/
  | fault (fault : Number.Fault)
  deriving DecidableEq, Repr

/-- What marking gives. -/
inductive Marked where
  | text (text : String)
  | unchanged (statement : Statement)
  deriving Repr

/-- The chunks with the texts of the arguments between them. -/
def interleave : List String → List Value → Except Number.Fault String
  | [], _ => .ok ""
  | chunk :: _, [] => .ok chunk
  | chunk :: rest, arg :: args => do
    let shown ← arg.written
    return chunk ++ shown ++ (← interleave rest args)

/-- Marks a statement. -/
def mark (statement : Statement) (args : List Value) : Except MarkFailure Marked :=
  match statement with
  | .descriptor (.structured _ _ _) => .ok (.unchanged statement)
  | .mapping entries =>
    if entries.has (Value.text "message") then .ok (.unchanged statement)
    else .error (.descriptor .noMessage)
  | .value (.text s) =>
    if args.isEmpty then .ok (.text s) else .error (.descriptor .markedTakesNoArguments)
  | .list items =>
    if items.length = args.length + 1 then
      match items.mapM Value.text? with
      | some chunks => (interleave chunks args).map .text |>.mapError .fault
      | none => .error .wrongKind
    else .error (.descriptor (.chunkCount items.length args.length))
  | _ => .error .wrongKind

end Phrasebook

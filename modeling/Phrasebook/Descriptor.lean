import Phrasebook.Plural.Selector

set_option autoImplicit false

/-!
Descriptors: the forms in which an application states a message. What it passes is made one of the
forms once, when the message is stated.
-/
namespace Phrasebook

open Plural (Variations)

/-- A message as the application states it. -/
inductive Descriptor where
  /-- A text without arguments. -/
  | bare (text : String)
  /-- Literal chunks with an argument between each two. -/
  | template (chunks : List String) (args : List Value)
  /-- A text with a context, which is part of its id, and a comment for translators. -/
  | structured (message : String) (context comment : Value)
  /-- A text for each plural selector. -/
  | plural (variations : Variations)
  deriving Repr

/-- What an application passes where a message is wanted. -/
inductive Statement where
  | value (value : Value)
  | list (items : List Value)
  | mapping (entries : Dictionary Value Value)
  | descriptor (descriptor : Descriptor)
  deriving Repr

/-- The text that an error message shows for a statement. -/
def Statement.quoted : Statement → String
  | value v => v.quoted
  | list items => "[" ++ String.intercalate ", " (items.map Value.quoted) ++ "]"
  | mapping entries =>
    "\x7b" ++ String.intercalate ", " (entries.map fun (key, v) => key.quoted ++ ": " ++ v.quoted) ++
      "\x7d"
  | descriptor _ => "message descriptor"

/-- Why a statement is no message. -/
inductive DescriptorError where
  | noChunks
  | chunkCount (chunks args : Nat)
  | noMessage
  | noVariations
  | takesNoArguments (form : String)
  | plainTakesNoArguments (text : String)
  | markedTakesNoArguments
  | unsupported (shown : String)
  | noNumber
  deriving DecidableEq, Repr

namespace DescriptorError

def text : DescriptorError → String
  | noChunks => "template must contain at least one literal chunk"
  | chunkCount chunks args =>
    "template has " ++ toString chunks ++ " literal chunks for " ++ toString args ++
      " arguments, expected " ++ toString (args + 1)
  | noMessage => "MessageDescriptor should contain a message property"
  | noVariations => "plural variations must not be empty"
  | takesNoArguments form => form ++ " does not take arguments"
  | plainTakesNoArguments text =>
    "plain string does not take arguments, pass the literal chunks instead: " ++
      "t((" ++ Text.quoted text ++ ", ...), *args)"
  | markedTakesNoArguments => "plain string does not take arguments"
  | unsupported shown => "unsupported message descriptor: " ++ shown
  | noNumber => "plural message requires a number"

end DescriptorError

/-- The placeholder of an argument, by its position. -/
def placeholder (index : Nat) : String := "\x7b" ++ toString index ++ "\x7d"

/-- The chunks after the first, each behind its placeholder. -/
def chunksFrom : Nat → List String → String
  | _, [] => ""
  | index, chunk :: rest => placeholder index ++ chunk ++ chunksFrom (index + 1) rest

/-- The message text of literal chunks: numbered placeholders stand between them. -/
def templateMessage : List String → Except DescriptorError String
  | [] => .error .noChunks
  | first :: rest => .ok (first ++ chunksFrom 0 rest)

namespace Descriptor

/-- The name of the form, as error texts give it. -/
def form : Descriptor → String
  | bare _ => "BareMessage"
  | template _ _ => "TemplateMessage"
  | structured _ _ _ => "StructuredMessage"
  | plural _ => "PluralMessage"

/-- Chunks and arguments; there is one chunk more than arguments. -/
def ofChunks (chunks : List String) (args : List Value) : Except DescriptorError Descriptor :=
  if chunks.length = args.length + 1 then .ok (template chunks args)
  else .error (.chunkCount chunks.length args.length)

/-- A text with context and comment. -/
def ofMessage (message context comment : Value) : Except DescriptorError Descriptor :=
  match message with
  | .text s => .ok (structured s context comment)
  | _ => .error .noMessage

/-- Variations, of which there is one at least. -/
def ofVariations (variations : Variations) : Except DescriptorError Descriptor :=
  if variations.isEmpty then .error .noVariations else .ok (plural variations)

/-- A mapping with a message and, if it likes, a context and a comment. -/
def ofMapping (entries : Dictionary Value Value) : Except DescriptorError Descriptor :=
  let find (key : String) := (entries.get? (Value.text key)).getD .none
  match find "message" with
  | .none => .error .noMessage
  | message => ofMessage message (find "context") (find "comment")

/-- Makes a statement one of the forms. -/
def ofStatement (statement : Statement) (args : List Value) : Except DescriptorError Descriptor :=
  match statement with
  | .descriptor d => if args.isEmpty then .ok d else .error (.takesNoArguments d.form)
  | .value (.text s) => if args.isEmpty then .ok (bare s) else .error (.plainTakesNoArguments s)
  | .value v => .error (.unsupported v.quoted)
  | .mapping entries =>
    if args.isEmpty then ofMapping entries
    else .error (.takesNoArguments "MessageDescriptor")
  | .list items =>
    match items.mapM Value.text? with
    | some chunks => ofChunks chunks args
    | none => .error (.unsupported statement.quoted)

/-- The message text of a form. -/
def message : Descriptor → String
  | bare text => text
  | template chunks _ => (templateMessage chunks).toOption.getD ""
  | structured message _ _ => message
  | plural variations => variations.message

/-- The arguments of a template, by their position. -/
def values : Descriptor → Dictionary String Value
  | template _ args => args.zipIdx.map fun (arg, index) => (toString index, arg)
  | _ => []

end Descriptor

end Phrasebook

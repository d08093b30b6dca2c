import Phrasebook.Descriptor
import Phrasebook.Markup.Error
import Phrasebook.Text.Utf8

set_option autoImplicit false

/-!
Why a file gives no messages.
-/
namespace Phrasebook.Extract

inductive Fault where
  | unreadable (error : Text.DecodeError)
  | parse (error : Markup.ParseError)
  /-- A message is stated without its text. -/
  | noMessage (position : Source.Position)
  /-- A template has no chunks. -/
  | descriptor (error : DescriptorError)
  /-- A message has text that no catalog can hold. -/
  | unencodable (run : Text.LoneRun)
  deriving DecidableEq, Repr

/-- The position in the file, for the faults that have one. -/
def Fault.position? : Fault → Option Source.Position
  | parse error => error.position
  | noMessage position => some position
  | _ => none

/-- The text of a fault, without file and position. -/
def Fault.reason : Fault → String
  | unreadable error => "cannot read file: " ++ error.text
  | parse error => error.reason.text
  | noMessage _ => DescriptorError.noMessage.text
  | descriptor error => "MessageDescriptorError: " ++ error.text
  | unencodable run => "UnicodeEncodeError: " ++ run.text

/-- The text of a fault in a file. -/
def Fault.text (file : String) (fault : Fault) : String :=
  Source.located file fault.position? fault.reason

end Phrasebook.Extract

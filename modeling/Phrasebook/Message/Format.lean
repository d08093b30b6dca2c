import Phrasebook.Message.Render

set_option autoImplicit false

/-!
Formatting a message text: reading it and rendering the pattern. A text that is no message, or a
value that is no number where one is needed, leaves the text as it is and gives a warning.
-/
namespace Phrasebook.Message

open Number (Fault)

/-- Why a text was shown as it is. -/
inductive Warning where
  | unreadable (error : SyntaxError)
  | notANumber (name : String) (value : Value)
  deriving DecidableEq, Repr

namespace Warning

def text : Warning → String
  | unreadable error => error.text
  | notANumber name value =>
    "plural argument " ++ Text.quoted name ++ " is not a number: " ++ value.quoted

end Warning

/-- A formatted text, with the warning that it was not formatted. -/
structure Formatted where
  text : String
  warning : Option Warning
  deriving DecidableEq, Repr

/-- A failure that formatting does not turn into a warning. -/
inductive Escape where
  /-- The offset of a plural choice has digits that form no decimal number. -/
  | offsetNotDecimal
  | fault (fault : Fault)
  deriving DecidableEq, Repr

/-- Whether a text has a character that means something in a message. -/
def needsReading (text : String) : Bool := text.toList.any fun c => c = '{' || c = '}' || c = '\''

/-- Renders a pattern; a value that is no number gives the text itself and a warning. -/
def formatPattern [Plural.Rules] (text : String) (pattern : Pattern) (values : Values)
    (locale : Option String) : Except Escape Formatted :=
  match renderParts values locale none pattern with
  | .ok rendered => .ok ⟨rendered, none⟩
  | .error (.notANumber name value) => .ok ⟨text, some (.notANumber name value)⟩
  | .error (.fault fault) => .error (.fault fault)

/-- Formats a message text with values. -/
def format [Plural.Rules] (text : String) (values : Values) (locale : Option String) :
    Except Escape Formatted :=
  if needsReading text then
    match parse text with
    | .ok pattern => formatPattern text pattern values locale
    | .error error =>
      if error.isReported then .ok ⟨text, some (.unreadable error)⟩ else .error .offsetNotDecimal
  else .ok ⟨text, none⟩

end Phrasebook.Message

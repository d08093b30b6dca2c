import Phrasebook.Markup.Brace
import Phrasebook.Source.Position

set_option autoImplicit false

/-!
Why a file has no tree.
-/
namespace Phrasebook.Markup

inductive Reason where
  /-- A script does not follow the grammar of its dialect. -/
  | grammar
  | emptyExpression
  | severalExpressions
  | brace (error : BraceError)
  | openTag
  | openClosingTag
  | openScript
  | unexpectedInTag (c : Char)
  | openAttribute
  | openAttributeValue
  | notClosed (name : String)
  | notOpened (name : String)
  deriving DecidableEq, Repr

def Reason.text : Reason → String
  | grammar => "syntax error"
  | emptyExpression => "empty expression"
  | severalExpressions => "expected a single expression"
  | brace error => error.text
  | openTag => "unterminated tag"
  | openClosingTag => "unterminated closing tag"
  | openScript => "<script> was left open"
  | unexpectedInTag c => "unexpected character " ++ Text.quoted (String.singleton c) ++ " in tag"
  | openAttribute => "unterminated attribute"
  | openAttributeValue => "unterminated attribute value"
  | notClosed name => "<" ++ name ++ "> was left open"
  | notOpened name => "</" ++ name ++ "> attempted to close an element that was not open"

/-- A reason with the position in the file, if it has one. -/
structure ParseError where
  reason : Reason
  position : Option Source.Position
  deriving DecidableEq, Repr

end Phrasebook.Markup

import Phrasebook.Descriptor
import Phrasebook.Message.Format
import Phrasebook.Message.Identifier

set_option autoImplicit false

/-!
Translating a message: its text is looked up by id in the catalog of the active locale, and what
is found, or the text itself, is formatted with the values.
-/
namespace Phrasebook

/-- A compiled catalog: translations by id. -/
abbrev Translations := Dictionary String String

/-- Why a message has no text. -/
inductive TranslateFailure where
  | descriptor (error : DescriptorError)
  | escape (escape : Message.Escape)
  /-- The context is neither missing nor a text. -/
  | contextNotText
  deriving DecidableEq, Repr

/-- The translation under the id of a message; the message itself if there is none or an empty
one. -/
def lookup (message : String) (context : Option String) (translations : Translations) : String :=
  match translations.get? (Message.identifier message context) with
  | some translation => if translation.isEmpty then message else translation
  | none => message

/-- A context as part of an id: a missing one is none. -/
def contextText (context : Value) : Except TranslateFailure (Option String) :=
  if context.isMissing then .ok none
  else match context with
    | .text s => .ok (some s)
    | _ => .error .contextNotText

def formatted [Plural.Rules] (text : String) (values : Message.Values) (locale : String) :
    Except TranslateFailure Message.Formatted :=
  (Message.format text values (some locale)).mapError .escape

/-- The text of a message in a locale with its catalog; a plural message needs a number. -/
def translate [Plural.Rules] (descriptor : Descriptor) (locale : String)
    (translations : Translations) (number : Value) : Except TranslateFailure Message.Formatted := do
  match descriptor with
  | .bare text => formatted (lookup text none translations) [] locale
  | .structured message context _ =>
    let context ← contextText context
    formatted (lookup message context translations) [] locale
  | .template _ _ => formatted (lookup descriptor.message none translations) descriptor.values locale
  | .plural variations =>
    match number with
    | .none => .error (.descriptor .noNumber)
    | _ =>
      formatted (lookup variations.message none translations)
        [(Plural.argumentName, number)] locale

/-- The plural form of variations for a number. -/
def translatePlural [Plural.Rules] (number : Value) (variations : Plural.Variations)
    (locale : String) (translations : Translations) : Except TranslateFailure Message.Formatted := do
  let descriptor ← (Descriptor.ofVariations variations).mapError .descriptor
  translate descriptor locale translations number

end Phrasebook

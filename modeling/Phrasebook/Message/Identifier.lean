import Phrasebook.Digest
import Phrasebook.Text.Utf8

set_option autoImplicit false

/-!
The short id under which catalogs keep a message: it depends on the text and the context only, so
that the id made from a source file is the id that the application looks up. A message or a context in
which a surrogate stands alone has none.
-/
namespace Phrasebook.Message

open Text (CodePoints LoneRun)

/-- Stands between text and context; it occurs in no message. -/
def unitSeparator : Char := '\x1f'

def idLength : Nat := 6

/-- The text whose digest is the id: message, separator, context. No context is the empty one. -/
def payload (message : CodePoints) (context : Option CodePoints) : CodePoints :=
  message ++ unitSeparator.toNat :: context.getD []

/-- The bytes whose digest gives the id of a message. -/
def hashed (message : CodePoints) (context : Option CodePoints) : Except LoneRun (List UInt8) :=
  (payload message context).encode

/-- The first characters of the digest of bytes. -/
def shortDigest (bytes : List UInt8) : String :=
  String.ofList ((Digest.base64 (Digest.sha256 bytes)).take idLength)

/-- The id of a message. -/
def identify (message : CodePoints) (context : Option CodePoints) : Except LoneRun String :=
  (hashed message context).map shortDigest

/-- The id of a message of characters. -/
def identifier (message : String) (context : Option String) : String :=
  shortDigest (Text.encode (message.toList ++ unitSeparator :: (context.getD "").toList))

end Phrasebook.Message

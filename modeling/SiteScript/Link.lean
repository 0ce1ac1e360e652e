import SiteScript.Json.Parser
import SiteScript.Json.Printer
import SiteScript.Text.Base64
import SiteScript.Text.Utf8

/-!
# Links

A script travels in the fragment of a link: its JSON text, cleaned and free of
control characters, as UTF-8 in Base64.  This module writes the text, packs and
unpacks it, and puts the link together.
-/

namespace SiteScript.Link

open Text

/-! ## The text of a script -/

/-- Why a value has no text that may be published. -/
inductive TextError where
  /-- The text stopped being JSON when its control characters were escaped. -/
  | unreadable
  /-- The text still holds forbidden characters. -/
  | forbidden (error : ForbiddenControls)
  deriving Repr, DecidableEq

/-- The wording of the error, without the reader's own account of an unreadable text. -/
def TextError.message : TextError → String
  | .unreadable => "escaped payload is no longer valid json"
  | .forbidden error => error.message

/-- A control character as an escape inside a JSON string; other characters as they are. -/
def escapeControl (c : Char) : List Char :=
  if c = '\x08' then ['\\', 'b']
  else if c = '\t' then ['\\', 't']
  else if c = '\n' then ['\\', 'n']
  else if c = '\x0c' then ['\\', 'f']
  else if c = '\r' then ['\\', 'r']
  else if isControl c then Json.unitEscape c.toNat
  else [c]

/-- The text in which a value is published: compact, every string clean, and every control
character that is still there, as it may be in the name of a member, escaped. -/
def publish (value : Json) : Except TextError String := do
  let text := value.deepClean.compactChars
  if text.any isControl then
    let escaped := text.flatMap escapeControl
    if (Json.parseWithin? Json.depthLimit escaped).isNone then throw .unreadable
    match checkControls (.ofList escaped) with
    | .ok () => return .ofList escaped
    | .error error => throw (.forbidden error)
  else return .ofList text

/-! ## Packing a text -/

/-- The Base64 symbols of a text's UTF-8 octets. -/
def pack (text : String) : String :=
  .ofList (Base64.encode (Utf8.encode text.toList))

/-- Packs a text; one with forbidden characters is cleaned first. -/
def encode (text : String) : Except ForbiddenControls String := do
  match checkControls text with
  | .ok () => return pack text
  | .error _ =>
    checkControls (clean text)
    return pack (clean text)

/-- Why a text cannot be unpacked. -/
inductive DecodeError where
  | base64 (error : Base64.Error)
  | utf8 (error : Utf8.Error)
  deriving Repr, DecidableEq

/-- The wording of the error. -/
def DecodeError.message : DecodeError → String
  | .base64 error => "base64 decode: " ++ error.message
  | .utf8 error => "decoded payload is not utf-8: " ++ error.message

/-- Unpacks the octets of a text, ignoring blanks around it. -/
def unpackBytes (packed : List Char) : Except Base64.Error (List UInt8) :=
  Base64.decode (Utf8.encode (trimChars packed))

/-- Unpacks a text, ignoring blanks around it. -/
def decode (packed : String) : Except DecodeError String :=
  match unpackBytes packed.toList with
  | .error error => .error (.base64 error)
  | .ok bytes =>
    match Utf8.decode bytes with
    | .error error => .error (.utf8 error)
    | .ok text => .ok (.ofList text)

/-! ## The address -/

/-- A host without the slashes at its end. -/
def hostBase (host : String) : String :=
  .ofList (host.toList.reverse.dropWhile (· == '/')).reverse

/-- The link that carries a packed text, to the plain view or to the studio view. -/
def address (host packed : String) (studio : Bool) : String :=
  hostBase host ++ (if studio then "/studio/#" else "/#") ++ packed

end SiteScript.Link

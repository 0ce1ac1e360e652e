/-!
# UTF-8

A text as octets and back.  Decoding reads one octet at a time and knows, inside
a character, how many octets are still owed and which values the next one may
take; the tightened range of the second octet is what excludes overlong forms,
surrogates and code points beyond U+10FFFF.  A text that is not well formed is
reported with the position and the length of the first ill-formed part.
-/

namespace SiteScript.Text.Utf8

/-- The octet with the given value. -/
abbrev octet (value : Nat) : UInt8 :=
  UInt8.ofNat value

/-- The octets of one character. -/
def encodeChar (c : Char) : List UInt8 :=
  let code := c.toNat
  if code < 0x80 then [octet code]
  else if code < 0x800 then [octet (0xC0 + code / 0x40), octet (0x80 + code % 0x40)]
  else if code < 0x10000 then
    [octet (0xE0 + code / 0x1000), octet (0x80 + code / 0x40 % 0x40),
      octet (0x80 + code % 0x40)]
  else
    [octet (0xF0 + code / 0x40000), octet (0x80 + code / 0x1000 % 0x40),
      octet (0x80 + code / 0x40 % 0x40), octet (0x80 + code % 0x40)]

/-- The octets of a text. -/
def encode (text : List Char) : List UInt8 :=
  text.flatMap encodeChar

/-- Why octets are not the encoding of a text. -/
inductive Error where
  /-- `length` octets from `start` on begin no character. -/
  | invalid (length start : Nat)
  /-- The octets end inside the character that begins at `start`. -/
  | incomplete (start : Nat)
  deriving Repr, DecidableEq

/-- The wording of the error. -/
def Error.message : Error → String
  | .invalid length start =>
    "invalid utf-8 sequence of " ++ toString length ++ " bytes from index " ++ toString start
  | .incomplete start => "incomplete utf-8 byte sequence from index " ++ toString start

/-- The state between two octets. -/
inductive State where
  /-- A character begins here. -/
  | ready
  /-- Inside a character: `value` collects its bits, the next octet must lie
  between `low` and `high`, `owed` octets follow that one, and `seen` octets of
  the character have been read. -/
  | inside (value low high owed seen : Nat)
  deriving Repr, DecidableEq

/-- What the first octet of a longer character announces. -/
def lead? (value : Nat) : Option State :=
  if value < 0xC2 then none
  else if value < 0xE0 then some (.inside (value - 0xC0) 0x80 0xBF 0 1)
  else if value < 0xF0 then
    let low := if value == 0xE0 then 0xA0 else 0x80
    let high := if value == 0xED then 0x9F else 0xBF
    some (.inside (value - 0xE0) low high 1 1)
  else if value < 0xF5 then
    let low := if value == 0xF0 then 0x90 else 0x80
    let high := if value == 0xF4 then 0x8F else 0xBF
    some (.inside (value - 0xF0) low high 2 1)
  else none

/-- Decodes octets of which the first has the given position; `read` holds the
characters before it, last first. -/
def decodeFrom (position : Nat) (read : List Char) : State → List UInt8 → Except Error (List Char)
  | .ready, [] => .ok read.reverse
  | .inside _ _ _ _ seen, [] => .error (.incomplete (position - seen))
  | .ready, byte :: rest =>
    if byte.toNat < 0x80 then
      decodeFrom (position + 1) (Char.ofNat byte.toNat :: read) .ready rest
    else
      match lead? byte.toNat with
      | none => .error (.invalid 1 position)
      | some state => decodeFrom (position + 1) read state rest
  | .inside value low high owed seen, byte :: rest =>
    if low ≤ byte.toNat ∧ byte.toNat ≤ high then
      let collected := value * 0x40 + (byte.toNat - 0x80)
      match owed with
      | 0 => decodeFrom (position + 1) (Char.ofNat collected :: read) .ready rest
      | owed + 1 =>
        decodeFrom (position + 1) read (.inside collected 0x80 0xBF owed (seen + 1)) rest
    else .error (.invalid seen (position - seen))

/-- The text of which the octets are the encoding. -/
def decode (bytes : List UInt8) : Except Error (List Char) :=
  decodeFrom 0 [] .ready bytes

end SiteScript.Text.Utf8

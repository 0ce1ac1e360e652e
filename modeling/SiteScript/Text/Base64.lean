/-!
# Base64

The standard alphabet with padding.  Decoding is canonical: it accepts exactly
the texts that encoding produces, and names the first place where a text is not
one of them.
-/

namespace SiteScript.Text.Base64

/-- The symbol of a value below 64. -/
def symbol (value : Nat) : Char :=
  if value < 26 then Char.ofNat (0x41 + value)
  else if value < 52 then Char.ofNat (0x61 + (value - 26))
  else if value < 62 then Char.ofNat (0x30 + (value - 52))
  else if value = 62 then '+'
  else '/'

/-- The value of a symbol, given as an octet. -/
def value? (byte : UInt8) : Option Nat :=
  let code := byte.toNat
  if 0x41 ≤ code ∧ code ≤ 0x5A then some (code - 0x41)
  else if 0x61 ≤ code ∧ code ≤ 0x7A then some (code - 0x61 + 26)
  else if 0x30 ≤ code ∧ code ≤ 0x39 then some (code - 0x30 + 52)
  else if code = 0x2B then some 62
  else if code = 0x2F then some 63
  else none

/-- The octet that fills up the last group. -/
abbrev pad : UInt8 := 0x3D

/-- The symbols of some octets, in groups of four. -/
def encode : List UInt8 → List Char
  | [] => []
  | [a] =>
    let bits := a.toNat * 0x10
    [symbol (bits / 0x40), symbol (bits % 0x40), '=', '=']
  | [a, b] =>
    let bits := (a.toNat * 0x100 + b.toNat) * 4
    [symbol (bits / 0x1000), symbol (bits / 0x40 % 0x40), symbol (bits % 0x40), '=']
  | a :: b :: c :: rest =>
    let bits := (a.toNat * 0x100 + b.toNat) * 0x100 + c.toNat
    symbol (bits / 0x40000) :: symbol (bits / 0x1000 % 0x40) ::
      symbol (bits / 0x40 % 0x40) :: symbol (bits % 0x40) :: encode rest

/-- Why a text is not the encoding of any octets.  Positions count octets. -/
inductive Error where
  /-- An octet that is no symbol, or padding where none may be. -/
  | invalidSymbol (byte : UInt8) (position : Nat)
  /-- The text ends after a single symbol of its last group. -/
  | invalidLength (length : Nat)
  /-- The last group is not filled up to four. -/
  | invalidPadding
  /-- The last symbol has bits that belong to no octet. -/
  | invalidLastSymbol (byte : UInt8) (position : Nat)
  deriving Repr, DecidableEq

/-- The wording of the error. -/
def Error.message : Error → String
  | .invalidSymbol byte position =>
    "Invalid symbol " ++ toString byte.toNat ++ ", offset " ++ toString position ++ "."
  | .invalidLength length => "Invalid input length: " ++ toString length
  | .invalidPadding => "Invalid padding"
  | .invalidLastSymbol byte position =>
    "Invalid last symbol " ++ toString byte.toNat ++ ", offset " ++ toString position ++ "."

/-- The value of the symbol at a position. -/
def valueAt (position : Nat) (byte : UInt8) : Except Error Nat :=
  match value? byte with
  | some value => .ok value
  | none => .error (.invalidSymbol byte position)

/-- The symbols of the last group, as values, and the number of padding octets
after them.  `firstPad` is the position of the first padding octet, once there
is one. -/
def lastGroup (start : Nat) (firstPad : Option Nat) (position : Nat) :
    List UInt8 → Except Error (List Nat × Nat)
  | [] => .ok ([], 0)
  | byte :: rest =>
    if byte = pad then
      if position < start + 2 then .error (.invalidSymbol byte position)
      else do
        let (values, pads) ← lastGroup start (some (firstPad.getD position)) (position + 1) rest
        return (values, pads + 1)
    else
      match firstPad with
      | some first => .error (.invalidSymbol pad first)
      | none => do
        let value ← valueAt position byte
        let (values, pads) ← lastGroup start none (position + 1) rest
        return (value :: values, pads)

/-- The octets of the last group, which begins at `start` and has at most four
octets; an empty one ends an empty text only. -/
def decodeLast (start : Nat) (group : List UInt8) : Except Error (List UInt8) :=
  if group.isEmpty then .ok []
  else do
    let (values, pads) ← lastGroup start none start group
    let lastSymbol := group.getD (values.length - 1) pad
    if values.length < 2 then .error (.invalidLength (start + values.length))
    else if (values.length + pads) % 4 ≠ 0 then .error .invalidPadding
    else
      match values with
      | [a, b] =>
        if b % 0x10 ≠ 0 then .error (.invalidLastSymbol lastSymbol (start + 1))
        else .ok [UInt8.ofNat (a * 4 + b / 0x10)]
      | [a, b, c] =>
        let bits := (a * 0x40 + b) * 0x40 + c
        if bits % 4 ≠ 0 then .error (.invalidLastSymbol lastSymbol (start + 2))
        else .ok [UInt8.ofNat (bits / 0x400), UInt8.ofNat (bits / 4 % 0x100)]
      | [a, b, c, d] =>
        let bits := ((a * 0x40 + b) * 0x40 + c) * 0x40 + d
        .ok [UInt8.ofNat (bits / 0x10000), UInt8.ofNat (bits / 0x100 % 0x100),
          UInt8.ofNat (bits % 0x100)]
      | _ => .ok []

/-- Decodes groups of four, of which the first begins at `start`. -/
def decodeGroups (start : Nat) : List UInt8 → Except Error (List UInt8)
  | a :: b :: c :: d :: e :: rest => do
    let a ← valueAt start a
    let b ← valueAt (start + 1) b
    let c ← valueAt (start + 2) c
    let d ← valueAt (start + 3) d
    let bits := ((a * 0x40 + b) * 0x40 + c) * 0x40 + d
    let later ← decodeGroups (start + 4) (e :: rest)
    return UInt8.ofNat (bits / 0x10000) :: UInt8.ofNat (bits / 0x100 % 0x100) ::
      UInt8.ofNat (bits % 0x100) :: later
  | group => decodeLast start group

/-- Reports a last octet that stands alone behind complete groups and is neither
a symbol nor padding; it is looked at before anything else. -/
def checkLoneLast (bytes : List UInt8) : Except Error Unit :=
  match bytes.getLast? with
  | some byte =>
    if bytes.length % 4 = 1 ∧ byte ≠ pad ∧ (value? byte).isNone then
      .error (.invalidSymbol byte (bytes.length - 1))
    else .ok ()
  | none => .ok ()

/-- The octets of which the given ones are the encoding. -/
def decode (bytes : List UInt8) : Except Error (List UInt8) := do
  checkLoneLast bytes
  decodeGroups 0 bytes

end SiteScript.Text.Base64

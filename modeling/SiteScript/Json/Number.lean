import SiteScript.Number.Shortest

/-!
# Numbers of JSON

A number literal without fraction and exponent denotes an integer, kept exactly
from `-2 ^ 63` to `2 ^ 64 - 1`; every other literal denotes a binary64 number.
A binary64 number is written with the fewest digits that read back as it, and
always with a point or an exponent, so the two kinds never mix.
-/

namespace SiteScript

/-- A number of JSON. -/
inductive Number where
  | integer (value : Int)
  | double (value : Binary64)
  deriving Repr, DecidableEq

namespace Number

/-- Whether an integer is one of those that are kept exactly. -/
def isKept (value : Int) : Bool :=
  -0x8000000000000000 ≤ value && value < 0x10000000000000000

/-! ## Writing -/

/-- The decimal digits of a natural number. -/
def digitChars (n : Nat) : List Char :=
  Nat.toDigits 10 n

/-- An integer, with a sign if it is negative. -/
def integerChars (value : Int) : List Char :=
  if value < 0 then '-' :: digitChars value.natAbs else digitChars value.natAbs

/-- An integer, with a sign in any case. -/
def signedChars (value : Int) : List Char :=
  if value < 0 then integerChars value else '+' :: integerChars value

/-- A decimal in positional notation where its point falls within sixteen digits or
at most four places before the first one, and in scientific notation elsewhere. -/
def decimalChars (decimal : Decimal) : List Char :=
  let digits := digitChars decimal.digits
  let count : Int := digits.length
  let point := count + decimal.exponent
  if 0 ≤ decimal.exponent ∧ point ≤ 16 then
    digits ++ List.replicate decimal.exponent.toNat '0' ++ ['.', '0']
  else if 0 < point ∧ point ≤ 16 then
    digits.take point.toNat ++ '.' :: digits.drop point.toNat
  else if -5 < point ∧ point ≤ 0 then
    '0' :: '.' :: List.replicate (-point).toNat '0' ++ digits
  else
    let fraction := digits.drop 1
    digits.take 1 ++ (if fraction.isEmpty then [] else '.' :: fraction) ++
      'e' :: signedChars (point - 1)

/-- A binary64 number with the fewest digits that read back as it. -/
def doubleChars (value : Binary64) : List Char :=
  (if value.negative then ['-'] else []) ++
    (if value.isZero then ['0', '.', '0'] else decimalChars value.shortest)

/-- The literal of a number. -/
def chars : Number → List Char
  | .integer value => integerChars value
  | .double value => doubleChars value

/-! ## Reading -/

/-- Whether a character is a decimal digit. -/
def isDigit (c : Char) : Bool :=
  '0' ≤ c && c ≤ '9'

/-- The value of a decimal digit. -/
def digitValue (c : Char) : Nat :=
  c.toNat - 0x30

/-- The natural number written by digits. -/
def ofDigits (digits : List Char) : Nat :=
  digits.foldl (fun value c => value * 10 + digitValue c) 0

/-- The parts of a literal: the digits before the point, the digits after it, and the
exponent. -/
structure Literal where
  negative : Bool
  whole : List Char
  fraction : Option (List Char)
  exponent : Option Int
  deriving Repr, DecidableEq

/-- Reads the exponent of a literal, which is all that is left of it. -/
def exponent? : List Char → Option Int
  | '+' :: digits => unsigned? digits
  | '-' :: digits => (unsigned? digits).map (-·)
  | digits => unsigned? digits
where
  /-- Reads digits, of which there must be some and nothing else. -/
  unsigned? (digits : List Char) : Option Int :=
    if !digits.isEmpty && digits.all isDigit then some (ofDigits digits) else none

/-- Splits a literal into its parts: no leading zero, and digits on both sides of a
point. -/
def literal? (text : List Char) : Option Literal := do
  let (negative, text) := match text with
    | '-' :: rest => (true, rest)
    | text => (false, text)
  let (whole, text) := text.span isDigit
  guard (!whole.isEmpty && (whole.length == 1 || whole.head? != some '0'))
  let (fraction, text) ← match text with
    | '.' :: rest =>
      let (fraction, rest) := rest.span isDigit
      if fraction.isEmpty then none else some (some fraction, rest)
    | text => some (none, text)
  match text with
  | [] => return ⟨negative, whole, fraction, none⟩
  | c :: rest =>
    guard (c = 'e' ∨ c = 'E')
    return ⟨negative, whole, fraction, some (← exponent? rest)⟩

/-- Collects digits behind a significand as long as it stays below `2 ^ 64`, and
counts the digits that were collected. -/
def collect (significand : Nat) : List Char → Nat × Nat
  | [] => (significand, 0)
  | c :: rest =>
    let next := significand * 10 + digitValue c
    if next < 0x10000000000000000 then
      let (collected, count) := collect next rest
      (collected, count + 1)
    else (significand, 0)

/-- The binary64 number nearest to a power of ten. -/
def powerOfTen (exponent : Nat) : Binary64 :=
  (Binary64.ofRatio? (Nat.pow 10 exponent) 1).getD .zero

/-- A significand scaled by a power of ten, by one rounded product or quotient for each
308 places; nothing if it leaves the range.  A significand has at most twenty digits, so
three quotients make it vanish. -/
def scale? (value : Binary64) (exponent : Int) : Nat → Option Binary64
  | 0 => some .zero
  | fuel + 1 =>
    if exponent.natAbs ≤ 308 then
      if 0 ≤ exponent then value.mul? (powerOfTen exponent.toNat)
      else value.div? (powerOfTen exponent.natAbs)
    else if value.isZero then some value
    else if 0 ≤ exponent then none
    else (value.div? (powerOfTen 308)).bind fun quotient => scale? quotient (exponent + 308) fuel

/-- The binary64 number of a literal: its leading digits, as many as a 64-bit
significand holds, scaled by the power of ten that the other parts leave. -/
def double? (literal : Literal) : Option Binary64 :=
  let (significand, wholeCount) := collect 0 literal.whole
  let (significand, fractionCount) := collect significand (literal.fraction.getD [])
  let exponent : Int :=
    (literal.whole.length - wholeCount : Nat) - (fractionCount : Int) + literal.exponent.getD 0
  (scale? (.ofNat significand) exponent 8).map fun magnitude =>
    if literal.negative then magnitude.negate else magnitude

/-- The number of a literal, unless it is out of range. -/
def ofLiteral? (literal : Literal) : Option Number :=
  let magnitude := ofDigits literal.whole
  let value : Int := if literal.negative then -magnitude else magnitude
  let isMinusZero := literal.negative && magnitude == 0
  if literal.fraction.isNone && literal.exponent.isNone && isKept value && !isMinusZero then
    some (.integer value)
  else (double? literal).map .double

/-- The number with the given literal. -/
def ofChars? (text : List Char) : Option Number :=
  (literal? text).bind ofLiteral?

end Number

end SiteScript

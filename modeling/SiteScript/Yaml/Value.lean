import SiteScript.Json.Basic
import SiteScript.Yaml.Document

/-!
# Values of YAML nodes

The JSON value that a node stands for when nothing else is known about it.  A plain
scalar is a null, a truth value or a number if it is written like one, and a string
otherwise; scalars between quotes and blocks of lines are strings.  The tag of a scalar
may say which of these it is.  Mappings become objects, with their keys as they are
written.  Nodes of a kind of the document's own have no value.
-/

namespace SiteScript.Yaml

/-- Whether a text is a word for a null. -/
def isNullWord (text : String) : Bool :=
  ["~", "null", "Null", "NULL"].contains text

/-- Whether a plain scalar stands for a null. -/
def isNull (text : String) : Bool :=
  text.isEmpty || isNullWord text

/-- The truth value that a plain scalar stands for. -/
def flag? (text : String) : Option Bool :=
  if ["true", "True", "TRUE"].contains text then some true
  else if ["false", "False", "FALSE"].contains text then some false
  else none

/-! ## Integers -/

/-- The value of a digit in a base up to sixteen. -/
def digit? (base : Nat) (c : Char) : Option Nat :=
  (Text.Hex.value? c).bind fun value => if value < base then some value else none

/-- The number written by digits of a base, of which there must be some. -/
def ofBase? (base : Nat) (digits : List Char) : Option Nat :=
  if digits.isEmpty then none
  else digits.foldlM (fun value c => (digit? base c).map (value * base + ·)) 0

/-- Whether digits begin with a zero that does not stand alone; they are no number. -/
def isZeroPadded (text : List Char) : Bool :=
  match text with
  | '0' :: rest => !rest.isEmpty && rest.all Number.isDigit
  | _ => false

/-- The number written without a sign, in base sixteen, eight or two behind `0x`, `0o` and `0b`,
and in base ten otherwise. -/
def magnitude? (text : List Char) : Option Nat :=
  match text with
  | '0' :: 'x' :: digits => ofBase? 16 digits
  | '0' :: 'o' :: digits => ofBase? 8 digits
  | '0' :: 'b' :: digits => ofBase? 2 digits
  | digits => if isZeroPadded digits then none else ofBase? 10 digits

/-- The integer that a plain scalar stands for. -/
def integer? (text : List Char) : Option Int :=
  match text with
  | '-' :: rest => (magnitude? rest).map fun n => -(n : Int)
  | '+' :: rest => (magnitude? rest).map Int.ofNat
  | rest => (magnitude? rest).map Int.ofNat

/-- Whether an integer fits in 128 bits. -/
def isWide (value : Int) : Bool :=
  -0x80000000000000000000000000000000 ≤ value &&
    value < 0x100000000000000000000000000000000

/-! ## Fractions -/

/-- The binary64 number nearest to `digits · 10 ^ exponent`, or nothing if that is too large. -/
def nearest? (digits : Nat) (exponent : Int) : Option Binary64 :=
  let size := (Number.digitChars digits).length + exponent
  if digits = 0 || size < -330 then some .zero
  else if 310 < size then none
  else if 0 ≤ exponent then Binary64.ofRatio? (digits * Nat.pow 10 exponent.toNat) 1
  else Binary64.ofRatio? digits (Nat.pow 10 exponent.natAbs)

/-- The magnitude written with a point or an exponent, with digits on at least one side of the
point. -/
def fraction? (text : List Char) : Option Binary64 := do
  let (whole, text) := text.span Number.isDigit
  let (fraction, text) := match text with
    | '.' :: rest => rest.span Number.isDigit
    | text => ([], text)
  guard !(whole.isEmpty && fraction.isEmpty)
  let exponent ← match text with
    | [] => some 0
    | c :: rest => if c == 'e' || c == 'E' then Number.exponent? rest else none
  nearest? (Number.ofDigits (whole ++ fraction)) (exponent - fraction.length)

/-- The text without a sign in front of it. -/
def unsigned (text : List Char) : List Char :=
  match text with
  | '-' :: rest => rest
  | '+' :: rest => rest
  | rest => rest

/-- Whether a plain scalar is written as an infinity or as no number; JSON has neither. -/
def isNotFinite (text : String) : Bool :=
  [".inf", ".Inf", ".INF", "+.inf", "+.Inf", "+.INF", "-.inf", "-.Inf", "-.INF", ".nan", ".NaN",
    ".NAN"].contains text

/-- The fraction that a text stands for; digits that begin with zeros are one here. -/
def double? (text : List Char) : Option Binary64 :=
  (fraction? (unsigned text)).map fun magnitude =>
    if text.head? == some '-' then magnitude.negate else magnitude

/-! ## Values of scalars -/

/-- The value of an integer, which has to be small enough to be kept. -/
def integerValue? (value : Int) : Option Json :=
  if Number.isKept value then some (.num (.integer value)) else none

/-- The value of a text that stands for a fraction, an infinity or no number. -/
def fractionValue? (text : String) : Option Json :=
  if isNotFinite text then some .null
  else (double? text.toList).map fun value => .num (.double value)

/-- The value that a plain scalar without an integer in it stands for. -/
def fractionOrText (text : String) : Json :=
  if isZeroPadded (unsigned text.toList) then .str text
  else (fractionValue? text).getD (.str text)

/-- The value that a plain scalar stands for; there is none for an integer that is too large to
be kept and yet fits in 128 bits. -/
def plainValue? (text : String) : Option Json :=
  if isNull text then some .null
  else
    match flag? text with
    | some flag => some (.bool flag)
    | none =>
      match integer? text.toList with
      | some value => if isWide value then integerValue? value else some (fractionOrText text)
      | none => some (fractionOrText text)

/-- The value of a scalar of which a tag says the kind, unless that is the document's own. -/
def taggedValue? (tag : Tag) (text : String) (plain : Bool) : Option Json :=
  if tag = Tag.kind "bool" then (flag? text).map .bool
  else if tag = Tag.kind "int" then (integer? text.toList).bind integerValue?
  else if tag = Tag.kind "float" then fractionValue? text
  else if tag = Tag.kind "null" then if isNullWord text then some .null else none
  else if tag.isOwn && plain then plainValue? text
  else some (.str text)

/-- The value of a scalar. -/
def scalarValue? (properties : Properties) (text : String) (plain : Bool) : Option Json :=
  match properties.tag with
  | some tag => taggedValue? tag text plain
  | none => if plain then plainValue? text else some (.str text)

/-! ## Values of nodes -/

/-- The node that a node stands for, which may not be of the document's own kind. -/
def Document.followKnown (document : Document) (node : Node) : Reading Node := do
  let node ← document.follow node
  if node.properties.ownName?.isSome then failure
  return node

/-- The value that a node stands for, in which at most `limit` sequences and mappings may be
nested. -/
def Document.value (document : Document) (limit : Nat) (node : Node) : Reading Json := do
  match ← document.followKnown node with
  | .alias _ => failure
  | .scalar properties text plain => scalarValue? properties text plain
  | .sequence _ items =>
    match limit with
    | 0 => failure
    | limit + 1 => return .arr (← items.mapM (document.value limit))
  | .mapping _ entries =>
    match limit with
    | 0 => failure
    | limit + 1 =>
      let members ← entries.mapM fun (key, node) => do
        return (← document.text key, ← document.value limit node)
      return .obj (Members.ofPairs members)

end SiteScript.Yaml

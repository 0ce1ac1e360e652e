import SiteScript.Json.Number
import SiteScript.Text.Hex
import SiteScript.Text.Utf8
import SiteScript.Yaml.Cursor

/-!
# Properties of YAML nodes

In front of a node may stand an anchor, to which aliases refer, and a tag, which says
of what kind the node is.  A tag is written in full between angle brackets, or as a
handle and the rest of it; directives at the beginning of a document say what further
handles stand for.
-/

namespace SiteScript.Yaml

/-- Whether a character may be in the name of an anchor, a handle or a directive. -/
def isNameChar (c : Char) : Bool :=
  c.isAlphanum || c == '-' || c == '_'

/-! ## Anchors -/

/-- Reads the name of an anchor or an alias, whose mark is here. -/
def anchorName? (cursor : Cursor) : Option (String × Cursor) :=
  let cursor := cursor.skip 1
  let name := cursor.rest.takeWhile isNameChar
  let cursor := cursor.skip name.length
  let ends := match cursor.rest with
    | [] => true
    | c :: _ => isGap c || "?:,]\x7d%@\x60".toList.contains c
  if !name.isEmpty && ends then some (.ofList name, cursor) else none

/-! ## Tags -/

/-- A tag, as octets. -/
abbrev Tag := List UInt8

namespace Tag

/-- The octets of a text. -/
def ofText (text : String) : Tag :=
  Text.Utf8.encode text.toList

/-- The tag that is nothing but an exclamation mark. -/
def exclamation : Tag :=
  ofText "!"

/-- What the tags of the standard kinds begin with. -/
def standard : Tag :=
  ofText "tag:yaml.org,2002:"

/-- The tag of a standard kind. -/
def kind (name : String) : Tag :=
  standard ++ ofText name

/-- Whether a tag is one of the document's own, which begins with an exclamation mark. -/
def isOwn (tag : Tag) : Bool :=
  tag.head? == some 0x21

/-- The name behind the exclamation mark of an own tag, if it is a text. -/
def ownName? (tag : Tag) : Option String :=
  if tag.isOwn then
    match Text.Utf8.decode (tag.drop 1) with
    | .ok name => some (.ofList name)
    | .error _ => none
  else none

/-- Whether a character stands for itself in a tag; inside angle brackets and in directives,
commas and square brackets do so, too. -/
def isPlainChar (bracketed : Bool) (c : Char) : Bool :=
  isNameChar c || ";/?:@&=+$.!~*'()".toList.contains c || (bracketed && ",[]".toList.contains c)

/-- The number of octets that follow the first one of a character. -/
def continuations? (first : Nat) : Option Nat :=
  if first < 0x80 then some 0
  else if 0xC0 ≤ first ∧ first < 0xE0 then some 1
  else if 0xE0 ≤ first ∧ first < 0xF0 then some 2
  else if 0xF0 ≤ first ∧ first < 0xF8 then some 3
  else none

/-- The octets of a tag with which a text begins, and the number of characters in which they are
written, behind such a beginning of it; `read` is kept last first.  An octet may be written as a
percent sign and two digits; of the character that is being written so, `owed` octets are still to
come. -/
def octetsFrom? (bracketed : Bool) (read : List UInt8) (owed count : Nat) :
    List Char → Option (List UInt8 × Nat)
  | '%' :: high :: low :: rest => do
    let octet := (← Text.Hex.value? high) * 0x10 + (← Text.Hex.value? low)
    let owed ← if owed = 0 then continuations? octet
      else if 0x80 ≤ octet ∧ octet < 0xC0 then some (owed - 1)
      else none
    octetsFrom? bracketed (.ofNat octet :: read) owed (count + 3) rest
  | [] => if owed = 0 then some (read.reverse, count) else none
  | c :: rest =>
    if owed != 0 || c == '%' then none
    else if isPlainChar bracketed c then
      octetsFrom? bracketed (.ofNat c.toNat :: read) 0 (count + 1) rest
    else some (read.reverse, count)

/-- The octets of a tag with which a text begins, up to a zero, and the number of characters in
which all of them are written. -/
def octets? (bracketed : Bool) (text : List Char) : Option (List UInt8 × Nat) :=
  (octetsFrom? bracketed [] 0 0 text).map fun (octets, count) =>
    (octets.takeWhile (· != 0), count)

/-- The handle with which a text begins, whose first mark is here: a name between exclamation
marks.  The second mark may be missing; then it may turn out to be the beginning of a tag. -/
def handle (text : List Char) : List Char :=
  let name := (text.drop 1).takeWhile isNameChar
  let rest := text.drop (name.length + 1)
  '!' :: name ++ (if rest.head? == some '!' then ['!'] else [])

/-- Whether a handle has both of its marks. -/
def isClosed (handle : List Char) : Bool :=
  1 < handle.length && handle.getLast? == some '!'

end Tag

/-- What handles stand for. -/
abbrev Handles := List (List Char × Tag)

/-- What the handles stand for of which the directives do not say it. -/
def Handles.standard : Handles :=
  [(['!'], Tag.exclamation), (['!', '!'], Tag.standard)]

/-- Reads a tag, whose mark is here, without looking at what follows it. -/
def Handles.tagHere? (handles : Handles) (cursor : Cursor) : Option (Tag × Cursor) :=
  if (cursor.rest.drop 1).head? == some '<' then do
    let cursor := cursor.skip 2
    let (tag, count) ← Tag.octets? true cursor.rest
    let cursor := cursor.skip count
    if count != 0 && cursor.rest.head? == some '>' then some (tag, cursor.skip 1) else none
  else do
    let handle := Tag.handle cursor.rest
    let cursor := cursor.skip handle.length
    let (octets, count) ← Tag.octets? false cursor.rest
    let cursor := cursor.skip count
    if Tag.isClosed handle then
      if count = 0 then none
      else return ((← (handles ++ standard).lookup handle) ++ octets, cursor)
    else
      let octets := Tag.ofText (.ofList (handle.drop 1)) ++ octets
      if octets.isEmpty then return (Tag.exclamation, cursor)
      else return ((← (handles ++ standard).lookup ['!']) ++ octets, cursor)

/-- Reads the tag that begins here; a gap or, inside brackets, a comma has to follow. -/
def Handles.tag? (handles : Handles) (inFlow : Bool) (cursor : Cursor) :
    Option (Tag × Cursor) := do
  let (tag, cursor) ← handles.tagHere? cursor
  if gapFollows cursor.rest || (inFlow && cursor.rest.head? == some ',') then some (tag, cursor)
  else none

/-! ## Directives -/

/-- What a directive says. -/
inductive Directive where
  /-- That the document follows a version of the format that is understood. -/
  | version
  /-- What a handle stands for. -/
  | handle (handle : List Char) (tag : Tag)
  deriving Repr, DecidableEq

namespace Directive

/-- Reads a number of a version, which has at most nine digits. -/
def number? (cursor : Cursor) : Option (Nat × Cursor) :=
  let digits := cursor.rest.takeWhile Number.isDigit
  if digits.isEmpty || 9 < digits.length then none
  else some (Number.ofDigits digits, cursor.skip digits.length)

/-- Reads a version, which is 1.1 or 1.2. -/
def version? (cursor : Cursor) : Option (Directive × Cursor) := do
  let (major, cursor) ← number? cursor
  if cursor.rest.head? != some '.' then none
  let (minor, cursor) ← number? (cursor.skip 1)
  if major = 1 ∧ (minor = 1 ∨ minor = 2) then some (.version, cursor) else none

/-- Reads a handle and what it stands for. -/
def handle? (cursor : Cursor) : Option (Directive × Cursor) := do
  if cursor.rest.head? != some '!' then none
  let handle := Tag.handle cursor.rest
  let cursor := cursor.skip handle.length
  if !(Tag.isClosed handle || handle.length == 1) then none
  if !(cursor.rest.head?.map isSpace).getD false then none
  let cursor := cursor.skipWhile isSpace
  let (tag, count) ← Tag.octets? true cursor.rest
  let cursor := cursor.skip count
  if count != 0 && gapFollows cursor.rest then some (.handle handle tag, cursor) else none

/-- Reads a directive, whose mark is here, and the line end behind it. -/
def read? (cursor : Cursor) : Option (Directive × Cursor) := do
  let cursor := cursor.skip 1
  let name := cursor.rest.takeWhile isNameChar
  let cursor := cursor.skip name.length
  if !gapFollows cursor.rest then none
  let cursor := cursor.skipWhile isSpace
  let (directive, cursor) ← if name = ['Y', 'A', 'M', 'L'] then version? cursor
    else if name = ['T', 'A', 'G'] then handle? cursor
    else none
  let cursor := cursor.skipWhile isSpace
  let cursor := if cursor.rest.head? == some '#' then cursor.skipWhile (!isBreak ·) else cursor
  match cursor.lineEnd? with
  | some (_, cursor) => some (directive, cursor)
  | none => if cursor.rest.isEmpty then some (directive, cursor) else none

end Directive

end SiteScript.Yaml

import SiteScript.Json.Token

/-!
# JSON trees

A tree is what a JSON text says before its numbers and strings are understood: the
lists and objects are there, with literals and pieces at the leaves.  A tree has a
value only if every number in it is in range, every string in it is made of whole
characters, and its lists and objects are not nested too deeply.  A reader that
ignores a part of a text ignores that part of the tree, whether it has a value or not.
-/

namespace SiteScript.Json

/-- A JSON text taken apart. -/
inductive Tree where
  | null
  | bool (value : Bool)
  | num (literal : List Char)
  | str (pieces : List Piece)
  | arr (items : List Tree)
  | obj (members : List (List Piece × Tree))
  deriving Repr, Inhabited

/-! ## Strings -/

/-- Whether a unit is the first half of a surrogate pair. -/
def isHighHalf (unit : Nat) : Bool :=
  0xD800 ≤ unit && unit < 0xDC00

/-- Whether a unit is the second half of a surrogate pair. -/
def isLowHalf (unit : Nat) : Bool :=
  0xDC00 ≤ unit && unit < 0xE000

/-- The character that the halves of a surrogate pair stand for. -/
def pairChar (high low : Nat) : Char :=
  Char.ofNat (0x10000 + (high - 0xD800) * 0x400 + (low - 0xDC00))

/-- Reads the characters that pieces stand for, behind the characters `read`, which are kept last
first.  The halves of a surrogate pair must follow each other. -/
def charsFrom? (read : List Char) : List Piece → Option (List Char)
  | [] => some read.reverse
  | .char c :: rest => charsFrom? (c :: read) rest
  | .unit high :: .unit low :: rest =>
    if isHighHalf high then
      if isLowHalf low then charsFrom? (pairChar high low :: read) rest else none
    else if isLowHalf high then none
    else charsFrom? (Char.ofNat high :: read) (.unit low :: rest)
  | .unit unit :: rest =>
    if isHighHalf unit || isLowHalf unit then none
    else charsFrom? (Char.ofNat unit :: read) rest

/-- The text that pieces stand for. -/
def text? (pieces : List Piece) : Option String :=
  (charsFrom? [] pieces).map .ofList

/-! ## Values -/

namespace Tree

mutual
/-- The value of a tree, in which at most `limit` lists and objects may be nested. -/
def value? (limit : Nat) : Tree → Option Json
  | .null => some .null
  | .bool value => some (.bool value)
  | .num literal => (Number.ofChars? literal).map .num
  | .str pieces => (text? pieces).map .str
  | .arr items => if limit = 0 then none else (itemValues? (limit - 1) items).map .arr
  | .obj members => if limit = 0 then none else (memberValues? (limit - 1) members).map .obj
/-- The values of the items of a list. -/
def itemValues? (limit : Nat) : List Tree → Option (List Json)
  | [] => some []
  | item :: rest => do return (← item.value? limit) :: (← itemValues? limit rest)
/-- The members of an object with their values. -/
def memberValues? (limit : Nat) : List (List Piece × Tree) → Option (List (String × Json))
  | [] => some []
  | (name, tree) :: rest => do
    return (← text? name, ← tree.value? limit) :: (← memberValues? limit rest)
end

end Tree

end SiteScript.Json

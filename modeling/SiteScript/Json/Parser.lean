import SiteScript.Json.Tree

/-!
# Reading JSON

A tree is read from its tokens with a stack of the lists and objects that are still
open.  Every token either continues what is expected at that point or refuses the
text, so there is nothing to backtrack.  The value of a text is that of its tree, in
which the nesting of lists and objects is limited.
-/

namespace SiteScript.Json

/-- A list or object that is still open.  What it holds so far is kept last first. -/
inductive Frame where
  | list (items : List Tree)
  /-- An object whose member `name` is being read. -/
  | object (members : List (List Piece × Tree)) (name : List Piece)
  deriving Repr

/-- What may come next, with the open lists and objects, innermost first. -/
inductive Expectation where
  /-- A value. -/
  | value (openFrames : List Frame)
  /-- The first item of a list, or its end. -/
  | firstItem (openFrames : List Frame)
  /-- The first member of an object, or its end. -/
  | firstMember (openFrames : List Frame)
  /-- The name of a further member. -/
  | name (members : List (List Piece × Tree)) (openFrames : List Frame)
  /-- The colon behind the name of a member. -/
  | colon (members : List (List Piece × Tree)) (name : List Piece) (openFrames : List Frame)
  /-- A comma or an end, behind a complete value. -/
  | after (tree : Tree) (openFrames : List Frame)
  deriving Repr

/-- Begins a value. -/
def beginValue? (openFrames : List Frame) : Token → Option Expectation
  | .null => some (.after .null openFrames)
  | .bool value => some (.after (.bool value) openFrames)
  | .num literal => some (.after (.num literal) openFrames)
  | .str pieces => some (.after (.str pieces) openFrames)
  | .openList => some (.firstItem openFrames)
  | .openObject => some (.firstMember openFrames)
  | _ => none

/-- Reads one token. -/
def expectNext? : Expectation → Token → Option Expectation
  | .value openFrames, token => beginValue? openFrames token
  | .firstItem openFrames, .closeList => some (.after (.arr []) openFrames)
  | .firstItem openFrames, token => beginValue? (.list [] :: openFrames) token
  | .firstMember openFrames, .closeObject => some (.after (.obj []) openFrames)
  | .firstMember openFrames, .str name => some (.colon [] name openFrames)
  | .name members openFrames, .str name => some (.colon members name openFrames)
  | .colon members name openFrames, .colon => some (.value (.object members name :: openFrames))
  | .after tree (.list items :: outer), .comma => some (.value (.list (tree :: items) :: outer))
  | .after tree (.list items :: outer), .closeList =>
    some (.after (.arr (tree :: items).reverse) outer)
  | .after tree (.object members name :: outer), .comma =>
    some (.name ((name, tree) :: members) outer)
  | .after tree (.object members name :: outer), .closeObject =>
    some (.after (.obj ((name, tree) :: members).reverse) outer)
  | _, _ => none

/-- The tree of a text that ends here. -/
def complete? : Expectation → Option Tree
  | .after tree [] => some tree
  | _ => none

/-- The tree with the given tokens. -/
def ofTokens? (tokens : List Token) : Option Tree :=
  (tokens.foldlM expectNext? (.value [])).bind complete?

/-- The tree of a text that holds one value. -/
def tree? (text : List Char) : Option Tree :=
  (scan? text).bind ofTokens?

/-- The number of lists and objects that may be nested in a document. -/
def depthLimit : Nat := 127

/-- Reads a text that holds one value, with its members as written, in which at most
`limit` lists and objects are nested. -/
def parseWithin? (limit : Nat) (text : List Char) : Option Json :=
  (tree? text).bind (Tree.value? limit)

/-- Reads a text that holds one value, with its members as written. -/
def parseWritten? (text : String) : Option Json :=
  parseWithin? depthLimit text.toList

/-- Reads a text that holds one value in which every member is named once. -/
def parse? (text : String) : Option Json :=
  (parseWritten? text).map merged

end SiteScript.Json

/-!
# Reading YAML texts

A place in a YAML text, the characters that matter everywhere in it, and the gaps
between the words of a scalar: blanks and line ends, which fold into a space or into
the line ends that the gap has beyond its first.
-/

namespace SiteScript.Yaml

/-- Whether a character ends a line. -/
def isBreak (c : Char) : Bool :=
  c == '\n' || c == '\r' || c == '\x85' || c == '\u2028' || c == '\u2029'

/-- Whether a character is a blank within a line. -/
def isSpace (c : Char) : Bool :=
  c == ' ' || c == '\t'

/-- Whether a character ends a word. -/
def isGap (c : Char) : Bool :=
  isSpace c || isBreak c

/-- Whether a text is at its end or goes on with a character that ends a word. -/
def gapFollows : List Char → Bool
  | [] => true
  | c :: _ => isGap c

/-- Whether a text begins with three of the given character as a word of their own. -/
def marksDocument (mark : Char) : List Char → Bool
  | a :: b :: c :: rest => a == mark && b == mark && c == mark && gapFollows rest
  | _ => false

/-- The number of octets that characters take in UTF-8. -/
def octets (chars : List Char) : Nat :=
  chars.foldl (fun count c => count + c.utf8Size) 0

/-- A place in a text: the characters from there on, and where they stand. -/
structure Cursor where
  rest : List Char
  line : Nat
  /-- The number of characters in front of the place on its line. -/
  column : Nat
  /-- The number of octets in front of the place. -/
  index : Nat
  deriving Repr

namespace Cursor

/-- The beginning of a text. -/
def start (text : List Char) : Cursor :=
  { rest := text, line := 0, column := 0, index := 0 }

/-- The place behind some characters of the same line. -/
def skip (cursor : Cursor) (count : Nat) : Cursor :=
  { cursor with
    rest := cursor.rest.drop count
    column := cursor.column + count
    index := cursor.index + octets (cursor.rest.take count) }

/-- The place behind the characters of the same line that satisfy a condition. -/
def skipWhile (cursor : Cursor) (condition : Char → Bool) : Cursor :=
  cursor.skip (cursor.rest.takeWhile condition).length

/-- The beginning of the next line, behind a line end of some characters. -/
def newLine (cursor : Cursor) (count : Nat) : Cursor :=
  { cursor.skip count with line := cursor.line + 1, column := 0 }

/-- Reads a line end, if there is one here: how it counts in a scalar, and the place behind
it. -/
def lineEnd? (cursor : Cursor) : Option (Char × Cursor) :=
  match cursor.rest with
  | '\r' :: '\n' :: _ => some ('\n', cursor.newLine 2)
  | c :: _ =>
    if c == '\n' || c == '\r' || c == '\x85' then some ('\n', cursor.newLine 1)
    else if isBreak c then some (c, cursor.newLine 1)
    else none
  | [] => none

/-- Whether a line begins here with the mark of the beginning or the end of a document. -/
def atDocumentMark (cursor : Cursor) : Bool :=
  cursor.column == 0 && (marksDocument '-' cursor.rest || marksDocument '.' cursor.rest)

end Cursor

/-! ## Gaps -/

/-- A gap between two words of a scalar: the blanks before its first line end, and its line
ends. -/
structure Gap where
  spaces : List Char
  breaks : List Char
  deriving Repr

namespace Gap

/-- No gap. -/
def none : Gap :=
  { spaces := [], breaks := [] }

/-- Whether a gap has a line end. -/
def isBroken (gap : Gap) : Bool :=
  !gap.breaks.isEmpty

/-- What a gap stands for in a scalar. -/
def text (gap : Gap) : List Char :=
  match gap.breaks with
  | [] => gap.spaces
  | first :: more =>
    if first == '\n' then (if more.isEmpty then [' '] else more) else first :: more

/-- Reads the rest of a gap, in at most `fuel` steps.  No line of it may begin with a tab in front
of the column `indent`. -/
def read? (indent : Nat) (gap : Gap) (cursor : Cursor) : Nat → Option (Gap × Cursor)
  | 0 => some (gap, cursor)
  | fuel + 1 =>
    match cursor.lineEnd? with
    | some (c, cursor) => read? indent { gap with breaks := gap.breaks ++ [c] } cursor fuel
    | .none =>
      match cursor.rest with
      | c :: _ =>
        if isSpace c then
          if gap.isBroken && c == '\t' && cursor.column < indent then .none
          else
            let gap := if gap.isBroken then gap else { gap with spaces := gap.spaces ++ [c] }
            read? indent gap (cursor.skip 1) fuel
        else some (gap, cursor)
      | [] => some (gap, cursor)

end Gap

end SiteScript.Yaml

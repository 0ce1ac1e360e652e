import SiteScript.Json.Basic
import SiteScript.Text.Hex

/-!
# Tokens of JSON

A JSON text is a sequence of tokens with blanks between them.  A token says what is
written: a number is its literal, which may be out of range, and a string is a
sequence of pieces, which may end in the middle of a surrogate pair.  The tokens of a
value are defined by recursion on it, and the compact text of a value is the text of
its tokens with nothing in between.  Scanning goes the other way, one character at a
time: the mode says what is being read, and the tokens read so far are kept last
first.
-/

namespace SiteScript.Json

open Text

/-- A piece of a string. -/
inductive Piece where
  /-- A character, which stands for itself or is escaped by a letter. -/
  | char (c : Char)
  /-- A unit of sixteen bits, escaped by its four digits. -/
  | unit (value : Nat)
  deriving Repr, DecidableEq

/-- A token of a JSON text. -/
inductive Token where
  | openList
  | closeList
  | openObject
  | closeObject
  | comma
  | colon
  | null
  | bool (value : Bool)
  | num (literal : List Char)
  | str (pieces : List Piece)
  deriving Repr, DecidableEq

/-- The letter by which a character is escaped, if there is one and it has to be escaped. -/
def escapeLetter? (c : Char) : Option Char :=
  if c = '"' ∨ c = '\\' then some c
  else if c = '\x08' then some 'b'
  else if c = '\t' then some 't'
  else if c = '\n' then some 'n'
  else if c = '\x0c' then some 'f'
  else if c = '\r' then some 'r'
  else none

/-- The piece that a character is written as: a character below a space is escaped by its digits
if no letter escapes it. -/
def Piece.ofChar (c : Char) : Piece :=
  if c.toNat < 0x20 ∧ escapeLetter? c = none then .unit c.toNat else .char c

/-- The token that a text is written as. -/
def Token.ofText (text : String) : Token :=
  .str (text.toList.map Piece.ofChar)

/-- The token that a number is written as. -/
def Token.ofNumber (value : Number) : Token :=
  .num value.chars

mutual
/-- The tokens of a value. -/
def tokens : Json → List Token
  | .null => [.null]
  | .bool value => [.bool value]
  | .num value => [.ofNumber value]
  | .str text => [.ofText text]
  | .arr items => .openList :: tokensOfItems items ++ [.closeList]
  | .obj members => .openObject :: tokensOfMembers members ++ [.closeObject]
/-- The tokens of the items of a list, with commas between them. -/
def tokensOfItems : List Json → List Token
  | [] => []
  | [item] => item.tokens
  | item :: rest => item.tokens ++ .comma :: tokensOfItems rest
/-- The tokens of the members of an object, with commas between them. -/
def tokensOfMembers : List (String × Json) → List Token
  | [] => []
  | [(name, value)] => .ofText name :: .colon :: value.tokens
  | (name, value) :: rest =>
    .ofText name :: .colon :: value.tokens ++ .comma :: tokensOfMembers rest
end

/-! ## Writing tokens -/

/-- The escape of a unit of sixteen bits by its digits. -/
def unitEscape (value : Nat) : List Char :=
  ['\\', 'u', Hex.digit (value / 0x1000 % 0x10), Hex.digit (value / 0x100 % 0x10),
    Hex.digit (value / 0x10 % 0x10), Hex.digit (value % 0x10)]

/-- The text of a piece: a character stands for itself unless it has to be escaped. -/
def Piece.chars : Piece → List Char
  | .char c =>
    match escapeLetter? c with
    | some letter => ['\\', letter]
    | none => [c]
  | .unit value => unitEscape value

/-- The text of a token. -/
def Token.chars : Token → List Char
  | .openList => ['[']
  | .closeList => [']']
  | .openObject => ['\x7b']
  | .closeObject => ['\x7d']
  | .comma => [',']
  | .colon => [':']
  | .null => ['n', 'u', 'l', 'l']
  | .bool true => ['t', 'r', 'u', 'e']
  | .bool false => ['f', 'a', 'l', 's', 'e']
  | .num literal => literal
  | .str pieces => '"' :: pieces.flatMap Piece.chars ++ ['"']

/-! ## Scanning -/

/-- What is being read.  Characters and pieces read so far are kept last first. -/
inductive Mode where
  /-- Between two tokens. -/
  | between
  /-- In a number literal. -/
  | number (read : List Char)
  /-- In one of the words `null`, `true` and `false`. -/
  | word (read : List Char)
  /-- In a string. -/
  | string (read : List Piece)
  /-- Behind a backslash. -/
  | escape (read : List Piece)
  /-- In the four digits of a unit, of which `owed` are still to come. -/
  | unit (read : List Piece) (owed value : Nat)
  deriving Repr, DecidableEq

/-- The blanks of JSON. -/
def isSpace (c : Char) : Bool :=
  c == ' ' || c == '\t' || c == '\n' || c == '\r'

/-- The characters of number literals. -/
def isNumberChar (c : Char) : Bool :=
  Number.isDigit c || c == '+' || c == '-' || c == '.' || c == 'e' || c == 'E'

/-- The characters of words. -/
def isLetter (c : Char) : Bool :=
  'a' ≤ c && c ≤ 'z'

/-- The token that a word stands for. -/
def wordToken? (read : List Char) : Option Token :=
  if read.reverse = ['n', 'u', 'l', 'l'] then some .null
  else if read.reverse = ['t', 'r', 'u', 'e'] then some (.bool true)
  else if read.reverse = ['f', 'a', 'l', 's', 'e'] then some (.bool false)
  else none

/-- The token that a character between two tokens begins, if it is a whole one. -/
def markToken? (c : Char) : Option Token :=
  if c = '[' then some .openList
  else if c = ']' then some .closeList
  else if c = '\x7b' then some .openObject
  else if c = '\x7d' then some .closeObject
  else if c = ',' then some .comma
  else if c = ':' then some .colon
  else none

/-- The character that is escaped by a letter. -/
def escapedBy? (c : Char) : Option Char :=
  if c = '"' ∨ c = '\\' ∨ c = '/' then some c
  else if c = 'b' then some '\x08'
  else if c = 'f' then some '\x0c'
  else if c = 'n' then some '\n'
  else if c = 'r' then some '\r'
  else if c = 't' then some '\t'
  else none

/-- Where a scan stands: what is being read, and the tokens before it, last first. -/
structure Scan where
  mode : Mode
  done : List Token
  deriving Repr, DecidableEq

namespace Scan

/-- Ends a number or a word, which only the character behind it shows to be over. -/
def close? (scan : Scan) : Option Scan :=
  match scan.mode with
  | .number read =>
    (Number.literal? read.reverse).map fun _ => ⟨.between, .num read.reverse :: scan.done⟩
  | .word read => (wordToken? read).map fun token => ⟨.between, token :: scan.done⟩
  | _ => some scan

/-- Reads a character between two tokens. -/
def begin? (scan : Scan) (c : Char) : Option Scan :=
  if isSpace c then some scan
  else if c = '"' then some { scan with mode := .string [] }
  else if c = '-' ∨ Number.isDigit c then some { scan with mode := .number [c] }
  else if isLetter c then some { scan with mode := .word [c] }
  else (markToken? c).map fun token => { scan with done := token :: scan.done }

/-- Reads one character. -/
def step? (scan : Scan) (c : Char) : Option Scan :=
  match scan.mode with
  | .between => scan.begin? c
  | .number read =>
    if isNumberChar c then some { scan with mode := .number (c :: read) }
    else scan.close?.bind (begin? · c)
  | .word read =>
    if isLetter c then some { scan with mode := .word (c :: read) }
    else scan.close?.bind (begin? · c)
  | .string read =>
    if c = '"' then some ⟨.between, .str read.reverse :: scan.done⟩
    else if c = '\\' then some { scan with mode := .escape read }
    else if c.toNat < 0x20 then none
    else some { scan with mode := .string (.char c :: read) }
  | .escape read =>
    if c = 'u' then some { scan with mode := .unit read 4 0 }
    else (escapedBy? c).map fun meant => { scan with mode := .string (.char meant :: read) }
  | .unit read owed value =>
    (Hex.value? c).map fun digit =>
      let value := value * 0x10 + digit
      if owed ≤ 1 then { scan with mode := .string (.unit value :: read) }
      else { scan with mode := .unit read (owed - 1) value }

/-- The tokens of a text that ends here. -/
def finish? (scan : Scan) : Option (List Token) :=
  scan.close?.bind fun scan =>
    match scan.mode with
    | .between => some scan.done.reverse
    | _ => none

end Scan

/-- The tokens of a text. -/
def scan? (text : List Char) : Option (List Token) :=
  (text.foldlM Scan.step? ⟨.between, []⟩).bind Scan.finish?

end SiteScript.Json

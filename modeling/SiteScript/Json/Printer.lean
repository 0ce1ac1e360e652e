import SiteScript.Json.Token

/-!
# JSON texts

The two texts in which a value is written: the compact one, which is its tokens
and nothing else, and the indented one, in which every item and member has a
line of its own and empty lists and objects stay closed up.
-/

namespace SiteScript.Json

/-- The compact text of a value, as characters. -/
def compactChars (value : Json) : List Char :=
  value.tokens.flatMap Token.chars

/-- The compact text of a value. -/
def compact (value : Json) : String :=
  .ofList value.compactChars

/-- The end of a line and the indentation of the next one, two spaces for each level. -/
def newLine (level : Nat) : List Char :=
  '\n' :: List.replicate (2 * level) ' '

mutual
/-- The indented text of a value at the given level. -/
def indentedChars (level : Nat) : Json → List Char
  | .arr [] => ['[', ']']
  | .arr (item :: rest) =>
    '[' :: newLine (level + 1) ++ indentedChars (level + 1) item ++
      indentedItems (level + 1) rest ++ newLine level ++ [']']
  | .obj [] => ['\x7b', '\x7d']
  | .obj ((name, value) :: rest) =>
    '\x7b' :: newLine (level + 1) ++ (Token.ofText name).chars ++ [':', ' '] ++
      indentedChars (level + 1) value ++ indentedMembers (level + 1) rest ++ newLine level ++
      ['\x7d']
  | .null => Token.chars .null
  | .bool value => Token.chars (.bool value)
  | .num value => (Token.ofNumber value).chars
  | .str text => (Token.ofText text).chars
/-- The items behind the first one, each with the comma before it. -/
def indentedItems (level : Nat) : List Json → List Char
  | [] => []
  | item :: rest =>
    ',' :: newLine level ++ indentedChars level item ++ indentedItems level rest
/-- The members behind the first one, each with the comma before it. -/
def indentedMembers (level : Nat) : List (String × Json) → List Char
  | [] => []
  | (name, value) :: rest =>
    ',' :: newLine level ++ (Token.ofText name).chars ++ [':', ' '] ++ indentedChars level value ++
      indentedMembers level rest
end

/-- The indented text of a value. -/
def indented (value : Json) : String :=
  .ofList (indentedChars 0 value)

end SiteScript.Json

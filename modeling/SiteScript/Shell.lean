import SiteScript.Text.Blank

/-!
# Command lines

A command line is split into words at blanks.  Inside single or double quotes
blanks belong to the word, and a backslash escapes itself, either quote and, as
`\n`, a line end; in front of any other character it stands for itself.  Quoting
writes any text as one word that splits back to it.
-/

namespace SiteScript.Shell

/-! ## Quoting -/

/-- A character between single quotes. -/
def quoteChar (c : Char) : List Char :=
  if c = '\\' then ['\\', '\\']
  else if c = '\'' then ['\\', '\'']
  else if c = '\n' then ['\\', 'n']
  else [c]

/-- A text between single quotes, as characters. -/
def quoteChars (text : List Char) : List Char :=
  '\'' :: text.flatMap quoteChar ++ ['\'']

/-- A text between single quotes. -/
def quote (text : String) : String :=
  .ofList (quoteChars text.toList)

@[simp]
theorem toList_quote (text : String) : (quote text).toList = quoteChars text.toList := by
  simp [quote]

/-! ## Writing lines -/

/-- A part of a word. -/
inductive Segment where
  /-- Written as it is. -/
  | bare (text : String)
  /-- Written between quotes. -/
  | quoted (text : String)
  deriving Repr, DecidableEq

/-- How a part of a word is written. -/
def Segment.chars : Segment → List Char
  | .bare text => text.toList
  | .quoted text => quoteChars text.toList

/-- What a part of a word stands for. -/
def Segment.meaning : Segment → List Char
  | .bare text => text.toList
  | .quoted text => text.toList

/-- A word: its parts with nothing between them. -/
abbrev Word := List Segment

/-- What a word stands for. -/
def Word.argument (word : Word) : String :=
  .ofList (word.flatMap Segment.meaning)

/-- The line of some words, one space apart. -/
def line (words : List Word) : String :=
  .ofList (List.intercalate [' '] (words.map fun word => word.flatMap Segment.chars))

/-! ## Splitting -/

/-- Where a character stands. -/
inductive Mode where
  /-- Outside of quotes. -/
  | bare
  /-- Between two quotes of the given kind. -/
  | quoted (mark : Char)
  /-- Behind a backslash between two quotes of the given kind. -/
  | escaped (mark : Char)
  deriving Repr, DecidableEq

/-- How far a line has been split: the word being read, if any, and the words before it.
Characters and words are kept last first. -/
structure Splitting where
  mode : Mode
  word : Option (List Char)
  words : List (List Char)
  deriving Repr, DecidableEq

namespace Splitting

/-- Nothing has been read. -/
def start : Splitting := ⟨.bare, none, []⟩

/-- Adds characters to the word being read, or begins one with them. -/
def add (splitting : Splitting) (text : List Char) : Splitting :=
  { splitting with word := some (text.reverse ++ splitting.word.getD []) }

/-- Ends the word being read, if there is one. -/
def endWord (splitting : Splitting) : Splitting :=
  match splitting.word with
  | some word => { splitting with word := none, words := word :: splitting.words }
  | none => splitting

end Splitting

/-- What a backslash and the character behind it stand for between quotes. -/
def unescape (c : Char) : List Char :=
  if c = 'n' then ['\n']
  else if c = '\\' ∨ c = '\'' ∨ c = '"' then [c]
  else ['\\', c]

/-- Reads one character. -/
def Splitting.step (splitting : Splitting) (c : Char) : Splitting :=
  match splitting.mode with
  | .bare =>
    if c = '\'' ∨ c = '"' then { splitting.add [] with mode := .quoted c }
    else if Text.isBlank c then splitting.endWord
    else splitting.add [c]
  | .quoted mark =>
    if c = mark then { splitting with mode := .bare }
    else if c = '\\' then { splitting with mode := .escaped mark }
    else splitting.add [c]
  | .escaped mark => { splitting.add (unescape c) with mode := .quoted mark }

/-- The words of a line that ends here; a backslash with nothing behind it stands for
itself. -/
def Splitting.finish (splitting : Splitting) : List (List Char) :=
  let splitting := match splitting.mode with
    | .escaped _ => splitting.add ['\\']
    | _ => splitting
  (splitting.endWord.words.reverse).map List.reverse

/-- The words of a command line, as characters. -/
def splitChars (line : List Char) : List (List Char) :=
  (line.foldl Splitting.step .start).finish

/-- The words of a command line. -/
def split (line : String) : List String :=
  (splitChars line.toList).map .ofList

end SiteScript.Shell

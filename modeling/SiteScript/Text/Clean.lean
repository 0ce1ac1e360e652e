import SiteScript.Text.Blank
import SiteScript.Text.Hex

/-!
# Clean texts

A clean text is a sequence of words with one space between neighbours, where a
word is a maximal run of characters that are neither blank nor control
characters.  Cleaning a text keeps its words and their order and nothing else,
so two texts have the same clean form exactly when they have the same words.
-/

namespace SiteScript.Text

variable {α : Type}

/-- Puts a run in front of later runs, unless it is empty. -/
def consRun (run : List α) (later : List (List α)) : List (List α) :=
  if run.isEmpty then later else run :: later

/-- The run of kept elements with which a list begins, possibly empty, and the
runs after it. -/
def leadingRun (keep : α → Bool) (list : List α) : List α × List (List α) :=
  list.foldr
    (fun a pieces =>
      if keep a then (a :: pieces.1, pieces.2) else ([], consRun pieces.1 pieces.2))
    ([], [])

@[simp]
theorem leadingRun_nil (keep : α → Bool) : leadingRun keep [] = ([], []) :=
  rfl

theorem leadingRun_cons (keep : α → Bool) (a : α) (rest : List α) :
    leadingRun keep (a :: rest) =
      if keep a then (a :: (leadingRun keep rest).1, (leadingRun keep rest).2)
      else ([], consRun (leadingRun keep rest).1 (leadingRun keep rest).2) :=
  rfl

/-- The maximal runs of kept elements of a list, in order. -/
def runs (keep : α → Bool) (list : List α) : List (List α) :=
  consRun (leadingRun keep list).1 (leadingRun keep list).2

/-- The characters of words: neither blank nor control characters. -/
def isWordChar (c : Char) : Bool :=
  !isControl c && !isBlank c

/-- The words of a text. -/
def words (text : List Char) : List (List Char) :=
  runs isWordChar text

/-- The clean form of a text given as characters: its words, one space apart. -/
def cleanChars (text : List Char) : List Char :=
  List.intercalate [' '] (words text)

/-- The clean form of a text. -/
def clean (text : String) : String :=
  .ofList (cleanChars text.toList)

@[simp]
theorem toList_clean (text : String) : (clean text).toList = cleanChars text.toList := by
  simp [clean]

/-- The clean form of a text that may be missing, where a missing text counts as
an empty one. -/
def cleanOrEmpty (text : Option String) : String :=
  (text.map clean).getD ""

/-! ## Forbidden control characters -/

/-- A text holds characters that may not be published. -/
structure ForbiddenControls where
  /-- The offending characters in the order in which they occur. -/
  found : List Char
  deriving Repr, DecidableEq

/-- The way in which a control character is named: `0x` and two digits. -/
def controlCode (c : Char) : String :=
  .ofList ['0', 'x', Hex.upperDigit (c.toNat / 0x10 % 0x10), Hex.upperDigit (c.toNat % 0x10)]

namespace ForbiddenControls

/-- The names of the offending characters. -/
def codes (error : ForbiddenControls) : List String :=
  error.found.map controlCode

/-- The wording of the error. -/
def message (error : ForbiddenControls) : String :=
  "raw control characters found: " ++ ", ".intercalate error.codes

end ForbiddenControls

/-- Accepts exactly the texts without a forbidden control character. -/
def checkControls (text : String) : Except ForbiddenControls Unit :=
  match text.toList.filter isForbidden with
  | [] => .ok ()
  | found => .error ⟨found⟩

end SiteScript.Text

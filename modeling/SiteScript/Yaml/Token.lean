import SiteScript.Members
import SiteScript.Yaml.Property
import SiteScript.Yaml.Scalar

/-!
# Tokens of YAML

Indentation is turned into tokens that open and close collections, so that nodes can
be built without looking at columns.  That something was the key of a mapping shows
only at the colon behind it; until then every node that could be one is remembered as
a candidate, and the tokens that a key needs are put in front of it when the colon
comes.  The names of anchors become numbers, and handles of tags what they stand for.
-/

namespace SiteScript.Yaml

/-- A token of a YAML text. -/
inductive Token where
  | directive
  | documentStart
  | documentEnd
  | blockSequenceStart
  | blockMappingStart
  | blockEnd
  | flowSequenceStart
  | flowSequenceEnd
  | flowMappingStart
  | flowMappingEnd
  /-- The dash in front of an item of a block sequence. -/
  | blockEntry
  /-- The comma between nodes inside brackets. -/
  | flowEntry
  | key
  | value
  | alias (number : Nat)
  | anchor (number : Nat)
  | tag (tag : Tag)
  | scalar (text : String) (plain : Bool)
  deriving Repr, DecidableEq

/-- A node that may turn out to be a key. -/
structure Candidate where
  /-- Whether nothing but a key may stand here. -/
  required : Bool
  /-- The number of tokens in front of the node. -/
  place : Nat
  line : Nat
  column : Nat
  index : Nat
  deriving Repr

/-- How far a text has been scanned. -/
structure Scan where
  cursor : Cursor
  /-- The column of the innermost block collection. -/
  indent : Option Nat
  /-- The columns of the block collections around that one, innermost first. -/
  outer : List (Option Nat)
  /-- The candidate of the innermost brackets, or of the block around all brackets. -/
  candidate : Option Candidate
  /-- The candidates around that one, one for each pair of open brackets. -/
  outerCandidates : List (Option Candidate)
  /-- Whether a key may begin here. -/
  keyAllowed : Bool
  /-- The numbers of the anchors by their names. -/
  anchors : Members Nat
  /-- What handles stand for by the directives. -/
  handles : Handles
  /-- Whether a directive has said which version the document follows. -/
  hasVersion : Bool
  /-- The tokens so far, last first. -/
  tokens : List Token
  deriving Repr

namespace Scan

/-- Nothing has been scanned. -/
def start (text : List Char) : Scan :=
  { cursor := .start text, indent := none, outer := [], candidate := none,
    outerCandidates := [], keyAllowed := true, anchors := [], handles := [], hasVersion := false,
    tokens := [] }

/-- Whether the place is inside brackets. -/
def inFlow (scan : Scan) : Bool :=
  !scan.outerCandidates.isEmpty

/-- The first column that is inside the innermost block collection. -/
def nextIndent (scan : Scan) : Nat :=
  match scan.indent with
  | some column => column + 1
  | none => 0

/-- The scan with one more token. -/
def push (scan : Scan) (token : Token) : Scan :=
  { scan with tokens := token :: scan.tokens }

/-- The scan with a token behind the first `place` tokens. -/
def insert (scan : Scan) (place : Nat) (token : Token) : Scan :=
  let recent := scan.tokens.length - place
  { scan with tokens := scan.tokens.take recent ++ token :: scan.tokens.drop recent }

/-- Opens a block collection, whose token goes behind the first `place` tokens, if the column is
inside the innermost one. -/
def openBlock (scan : Scan) (column place : Nat) (token : Token) : Scan :=
  if !scan.inFlow && scan.nextIndent ≤ column then
    { scan with indent := some column, outer := scan.indent :: scan.outer }.insert place token
  else scan

/-- Closes the block collections that begin behind a column; all of them, if no column is
given. -/
def closeBlocks (scan : Scan) (column : Option Nat) : Scan :=
  if scan.inFlow then scan else close scan.indent scan.outer scan
where
  /-- Closes the innermost block collections, one after the other. -/
  close (indent : Option Nat) (outer : List (Option Nat)) (scan : Scan) : Scan :=
    match outer with
    | [] => { scan with indent, outer }
    | parent :: ancestors =>
      let behind : Bool := match indent, column with
        | some indent, some column => column < indent
        | some _, none => true
        | none, _ => false
      if behind then close parent ancestors (scan.push .blockEnd)
      else { scan with indent, outer }

/-- Gives up the candidate; one that had to be a key may not be given up. -/
def dropCandidate? (scan : Scan) : Option Scan :=
  match scan.candidate with
  | some candidate => if candidate.required then none else some { scan with candidate := none }
  | none => some scan

/-- Gives up a candidate that is on an earlier line or more than 1024 octets back. -/
def dropStale? (scan : Scan) : Option Scan :=
  match scan.candidate with
  | some candidate =>
    if candidate.line < scan.cursor.line || candidate.index + 1024 < scan.cursor.index then
      scan.dropCandidate?
    else some scan
  | none => some scan

/-- Remembers the node that begins here as a candidate, if a key may begin here. -/
def saveCandidate? (scan : Scan) : Option Scan :=
  if scan.keyAllowed then do
    let scan ← scan.dropCandidate?
    let cursor := scan.cursor
    let candidate : Candidate :=
      { required := !scan.inFlow && scan.indent == some cursor.column
        place := scan.tokens.length
        line := cursor.line
        column := cursor.column
        index := cursor.index }
    return { scan with candidate := some candidate }
  else some scan

/-- Skips blanks, comments and line ends, in at most `fuel` steps, and at the beginning of each
line one byte order mark.  A tab may not stand where a key may begin. -/
def skipGaps (scan : Scan) : Nat → Scan
  | 0 => scan
  | fuel + 1 =>
    let marked := scan.cursor.column == 0 && scan.cursor.rest.head? == some '\ufeff'
    let cursor := (scan.cursor.skip (if marked then 1 else 0)).skipWhile fun c =>
      c == ' ' || (c == '\t' && (scan.inFlow || !scan.keyAllowed))
    let cursor := if cursor.rest.head? == some '#' then cursor.skipWhile (!isBreak ·) else cursor
    match cursor.lineEnd? with
    | some (_, cursor) =>
      skipGaps { scan with cursor, keyAllowed := scan.keyAllowed || !scan.inFlow } fuel
    | none => { scan with cursor }

/-! ## Reading a token -/

/-- Moves behind some characters. -/
def skip (scan : Scan) (count : Nat) : Scan :=
  { scan with cursor := scan.cursor.skip count }

/-- Reads the mark of the beginning or the end of a document. -/
def documentMark? (scan : Scan) (token : Token) : Option Scan := do
  let scan ← (scan.closeBlocks none).dropCandidate?
  return { (scan.skip 3).push token with keyAllowed := false }

/-- Reads a directive.  The version may not be given twice, nor what a handle stands for. -/
def directive? (scan : Scan) : Option Scan := do
  let scan ← (scan.closeBlocks none).dropCandidate?
  let (directive, cursor) ← Directive.read? scan.cursor
  let scan := { scan.push .directive with cursor, keyAllowed := false }
  match directive with
  | .version => if scan.hasVersion then none else return { scan with hasVersion := true }
  | .handle handle tag =>
    if (scan.handles.lookup handle).isSome then none
    else return { scan with handles := (handle, tag) :: scan.handles }

/-- Reads an opening bracket. -/
def openFlow? (scan : Scan) (token : Token) : Option Scan := do
  let scan ← scan.saveCandidate?
  return { (scan.skip 1).push token with
    candidate := none
    outerCandidates := scan.candidate :: scan.outerCandidates
    keyAllowed := true }

/-- Reads a closing bracket. -/
def closeFlow? (scan : Scan) (token : Token) : Option Scan := do
  let scan ← scan.dropCandidate?
  let scan := { (scan.skip 1).push token with keyAllowed := false }
  return match scan.outerCandidates with
    | candidate :: outer => { scan with candidate, outerCandidates := outer }
    | [] => scan

/-- Reads a comma. -/
def flowEntry? (scan : Scan) : Option Scan := do
  let scan ← scan.dropCandidate?
  return { (scan.skip 1).push .flowEntry with keyAllowed := true }

/-- Reads the dash in front of an item. -/
def blockEntry? (scan : Scan) : Option Scan := do
  if !scan.inFlow && !scan.keyAllowed then none
  let scan := scan.openBlock scan.cursor.column scan.tokens.length .blockSequenceStart
  let scan ← scan.dropCandidate?
  return { (scan.skip 1).push .blockEntry with keyAllowed := true }

/-- Reads the question mark in front of a key. -/
def key? (scan : Scan) : Option Scan := do
  if !scan.inFlow && !scan.keyAllowed then none
  let scan := scan.openBlock scan.cursor.column scan.tokens.length .blockMappingStart
  let scan ← scan.dropCandidate?
  return { (scan.skip 1).push .key with keyAllowed := !scan.inFlow }

/-- Reads the colon in front of a value.  If there is a candidate, it was a key. -/
def value? (scan : Scan) : Option Scan :=
  match scan.candidate with
  | some candidate =>
    let scan := { scan.insert candidate.place .key with candidate := none }
    let scan := scan.openBlock candidate.column candidate.place .blockMappingStart
    some { (scan.skip 1).push .value with keyAllowed := false }
  | none =>
    if scan.inFlow then some { (scan.skip 1).push .value with keyAllowed := false }
    else if scan.keyAllowed then
      let scan := scan.openBlock scan.cursor.column scan.tokens.length .blockMappingStart
      some { (scan.skip 1).push .value with keyAllowed := true }
    else none

/-- Reads an alias; an anchor of its name has to be in front of it. -/
def alias? (scan : Scan) : Option Scan := do
  let scan ← scan.saveCandidate?
  let (name, cursor) ← anchorName? scan.cursor
  return { scan.push (.alias (← scan.anchors.get? name)) with cursor, keyAllowed := false }

/-- Reads an anchor.  Its number is how many names the anchors in front of it have; it becomes the
number of its name, also if the name had one before. -/
def anchor? (scan : Scan) : Option Scan := do
  let scan ← scan.saveCandidate?
  let (name, cursor) ← anchorName? scan.cursor
  let number := scan.anchors.length
  return { scan.push (.anchor number) with
    cursor
    anchors := scan.anchors.set name number
    keyAllowed := false }

/-- Reads a tag. -/
def tag? (scan : Scan) : Option Scan := do
  let scan ← scan.saveCandidate?
  let (tag, cursor) ← scan.handles.tag? scan.inFlow scan.cursor
  return { scan.push (.tag tag) with cursor, keyAllowed := false }

/-- Reads a block of lines. -/
def block? (scan : Scan) (folds : Bool) : Option Scan := do
  let scan ← scan.dropCandidate?
  let (text, cursor) ← Yaml.block? folds scan.indent scan.cursor
  return { scan.push (.scalar (.ofList text) false) with cursor, keyAllowed := true }

/-- Reads a quoted scalar. -/
def quoted? (scan : Scan) (read? : Cursor → Option (List Char × Cursor)) : Option Scan := do
  let scan ← scan.saveCandidate?
  let (text, cursor) ← read? scan.cursor
  return { scan.push (.scalar (.ofList text) false) with cursor, keyAllowed := false }

/-- Reads a plain scalar. -/
def plain? (scan : Scan) : Option Scan := do
  let scan ← scan.saveCandidate?
  let (text, broken, cursor) ← Yaml.plain? scan.inFlow scan.nextIndent scan.cursor
  return { scan.push (.scalar (.ofList text) true) with cursor, keyAllowed := broken }

/-- Whether a plain scalar may begin with a character in front of some others. -/
def beginsPlain (inFlow : Bool) (c : Char) (rest : List Char) : Bool :=
  if c == '-' then !(rest.head?.map isSpace).getD false
  else if c == '?' || c == ':' then !inFlow && !gapFollows rest
  else !isGap c && !isFlowMark c && !"#&*!|>'\"%@\x60".toList.contains c

/-- Reads the token that begins here. -/
def token? (scan : Scan) (c : Char) (rest : List Char) : Option Scan :=
  if scan.cursor.column == 0 && c == '%' then scan.directive?
  else if scan.cursor.column == 0 && marksDocument '-' (c :: rest) then
    scan.documentMark? .documentStart
  else if scan.cursor.column == 0 && marksDocument '.' (c :: rest) then
    scan.documentMark? .documentEnd
  else if c == '[' then scan.openFlow? .flowSequenceStart
  else if c == '\x7b' then scan.openFlow? .flowMappingStart
  else if c == ']' then scan.closeFlow? .flowSequenceEnd
  else if c == '\x7d' then scan.closeFlow? .flowMappingEnd
  else if c == ',' then scan.flowEntry?
  else if c == '-' && gapFollows rest then scan.blockEntry?
  else if c == '?' && (scan.inFlow || gapFollows rest) then scan.key?
  else if c == ':' && (scan.inFlow || gapFollows rest) then scan.value?
  else if c == '*' then scan.alias?
  else if c == '&' then scan.anchor?
  else if c == '!' then scan.tag?
  else if c == '|' && !scan.inFlow then scan.block? false
  else if c == '>' && !scan.inFlow then scan.block? true
  else if c == '\'' then scan.quoted? singleQuoted?
  else if c == '"' then scan.quoted? doubleQuoted?
  else if beginsPlain scan.inFlow c rest then scan.plain?
  else none

/-- Scans a text to its end, in at most `fuel` steps. -/
def run? (scan : Scan) : Nat → Option (List Token)
  | 0 => none
  | fuel + 1 => do
    let scan ← (scan.skipGaps (fuel + 1)).dropStale?
    let scan := scan.closeBlocks (some scan.cursor.column)
    match scan.cursor.rest with
    | [] =>
      let scan ← (scan.closeBlocks none).dropCandidate?
      return scan.tokens.reverse
    | c :: rest => (← scan.token? c rest).run? fuel

end Scan

/-- Whether a text may hold a character. -/
def isPrintable (c : Char) : Bool :=
  let code := c.toNat
  code == 0x09 || code == 0x0A || code == 0x0D || (0x20 ≤ code && code ≤ 0x7E) || code == 0x85 ||
    (0xA0 ≤ code && code ≤ 0xFFFD) || 0x10000 ≤ code

/-- The tokens of a text. -/
def tokens? (text : List Char) : Option (List Token) :=
  if text.all isPrintable then (Scan.start text).run? (text.length + 1) else none

end SiteScript.Yaml

import SiteScript.Json.Number
import SiteScript.Text.Hex
import SiteScript.Yaml.Cursor

/-!
# Scalars of YAML

The ways in which a scalar is written: plain, between single or double quotes, and
as a block of lines, which keeps its line ends or folds them.  Each reader gives the
text that the scalar stands for and the place behind it.
-/

namespace SiteScript.Yaml

/-! ## Plain scalars -/

/-- The characters that separate nodes inside brackets. -/
def isFlowMark (c : Char) : Bool :=
  c == ',' || c == '[' || c == ']' || c == '\x7b' || c == '\x7d'

/-- The word of a plain scalar with which a text begins, behind the characters `read`, which are
kept last first.  A colon in front of a gap ends the word, and so do the marks inside brackets;
there, a colon in front of a mark is refused. -/
def plainWord? (inFlow : Bool) (read : List Char) : List Char → Option (List Char)
  | [] => some read.reverse
  | c :: rest =>
    let markFollows := match rest with
      | next :: _ => isFlowMark next || next == '?'
      | [] => false
    if isGap c then some read.reverse
    else if inFlow && c == ':' && markFollows then none
    else if c == ':' && gapFollows rest then some read.reverse
    else if inFlow && isFlowMark c then some read.reverse
    else plainWord? inFlow (c :: read) rest

/-- Reads a plain scalar, in at most `fuel` steps, behind a gap and the characters `read`, which
are kept last first; its lines begin at the column `indent` or behind it, except inside brackets.
Says also whether the scalar is followed by a line end. -/
def plainFrom? (inFlow : Bool) (indent : Nat) (read : List Char) (gap : Gap) (cursor : Cursor) :
    Nat → Option (List Char × Bool × Cursor)
  | 0 => none
  | fuel + 1 =>
    if cursor.atDocumentMark || cursor.rest.head? == some '#' then
      some (read.reverse, gap.isBroken, cursor)
    else do
      let word ← plainWord? inFlow [] cursor.rest
      if word.isEmpty then some (read.reverse, gap.isBroken, cursor)
      else
        let read := (gap.text ++ word).reverseAux read
        let (gap, cursor) ← Gap.none.read? indent (cursor.skip word.length) fuel
        if !inFlow && gap.isBroken && cursor.column < indent then
          some (read.reverse, gap.isBroken, cursor)
        else plainFrom? inFlow indent read gap cursor fuel

/-- Reads a plain scalar. -/
def plain? (inFlow : Bool) (indent : Nat) (cursor : Cursor) :
    Option (List Char × Bool × Cursor) :=
  plainFrom? inFlow indent [] .none cursor (cursor.rest.length + 1)

/-! ## Quoted scalars -/

/-- Where a word between quotes ends. -/
inductive WordEnd where
  /-- At a blank or a line end. -/
  | gap
  /-- Behind the closing quote. -/
  | quote
  /-- Behind a backslash that stands in front of a line end. -/
  | escapedBreak
  deriving Repr, DecidableEq

/-- The word with which a text between single quotes begins, and the number of characters in
which it is written, behind such a beginning of it; a doubled quote stands for one. -/
def singleWord? (read : List Char) (count : Nat) :
    List Char → Option (List Char × WordEnd × Nat)
  | [] => none
  | '\'' :: '\'' :: rest => singleWord? ('\'' :: read) (count + 2) rest
  | c :: rest =>
    if c == '\'' then some (read.reverse, .quote, count + 1)
    else if isGap c then some (read.reverse, .gap, count)
    else singleWord? (c :: read) (count + 1) rest

/-- The character that an escape stands for. -/
def escaped? (c : Char) : Option Char :=
  match c with
  | '0' => some '\x00'
  | 'a' => some '\x07'
  | 'b' => some '\x08'
  | 't' => some '\t'
  | '\t' => some '\t'
  | 'n' => some '\n'
  | 'v' => some '\x0b'
  | 'f' => some '\x0c'
  | 'r' => some '\r'
  | 'e' => some '\x1b'
  | ' ' => some ' '
  | '"' => some '"'
  | '/' => some '/'
  | '\\' => some '\\'
  | 'N' => some '\x85'
  | '_' => some '\xa0'
  | 'L' => some '\u2028'
  | 'P' => some '\u2029'
  | _ => none

/-- The number of hexadecimal digits behind the letter of an escape by code point. -/
def codeLength? (c : Char) : Option Nat :=
  match c with
  | 'x' => some 2
  | 'u' => some 4
  | 'U' => some 8
  | _ => none

/-- The character with a code point; there is none for surrogates. -/
def charOfCode? (code : Nat) : Option Char :=
  if (0xD800 ≤ code && code ≤ 0xDFFF) || 0x10FFFF < code then none else some (Char.ofNat code)

/-- The word with which a text between double quotes begins, and the number of characters in
which it is written, behind such a beginning of it.  While an escape by code point is read, `code`
has the number of digits still owed and the value of those before. -/
def doubleWord? (read : List Char) (code : Option (Nat × Nat)) (count : Nat) :
    List Char → Option (List Char × WordEnd × Nat)
  | [] => none
  | c :: rest =>
    match code with
    | some (owed, value) => do
      let value := value * 0x10 + (← Text.Hex.value? c)
      if owed ≤ 1 then doubleWord? ((← charOfCode? value) :: read) none (count + 1) rest
      else doubleWord? read (some (owed - 1, value)) (count + 1) rest
    | none =>
      if c == '"' then some (read.reverse, .quote, count + 1)
      else if isGap c then some (read.reverse, .gap, count)
      else if c == '\\' then
        match rest with
        | [] => none
        | next :: behind =>
          if isBreak next then some (read.reverse, .escapedBreak, count + 1)
          else
            match codeLength? next with
            | some length => doubleWord? read (some (length, 0)) (count + 2) behind
            | none => do doubleWord? ((← escaped? next) :: read) none (count + 2) behind
      else doubleWord? (c :: read) none (count + 1) rest

/-- Reads the rest of a quoted scalar, in at most `fuel` steps, behind the characters `read`, which
are kept last first. -/
def quotedFrom? (word? : List Char → Option (List Char × WordEnd × Nat))
    (read : List Char) (cursor : Cursor) : Nat → Option (List Char × Cursor)
  | 0 => none
  | fuel + 1 =>
    if cursor.atDocumentMark then none
    else do
      let (word, ending, count) ← word? cursor.rest
      let read := word.reverseAux read
      let cursor := cursor.skip count
      match ending with
      | .quote => some (read.reverse, cursor)
      | .gap =>
        let (gap, cursor) ← Gap.none.read? 0 cursor fuel
        quotedFrom? word? (gap.text.reverseAux read) cursor fuel
      | .escapedBreak =>
        let (lineEnd, cursor) ← cursor.lineEnd?
        let (gap, cursor) ← Gap.read? 0 { spaces := [], breaks := [lineEnd] } cursor fuel
        quotedFrom? word? ((gap.breaks.drop 1).reverseAux read) cursor fuel

/-- Reads a scalar between single quotes, the first of which is here. -/
def singleQuoted? (cursor : Cursor) : Option (List Char × Cursor) :=
  quotedFrom? (singleWord? [] 0) [] (cursor.skip 1) (cursor.rest.length + 1)

/-- Reads a scalar between double quotes, the first of which is here. -/
def doubleQuoted? (cursor : Cursor) : Option (List Char × Cursor) :=
  quotedFrom? (doubleWord? [] none 0) [] (cursor.skip 1) (cursor.rest.length + 1)

/-! ## Blocks of lines -/

/-- What happens to the line ends behind a block. -/
inductive Chomping where
  /-- All are dropped. -/
  | strip
  /-- The first one is kept. -/
  | clip
  /-- All are kept. -/
  | keep
  deriving Repr, DecidableEq

/-- The way in which the header of a block says how it is read: its chomping, its indentation, zero
if it does not say so, and the number of characters in which it says both. -/
def blockHeader? : List Char → Option (Chomping × Nat × Nat)
  | sign :: rest =>
    match chomping? sign with
    | some chomping =>
      match rest with
      | digit :: _ =>
        if digit == '0' then none
        else if digit.isDigit then some (chomping, Number.digitValue digit, 2)
        else some (chomping, 0, 1)
      | [] => some (chomping, 0, 1)
    | none =>
      if sign == '0' then none
      else if sign.isDigit then
        match rest.head?.bind chomping? with
        | some chomping => some (chomping, Number.digitValue sign, 2)
        | none => some (.clip, Number.digitValue sign, 1)
      else some (.clip, 0, 0)
  | [] => some (.clip, 0, 0)
where
  /-- The chomping that a sign stands for. -/
  chomping? (sign : Char) : Option Chomping :=
    if sign == '-' then some .strip else if sign == '+' then some .keep else none

/-- Reads the indentation of a line of a block and the empty lines before it, in at most `fuel`
steps.  An indentation of zero is not known yet; `widest` is the widest one of the empty lines. -/
def blockBreaks? (indent widest : Nat) (breaks : List Char) (cursor : Cursor) :
    Nat → Option (Nat × List Char × Cursor)
  | 0 => none
  | fuel + 1 =>
    let blanks := (cursor.rest.takeWhile (· == ' ')).length
    let cursor := cursor.skip (if indent == 0 then blanks else min blanks (indent - cursor.column))
    let widest := max widest cursor.column
    if (indent == 0 || cursor.column < indent) && cursor.rest.head? == some '\t' then none
    else
      match cursor.lineEnd? with
      | some (c, cursor) => blockBreaks? indent widest (breaks ++ [c]) cursor fuel
      | none => some (widest, breaks, cursor)

/-- Reads the lines of a block, in at most `fuel` steps, behind the characters `read`, which are
kept last first.  The line ends between the last line and this one are `leading` and `breaks`, and
`afterBlank` says whether the last line began with a blank. -/
def blockLines? (folds : Bool) (indent : Nat) (read leading breaks : List Char)
    (afterBlank : Bool) (cursor : Cursor) :
    Nat → Option (List Char × List Char × List Char × Cursor)
  | 0 => none
  | fuel + 1 =>
    if cursor.column == indent && !cursor.rest.isEmpty then do
      let blank := (cursor.rest.head?.map isSpace).getD false
      let joined :=
        if folds && leading.head? == some '\n' && !afterBlank && !blank then
          if breaks.isEmpty then [' '] else breaks
        else leading ++ breaks
      let line := cursor.rest.takeWhile (!isBreak ·)
      let read := (joined ++ line).reverseAux read
      let cursor := cursor.skip line.length
      let (leading, cursor) := match cursor.lineEnd? with
        | some (c, cursor) => ([c], cursor)
        | none => ([], cursor)
      let (_, breaks, cursor) ← blockBreaks? indent 0 [] cursor fuel
      blockLines? folds indent read leading breaks blank cursor fuel
    else some (read.reverse, leading, breaks, cursor)

/-- Reads a block of lines, whose mark is here, inside a node that is indented to `parent`, or
outside of any. -/
def block? (folds : Bool) (parent : Option Nat) (cursor : Cursor) :
    Option (List Char × Cursor) := do
  let cursor := cursor.skip 1
  let (chomping, increment, length) ← blockHeader? cursor.rest
  let cursor := (cursor.skip length).skipWhile isSpace
  let cursor := if cursor.rest.head? == some '#' then cursor.skipWhile (!isBreak ·) else cursor
  let cursor ← match cursor.lineEnd? with
    | some (_, cursor) => some cursor
    | none => if cursor.rest.isEmpty then some cursor else none
  let fuel := cursor.rest.length + 1
  let given := if increment == 0 then 0 else parent.getD 0 + increment
  let (widest, breaks, cursor) ← blockBreaks? given 0 [] cursor fuel
  let outer := match parent with
    | some column => column + 1
    | none => 1
  let indent := if given == 0 then max widest outer else given
  let (text, leading, breaks, cursor) ← blockLines? folds indent [] [] breaks false cursor fuel
  let ending := match chomping with
    | .strip => []
    | .clip => leading
    | .keep => leading ++ breaks
  return (text ++ ending, cursor)

end SiteScript.Yaml

import SiteScript.Plan.Step
import SiteScript.Text.Blank

/-!
# Reading pieces of PHP

Programs are not parsed; what matters in them is recognised where it stands.  A
field of a page or post is a quoted field name, an arrow and a value, and a value
is a quoted literal or an expression that unpacks Base64.  The fields of a program
are read from left to right, and a field that has been read is not looked into
again, so what a value contains is never taken for a field.
-/

namespace SiteScript.Php

/-! ## Recognising -/

/-- What stands behind a fixed text, if the input begins with that text. -/
def after? : List Char → List Char → Option (List Char)
  | [], input => some input
  | c :: text, first :: input => if first = c then after? text input else none
  | _ :: _, [] => none

/-- The input without the blanks at its beginning. -/
def skipBlanks (input : List Char) : List Char :=
  input.dropWhile Text.isBlank

/-- What stands behind either quote. -/
def afterQuote? : List Char → Option (List Char)
  | c :: rest => if c = '"' ∨ c = '\'' then some rest else none
  | [] => none

/-- The characters of Base64, with its padding. -/
def isPackedChar (c : Char) : Bool :=
  ('A' ≤ c && c ≤ 'Z') || ('a' ≤ c && c ≤ 'z') || ('0' ≤ c && c ≤ '9') ||
    c == '+' || c == '/' || c == '='

/-- The body of a literal, as written, and what stands behind its closing mark.  A backslash
takes the character behind it along, which may not be a line end.  What has been read is kept
last first. -/
def literalBody? (mark : Char) (read : List Char) : List Char → Option (List Char × List Char)
  | [] => none
  | '\\' :: c :: rest =>
    if c = '\n' then none else literalBody? mark (c :: '\\' :: read) rest
  | c :: rest =>
    if c = mark then some (read.reverse, rest)
    else if c = '\\' then none
    else literalBody? mark (c :: read) rest

/-- What the body of a literal stands for: a backslash escapes itself, either quote and, as
`\n`, a line end. -/
def unescape : List Char → List Char
  | '\\' :: c :: rest =>
    if c = 'n' then '\n' :: unescape rest
    else if c = '\\' ∨ c = '\'' ∨ c = '"' then c :: unescape rest
    else '\\' :: c :: unescape rest
  | c :: rest => c :: unescape rest
  | [] => []

/-! ## Fields -/

/-- The fields of a page or post. -/
inductive FieldName where
  | type
  | status
  | title
  | body
  deriving Repr, DecidableEq

/-- The fields in order. -/
def FieldName.all : List FieldName :=
  [.type, .status, .title, .body]

/-- The text that names a field. -/
def FieldName.text : FieldName → String
  | .type => "post_type"
  | .status => "post_status"
  | .title => "post_title"
  | .body => "post_content"

/-- The value of a field as it is written. -/
inductive Value where
  /-- The symbols of a text in Base64. -/
  | packed (symbols : List Char)
  /-- The body of a quoted literal. -/
  | literal (body : List Char)
  deriving Repr, DecidableEq

/-- A field with its value. -/
structure Field where
  name : FieldName
  value : Value
  deriving Repr, DecidableEq

/-- Reads the name of a field, and what stands behind it. -/
def fieldName? (input : List Char) : Option (FieldName × List Char) :=
  FieldName.all.findSome? fun name =>
    (after? name.text.toList input).map fun rest => (name, rest)

/-- Reads an expression that unpacks Base64 between two quotes. -/
def packed? (input : List Char) : Option (Value × List Char) := do
  let input ← after? "base64_decode(".toList input
  let input ← afterQuote? (skipBlanks input)
  let rest ← afterQuote? (input.dropWhile isPackedChar)
  let rest ← after? [')'] (skipBlanks rest)
  return (.packed (input.takeWhile isPackedChar), rest)

/-- Reads the value of a field. -/
def value? : List Char → Option (Value × List Char)
  | '"' :: input => (literalBody? '"' [] input).map fun (body, rest) => (.literal body, rest)
  | '\'' :: input => (literalBody? '\'' [] input).map fun (body, rest) => (.literal body, rest)
  | input => packed? input

/-- Reads a field at the beginning of the input, and what stands behind it. -/
def field? (input : List Char) : Option (Field × List Char) := do
  let input ← afterQuote? input
  let (name, input) ← fieldName? input
  let input ← afterQuote? input
  let input ← after? ['=', '>'] (skipBlanks input)
  let (value, rest) ← value? (skipBlanks input)
  return ({ name, value }, rest)

/-- The fields in the input, of which the first characters, as many as the number says,
belong to a field that has been read. -/
def fieldsFrom : Nat → List Char → List Field
  | _, [] => []
  | skipped + 1, _ :: rest => fieldsFrom skipped rest
  | 0, c :: rest =>
    match field? (c :: rest) with
    | some (field, behind) => field :: fieldsFrom (rest.length - behind.length) rest
    | none => fieldsFrom 0 rest

/-- The fields of a program, from left to right. -/
def fields (program : String) : List Field :=
  fieldsFrom 0 program.toList

/-! ## Lookups -/

/-- Reads an expression that unpacks Base64 between double quotes: its symbols, and what stands
behind it. -/
def packedText? (input : List Char) : Option (List Char × List Char) := do
  let input ← after? "base64_decode(".toList input
  let input ← after? ['"'] (skipBlanks input)
  let rest ← after? ['"'] (input.dropWhile isPackedChar)
  let rest ← after? [')'] (skipBlanks rest)
  return (input.takeWhile isPackedChar, rest)

/-- Reads the lookup of a menu: the packed name of the menu. -/
def menuLookup? (input : List Char) : Option (List Char) := do
  let input ← after? "wp_get_nav_menu_object(".toList input
  let (symbols, rest) ← packedText? (skipBlanks input)
  let _ ← after? [')'] (skipBlanks rest)
  return symbols

/-- Reads the title in the lookup of a page or post: the packed title. -/
def titleLookup? (input : List Char) : Option (List Char) := do
  let input ← after? "\"title\"".toList input
  let input ← after? ['=', '>'] (skipBlanks input)
  let (symbols, _) ← packedText? (skipBlanks input)
  return symbols

end SiteScript.Php

import SiteScript.Json.Basic

/-!
# Records

A record has named fields in a fixed order.  It is written as an object and read
from an object, where members with other names are ignored, or from an array of
its fields in order, which may stop early but may not have too many items.  What
a missing field means is the field's own business: it may be required, have a
default, or be optional, and only an optional field may be `null`.
-/

namespace SiteScript.Record

/-- The fields of a record that are present. -/
abbrev Fields := List (String × Json)

/-- The present fields of a record with the given field names; a field that is present
twice refuses the record. -/
def fields? (names : List String) : Json → Option Fields
  | .obj members =>
    let known := members.filter fun member => names.contains member.1
    if (known.map Prod.fst).Nodup then some known else none
  | .arr items => if items.length ≤ names.length then some (names.zip items) else none
  | _ => none

namespace Fields

variable {α : Type}

/-- Reads a field that must be present. -/
def required (fields : Fields) (name : String) (read : Json → Option α) : Option α :=
  (fields.lookup name).bind read

/-- Reads a field that has a default. -/
def withDefault (fields : Fields) (name : String) (default : α) (read : Json → Option α) :
    Option α :=
  match fields.lookup name with
  | none => some default
  | some value => read value

/-- Reads an optional field, which is missing when it is absent or `null`. -/
def optional (fields : Fields) (name : String) (read : Json → Option α) : Option (Option α) :=
  match fields.lookup name with
  | none => some none
  | some .null => some none
  | some value => (read value).map some

end Fields

/-! ## Values of fields -/

variable {α : Type}

/-- Reads a string. -/
def text? : Json → Option String
  | .str text => some text
  | _ => none

/-- Reads a truth value. -/
def flag? : Json → Option Bool
  | .bool value => some value
  | _ => none

/-- Reads a list. -/
def list? (read : Json → Option α) : Json → Option (List α)
  | .arr items => items.mapM read
  | _ => none

/-- Reads the members of an object. -/
def members? : Json → Option (Members Json)
  | .obj members => some members
  | _ => none

/-- Reads one of several named choices: its name, or an object with that name alone and
`null`. -/
def choice? (choices : List (String × α)) : Json → Option α
  | .str name => choices.lookup name
  | .obj [(name, .null)] => choices.lookup name
  | _ => none

/-- The member that an optional field is written as, if it is present. -/
def optionalMember (name : String) (value : Option Json) : List (String × Json) :=
  match value with
  | none => []
  | some value => [(name, value)]

/-! ## Tagged records -/

/-- Splits the tag off a record that says by a tag which kind of record it is: the member
with the given name of an object, or the first item of an array. -/
def splitTag? (tag : String) : Json → Option (Json × Json)
  | .obj members =>
    (members.lookup tag).map fun value =>
      (value, .obj (members.filter fun member => member.1 != tag))
  | .arr (value :: rest) => some (value, .arr rest)
  | _ => none

/-- How the tag of a record may be given. -/
inductive TagForm where
  /-- By its name only. -/
  | named
  /-- By its name or by its place in the list of tags. -/
  | namedOrNumbered
  deriving Repr, DecidableEq

/-- The choice that a tag stands for. The places of a numbered tag are counted in `places`;
`named` may list further names. -/
def tagChoice? (form : TagForm) (named : List (String × α)) (places : List α) :
    Json → Option α
  | .str name => named.lookup name
  | .num (.integer place) =>
    match form with
    | .named => none
    | .namedOrNumbered => if 0 ≤ place then places[place.toNat]? else none
  | _ => none

end SiteScript.Record

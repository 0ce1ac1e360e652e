import SiteScript.Plan.Basic
import SiteScript.Shape
import SiteScript.Yaml.Value

/-!
# Records in YAML

A YAML scalar does not say whether it is a string, so a record is read from YAML
knowing its shape: where a string is expected a scalar is one as it is written, and an
empty one is an empty list or an empty record where one of those is expected.  Tags
matter only where a value may be absent, may be one of several words or may be any.
The result is the JSON value from which the record itself is read.
-/

namespace SiteScript.Yaml

/-- Whether a node is a plain scalar without a text. -/
def Node.isEmpty : Node → Bool
  | .scalar _ text plain => plain && text.isEmpty
  | _ => false

namespace Document

/-- Reads a string that may be absent. -/
def optionalText (document : Document) (node : Node) : Reading Json := do
  match ← document.follow node with
  | .scalar properties text true =>
    match properties.tag with
    | none => return if isNull text then .null else .str text
    | some tag =>
      if tag = Tag.kind "null" then
        if isNullWord text then return .null else failure
      else return .str text
  | .scalar _ text false => return .str text
  | _ => failure

/-- Reads one of several words, which is a text or the tag of a null. -/
def choice (document : Document) (node : Node) : Reading Json := do
  match ← document.follow node with
  | .scalar properties text plain =>
    match properties.ownName? with
    | some name => if plain && isNull text then return .str name else failure
    | none => return .str text
  | _ => failure

mutual
/-- Reads a node of the given shape.  At most `limit` sequences and mappings may be nested in what
the shape knows. -/
def read (document : Document) (limit : Nat) : Shape → Node → Reading Json
  | .text, node => return .str (← document.text node)
  | .optionalText, node => document.optionalText node
  | .choice, node => document.choice node
  | .list item, node => do
    match ← document.follow node with
    | .sequence _ items =>
      if limit = 0 then failure
      return .arr (← items.mapM (read document (limit - 1) item))
    | node => if node.isEmpty then return .arr [] else failure
  | .record fields, node => do
    match ← document.follow node with
    | .mapping _ entries =>
      if limit = 0 then failure
      let known ← entries.mapM fun (key, node) => do
        let name ← document.text key
        let value ← readEntry document (limit - 1) fields name node
        return value.toList.map fun value => (name, value)
      return .obj known.flatten
    | node => if node.isEmpty then return .obj [] else failure
  | .value, node => document.value limit node
/-- Reads the entry of a record with the given name; names that it does not know are ignored. -/
def readEntry (document : Document) (limit : Nat) :
    List (String × Shape) → String → Node → Reading (Option Json)
  | [], _, _ => return none
  | (name, shape) :: rest, wanted, node =>
    if name = wanted then return some (← read document limit shape node)
    else readEntry document limit rest wanted node
end

end Document

/-- The number of sequences and mappings that may be nested in a file. -/
def depthLimit : Nat := 128

/-- Reads a text of the given shape. -/
def read? (shape : Shape) (text : String) : Option Json := do
  let document := Document.ofRoot (← parse? text)
  document.run? (document.read depthLimit shape)

/-- Reads the text of a plan. -/
def parsePlan? (text : String) : Option Plan := do
  Plan.ofJson? (← read? .plan text)

/-- Reads the text of settings. -/
def parseSettings? (text : String) : Option Settings := do
  Settings.ofJson? (← read? .settings text)

end SiteScript.Yaml

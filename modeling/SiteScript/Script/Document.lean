import SiteScript.Json.Parser
import SiteScript.Script.Instruction

/-!
# Script documents

A script document says where a visitor lands, which versions the runtime uses,
and what it executes.  An entry that is no known instruction is kept as it is, so
documents from elsewhere survive being read and written.
-/

namespace SiteScript

/-- One entry of a script. -/
inductive Entry where
  | known (instruction : Instruction)
  /-- A value that is no known instruction. -/
  | foreign (value : Json)
  deriving Repr, DecidableEq

namespace Entry

/-- The name of an entry's kind; a foreign entry has one if it is tagged with a string. -/
def kindName : Entry → String
  | .known instruction => instruction.kindName
  | .foreign value =>
    match value.member? "step" with
    | some (.str name) => name
    | _ => "<untagged>"

/-- The instruction of a known entry. -/
def instruction? : Entry → Option Instruction
  | .known instruction => some instruction
  | .foreign _ => none

/-- An entry as a JSON value. -/
def toJson : Entry → Json
  | .known instruction => instruction.toJson
  | .foreign value => value

/-- Reads an entry, which any value is. -/
def ofJson (value : Json) : Entry :=
  match Instruction.ofJson? .namedOrNumbered value with
  | some instruction => .known instruction
  | none => .foreign value

end Entry

/-- The versions that a runtime uses. -/
structure Versions where
  php : String
  wp : String
  deriving Repr, DecidableEq

namespace Versions

/-- Versions as a JSON value. -/
def toJson (versions : Versions) : Json :=
  .obj [("php", .str versions.php), ("wp", .str versions.wp)]

/-- Reads versions, both of which are required. -/
def ofJson? (value : Json) : Option Versions := do
  let fields ← Record.fields? ["php", "wp"] value
  let php ← fields.required "php" Record.text?
  let wp ← fields.required "wp" Record.text?
  return { php, wp }

end Versions

/-- A script with what the runtime needs to know before it starts. -/
structure Document where
  landingPage : String
  versions : Versions
  extensionBundles : List String
  entries : List Entry
  deriving Repr, DecidableEq

namespace Document

/-- A document without any content. -/
def empty : Document :=
  { landingPage := "", versions := { php := "", wp := "" }, extensionBundles := [], entries := [] }

/-- The known instructions in order. -/
def instructions (document : Document) : List Instruction :=
  document.entries.filterMap Entry.instruction?

/-- The document with one more entry. -/
def push (document : Document) (entry : Entry) : Document :=
  { document with entries := document.entries ++ [entry] }

/-- A document as a JSON value. -/
def toJson (document : Document) : Json :=
  .obj [("landingPage", .str document.landingPage),
    ("preferredVersions", document.versions.toJson),
    ("phpExtensionBundles", .texts document.extensionBundles),
    ("steps", .arr (document.entries.map Entry.toJson))]

/-- Reads a document, every field of which may be missing. -/
def ofJson? (value : Json) : Option Document := do
  let fields ← Record.fields?
    ["landingPage", "preferredVersions", "phpExtensionBundles", "steps"] value
  let landingPage ← fields.withDefault "landingPage" "" Record.text?
  let versions ← fields.withDefault "preferredVersions" empty.versions Versions.ofJson?
  let extensionBundles ←
    fields.withDefault "phpExtensionBundles" [] (Record.list? Record.text?)
  let entries ← fields.withDefault "steps" [] (Record.list? fun value => some (Entry.ofJson value))
  return { landingPage, versions, extensionBundles, entries }

/-! ## Importing a text -/

/-- Why a text cannot be imported. -/
inductive ImportError where
  /-- The text is not JSON, or a field of the document has the wrong form. -/
  | invalidFormat
  /-- The text has no list of steps with at least one step in it. -/
  | noSteps
  deriving Repr, DecidableEq

/-- The wording of the error. -/
def ImportError.message : ImportError → String
  | .invalidFormat => "invalid blueprint format"
  | .noSteps => "invalid blueprint format: expected a non-empty `steps` array"

/-- Whether a value has a list of steps with at least one step in it. -/
def hasSteps (value : Json) : Bool :=
  match value.member? "steps" with
  | some (.arr (_ :: _)) => true
  | _ => false

/-- Reads the text of a document that has at least one step. -/
def parse (text : String) : Except ImportError Document :=
  match Json.parse? text with
  | none => .error .invalidFormat
  | some value =>
    if hasSteps value then
      match ofJson? value with
      | some document => .ok document
      | none => .error .invalidFormat
    else .error .noSteps

end Document

end SiteScript

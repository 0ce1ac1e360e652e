import SiteScript.Files
import SiteScript.Json.Shape
import SiteScript.Script.Document
import SiteScript.Yaml.Shape

/-!
# Loading

Plans, documents and settings as they are loaded from files.  A plan is YAML or JSON
by the name of its file, a document is always JSON, and settings are always YAML.
-/

namespace SiteScript

/-- Why something cannot be loaded from the file at a path. -/
inductive LoadError where
  | unreadablePlan (path : String)
  | invalidYamlPlan (path : String)
  | invalidJsonPlan (path : String)
  | unreadableDocument (path : String)
  | invalidDocument (path : String) (error : Document.ImportError)
  | unreadableSettings (path : String)
  | invalidSettings (path : String)
  deriving Repr, DecidableEq

namespace LoadError

/-- The wording of the error. -/
def message : LoadError → String
  | .unreadablePlan path => "Failed to read builder payload from " ++ path
  | .invalidYamlPlan path => "Failed to deserialize YAML payload from " ++ path
  | .invalidJsonPlan path => "Failed to deserialize JSON payload from " ++ path
  | .unreadableDocument path => "Failed to read blueprint from " ++ path
  | .invalidDocument path _ => "Failed to import " ++ path
  | .unreadableSettings path => "Failed to read config from " ++ path
  | .invalidSettings path => "Failed to deserialize YAML config from " ++ path

/-- The wording of the error with that of its cause. -/
def fullMessage (error : LoadError) : String :=
  match error with
  | .invalidDocument _ cause => error.message ++ ": " ++ cause.message
  | _ => error.message

end LoadError

namespace Files

/-- Whether the file at a path holds YAML, by its name. -/
def isYaml (path : String) : Bool :=
  extension? path == some "yaml" || extension? path == some "yml"

/-- Loads a plan. -/
def loadPlan (files : Files) (path : String) : Except LoadError Plan :=
  match files.readText? path with
  | none => .error (.unreadablePlan path)
  | some text =>
    if isYaml path then
      match Yaml.parsePlan? text with
      | some plan => .ok plan
      | none => .error (.invalidYamlPlan path)
    else
      match Json.parsePlan? text with
      | some plan => .ok plan
      | none => .error (.invalidJsonPlan path)

/-- Loads a document. -/
def loadDocument (files : Files) (path : String) : Except LoadError Document :=
  match files.readText? path with
  | none => .error (.unreadableDocument path)
  | some text =>
    match Document.parse text with
    | .ok document => .ok document
    | .error error => .error (.invalidDocument path error)

/-- Loads settings. -/
def loadSettings (files : Files) (path : String) : Except LoadError Settings :=
  match files.readText? path with
  | none => .error (.unreadableSettings path)
  | some text =>
    match Yaml.parseSettings? text with
    | some settings => .ok settings
    | none => .error (.invalidSettings path)

end Files

end SiteScript

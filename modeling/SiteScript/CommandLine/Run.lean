import SiteScript.CommandLine.Arguments
import SiteScript.Compile
import SiteScript.Loading
import SiteScript.Recovery.Basic

/-!
# Running the command line

What an invocation does, given the files that it may read.  The result says what is
to be printed or written; printing and writing are left to the program.
-/

namespace SiteScript.CommandLine

/-- What an invocation comes to. -/
inductive Outcome where
  /-- A text is printed. -/
  | print (text : String)
  /-- A text is written to a file. -/
  | write (path text : String)
  deriving Repr, DecidableEq

/-- Why an invocation fails. -/
inductive Failure where
  | load (error : LoadError)
  /-- A script has no text that may be published. -/
  | unpublishable
  /-- A file cannot be written. -/
  | unwritable (path : String)
  deriving Repr, DecidableEq

/-- The wording of a failure. -/
def Failure.message : Failure → String
  | .load error => error.message
  | .unpublishable => "export failed"
  | .unwritable path => "Failed to write " ++ path

/-- Prints a text, or writes it to a file if there is one. -/
def emit (text : String) : Option String → Outcome
  | none => .print text
  | some path => .write path text

/-- Loads a value, with the failure of an invocation. -/
def load {α : Type} (loaded : Except LoadError α) : Except Failure α :=
  loaded.mapError .load

/-- The settings in a file, or the default ones if there is none. -/
def loadSettings (files : Files) : Option String → Except Failure Settings
  | none => .ok .default
  | some path => load (files.loadSettings path)

/-- The plan with a title and a landing choice in place of its own. -/
def override (plan : Plan) (title : Option String) (landing : Option LandingMode)
    (customUrl : Option String) : Plan :=
  { plan with
    title := title.getD plan.title
    landing := landing.getD plan.landing
    landingUrl := customUrl <|> plan.landingUrl }

/-- The link to a compiled plan. -/
def link (settings : Settings) (plan : Plan) (host : Option String) (studio : Bool) :
    Except Failure String :=
  match Link.publish (plan.compile settings).toJson with
  | .error _ => .error .unpublishable
  | .ok text =>
    match Link.encode text with
    | .error _ => .error .unpublishable
    | .ok packed => .ok (Link.address (host.getD settings.shareHost) packed studio)

/-- What an invocation comes to; `ids` are the identifiers of recovered steps. -/
def Invocation.run (ids : Recovery.Ids) (files : Files) :
    Invocation → Except Failure Outcome
  | .compile file title landing customUrl settings out => do
    let plan ← load (files.loadPlan file)
    let settings ← loadSettings files settings
    let document := (override plan title landing customUrl).compile settings
    return emit document.toJson.indented out
  | .share file studio host settings => do
    let settings ← loadSettings files settings
    let plan ← load (files.loadPlan file)
    return .print (← link settings plan host studio)
  | .recover file out => do
    let document ← load (files.loadDocument file)
    return emit (document.recoveredPlan ids).toJson.indented out

/-- The files that an invocation reads. -/
def Invocation.inputs : Invocation → List String
  | .compile file _ _ _ settings _ => file :: settings.toList
  | .share file _ _ settings => file :: settings.toList
  | .recover file _ => [file]

end SiteScript.CommandLine

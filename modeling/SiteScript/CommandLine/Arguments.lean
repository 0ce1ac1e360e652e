import SiteScript.Plan.Step

/-!
# Arguments

What the command line asks for.  A subcommand has options, each of which may be given
once: a switch by its name alone, any other one with a value, which is the rest of the
same argument or the argument behind it.  An argument that begins with a dash is never
a value, unless it is the dash alone.
-/

namespace SiteScript.CommandLine

/-- The options of all subcommands. -/
inductive Name where
  | file
  | title
  | landing
  | customUrl
  | settings
  | out
  | studio
  | host
  deriving Repr, DecidableEq

namespace Name

/-- The word that gives an option. -/
def long : Name → String
  | .file => "file"
  | .title => "title"
  | .landing => "landing"
  | .customUrl => "custom-url"
  | .settings => "config"
  | .out => "out"
  | .studio => "studio"
  | .host => "host"

/-- The letter that gives an option, for those that have one. -/
def short? : Name → Option Char
  | .file => some 'f'
  | .out => some 'o'
  | _ => none

/-- Whether an option is a switch. -/
def isSwitch : Name → Bool
  | .studio => true
  | _ => false

/-- Whether a text may be the value of an option. -/
def accepts (name : Name) (value : String) : Bool :=
  match name with
  | .file | .settings | .out => !value.isEmpty
  | .landing => (LandingMode.ofName? value).isSome
  | _ => true

end Name

/-- The options that have been given, with their values; a switch has an empty one. -/
abbrev Given := List (Name × String)

/-- The given options with one more, if it has not been given yet and may have the value. -/
def give? (given : Given) (name : Name) (value : String) : Option Given :=
  if (given.lookup name).isNone && name.accepts value then some ((name, value) :: given) else none

/-- An argument that gives an option, and the value in it, if there is one. -/
def option? (allowed : List Name) (argument : List Char) : Option (Name × Option String) :=
  match argument with
  | '-' :: '-' :: text => do
    let word := text.takeWhile (· != '=')
    let name ← allowed.find? fun name => name.long.toList == word
    match text.drop word.length with
    | [] => return (name, none)
    | _ :: value => return (name, some (.ofList value))
  | '-' :: letter :: rest => do
    let name ← allowed.find? fun name => name.short? == some letter
    match rest with
    | [] => return (name, none)
    | '=' :: value => return (name, some (.ofList value))
    | value => return (name, some (.ofList value))
  | _ => none

/-- Whether an argument may be the value of the option before it. -/
def isValue (argument : String) : Bool :=
  argument == "-" || argument.toList.head? != some '-'

/-- Reads the arguments of a subcommand with the allowed options. -/
def options? (allowed : List Name) (given : Given) : List String → Option Given
  | [] => some given
  | ["--"] => some given
  | argument :: rest => do
    let (name, value) ← option? allowed argument.toList
    match value with
    | some value => if name.isSwitch then none else options? allowed (← give? given name value) rest
    | none =>
      if name.isSwitch then options? allowed (← give? given name "") rest
      else
        match rest with
        | next :: rest =>
          if isValue next then options? allowed (← give? given name next) rest else none
        | [] => none

/-- What the command line asks for. -/
inductive Invocation where
  /-- A plan is compiled; its title and landing choice may be replaced. -/
  | compile (file : String) (title : Option String) (landing : Option LandingMode)
      (customUrl settings out : Option String)
  /-- The link to a compiled plan is printed. -/
  | share (file : String) (studio : Bool) (host settings : Option String)
  /-- A plan is recovered from a document. -/
  | recover (file : String) (out : Option String)
  deriving Repr, DecidableEq

/-- Reads the arguments of a program. -/
def parse? : List String → Option Invocation
  | "compile" :: arguments => do
    let given ← options? [.file, .title, .landing, .customUrl, .settings, .out] [] arguments
    return .compile (← given.lookup .file) (given.lookup .title)
      ((given.lookup .landing).bind LandingMode.ofName?) (given.lookup .customUrl)
      (given.lookup .settings) (given.lookup .out)
  | "share" :: arguments => do
    let given ← options? [.file, .studio, .host, .settings] [] arguments
    return .share (← given.lookup .file) (given.lookup .studio).isSome (given.lookup .host)
      (given.lookup .settings)
  | "decompile" :: arguments => do
    let given ← options? [.file, .out] [] arguments
    return .recover (← given.lookup .file) (given.lookup .out)
  | _ => none

end SiteScript.CommandLine

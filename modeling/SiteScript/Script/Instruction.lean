import SiteScript.Script.Resource

/-!
# Instructions

The instructions that a site runtime executes one after the other.  Most have a
kind of their own; everything else is a command line or a piece of PHP.
-/

namespace SiteScript

/-- An instruction for the runtime. -/
inductive Instruction where
  | login (username password : String)
  | setSiteOptions (options : Members Json)
  | installPlugin (source : Resource) (activate : Bool)
  | installTheme (source : Resource) (activate : Bool)
  | defineConstants (constants : Members Json)
  | importContent (file : Resource)
  | command (line : String)
  | runPhp (code : String)
  deriving Repr, DecidableEq

namespace Instruction

/-- The kinds of instructions. -/
inductive Kind where
  | login
  | setSiteOptions
  | installPlugin
  | installTheme
  | defineConstants
  | importContent
  | command
  | runPhp
  deriving Repr, DecidableEq

/-- The kinds in order. -/
def Kind.all : List Kind :=
  [.login, .setSiteOptions, .installPlugin, .installTheme, .defineConstants, .importContent,
    .command, .runPhp]

/-- The name that stands for a kind. -/
def Kind.name : Kind → String
  | .login => "login"
  | .setSiteOptions => "setSiteOptions"
  | .installPlugin => "installPlugin"
  | .installTheme => "installTheme"
  | .defineConstants => "defineWpConfigConsts"
  | .importContent => "importWxr"
  | .command => "wp-cli"
  | .runPhp => "runPHP"

/-- The names by which kinds are read: their own ones, and a second one for options. -/
def Kind.names : List (String × Kind) :=
  Kind.all.map (fun kind => (kind.name, kind)) ++ [("setOptions", .setSiteOptions)]

/-- The kind of an instruction. -/
def kind : Instruction → Kind
  | .login .. => .login
  | .setSiteOptions .. => .setSiteOptions
  | .installPlugin .. => .installPlugin
  | .installTheme .. => .installTheme
  | .defineConstants .. => .defineConstants
  | .importContent .. => .importContent
  | .command .. => .command
  | .runPhp .. => .runPhp

/-- The name of an instruction's kind. -/
def kindName (instruction : Instruction) : String :=
  instruction.kind.name

/-- Sets options one after the other. -/
def options (pairs : List (String × Json)) : Instruction :=
  .setSiteOptions (Members.ofPairs pairs)

/-! ## Written form -/

/-- The options of an installation. -/
def installOptions (activate : Bool) : Json :=
  .obj [("activate", .bool activate)]

/-- Reads the options of an installation, in which `activate` is required. -/
def installOptions? (value : Json) : Option Bool := do
  let fields ← Record.fields? ["activate"] value
  fields.required "activate" Record.flag?

/-- The fields of an instruction as they are written. -/
def members : Instruction → List (String × Json)
  | .login username password => [("username", .str username), ("password", .str password)]
  | .setSiteOptions options => [("options", .obj options)]
  | .installPlugin source activate =>
    [("pluginZipFile", source.toJson), ("options", installOptions activate)]
  | .installTheme source activate =>
    [("themeZipFile", source.toJson), ("options", installOptions activate)]
  | .defineConstants constants => [("consts", .obj constants)]
  | .importContent file => [("file", file.toJson)]
  | .command line => [("command", .str line)]
  | .runPhp code => [("code", .str code)]

/-- An instruction as a JSON value. -/
def toJson (instruction : Instruction) : Json :=
  .obj (("step", .str instruction.kindName) :: instruction.members)

/-- Reads the fields of an instruction of the given kind. A resource inside it may have a
numbered tag. -/
def ofFields? (kind : Kind) (value : Json) : Option Instruction :=
  match kind with
  | .login => do
    let fields ← Record.fields? ["username", "password"] value
    let username ← fields.withDefault "username" "" Record.text?
    let password ← fields.withDefault "password" "" Record.text?
    return .login username password
  | .setSiteOptions => do
    let fields ← Record.fields? ["options"] value
    return .setSiteOptions (← fields.required "options" Record.members?)
  | .installPlugin => do
    let fields ← Record.fields? ["pluginZipFile", "options"] value
    let source ← fields.required "pluginZipFile" (Resource.ofJson? .namedOrNumbered)
    return .installPlugin source (← fields.withDefault "options" true installOptions?)
  | .installTheme => do
    let fields ← Record.fields? ["themeZipFile", "options"] value
    let source ← fields.required "themeZipFile" (Resource.ofJson? .namedOrNumbered)
    return .installTheme source (← fields.withDefault "options" true installOptions?)
  | .defineConstants => do
    let fields ← Record.fields? ["consts"] value
    return .defineConstants (← fields.required "consts" Record.members?)
  | .importContent => do
    let fields ← Record.fields? ["file"] value
    return .importContent (← fields.required "file" (Resource.ofJson? .namedOrNumbered))
  | .command => do
    let fields ← Record.fields? ["command"] value
    return .command (← fields.required "command" Record.text?)
  | .runPhp => do
    let fields ← Record.fields? ["code"] value
    return .runPhp (← fields.required "code" Record.text?)

/-- Reads an instruction whose tag may be given in the stated form. -/
def ofJson? (form : Record.TagForm) (value : Json) : Option Instruction := do
  let (tag, rest) ← Record.splitTag? "step" value
  let kind ← Record.tagChoice? form Kind.names Kind.all tag
  ofFields? kind rest

end Instruction

end SiteScript

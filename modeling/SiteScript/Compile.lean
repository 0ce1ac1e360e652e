import SiteScript.Command
import SiteScript.Plan.Basic
import SiteScript.Plan.Numbering
import SiteScript.Script.Document
import SiteScript.Settings
import SiteScript.Text.Search

/-!
# Compiling plans

A plan is compiled step by step: every step stands for a block of instructions,
which depends on the step, on its position and on the steps of the whole plan, and
the script is a preamble followed by the blocks in order.  A step that is not
complete enough stands for an empty block, so every plan compiles.
-/

namespace SiteScript.Compile

open Text (clean cleanOrEmpty)

/-- The mark of block markup, which is shipped inside a program and not on a command line. -/
def blockMarkup : String := "<!-- wp:"

/-! ## Blocks -/

/-- The command that makes a page or post; its body and status need not be clean, and an
empty status means published. -/
def createContent (created : CreatedContent) (body status : String) : Command :=
  let body := clean body
  let status := if (clean status).isEmpty then "publish" else clean status
  if Text.contains body blockMarkup then
    .run (.insertPost created.type status created.title body)
  else .createPost created.type status created.title body

/-- The commands that store an image and give it to a page or post. -/
def featuredImage (created : CreatedContent) (image : String) : List Command :=
  if image.isEmpty then [] else [.importMedia image, .run (.attachImage created)]

/-- The block of a page or post. -/
def content (created? : Option CreatedContent) (details : Content) : List Instruction :=
  match created? with
  | none => []
  | some created =>
    (createContent created details.body details.status ::
      featuredImage created (cleanOrEmpty details.image)).map Command.instruction

/-- Whether an installed plugin may come from a resource. -/
def providesPlugins : Resource → Bool
  | .themeRegistry _ => false
  | _ => true

/-- Whether an installed theme may come from a resource. -/
def providesThemes : Resource → Bool
  | .pluginRegistry _ => false
  | _ => true

/-- The block of an installation from a resource that `provides` accepts. -/
def installation (provides : Resource → Bool) (install : Resource → Bool → Instruction)
    (details : Installation) : List Instruction :=
  match details.source with
  | none => []
  | some source =>
    if provides source && source.isConfigured then
      [install source.cleaned (details.activate.getD true)]
    else []

/-- The block of a site option. -/
def siteOption (option : SiteOption) : List Instruction :=
  if (clean option.name).isEmpty then []
  else [.options [(clean option.name, option.value.deepClean)]]

/-- Constants with clean names and values, without those that have no name. -/
def cleanConstants (constants : Members Json) : Members Json :=
  .ofPairs <| (constants.map fun constant => (clean constant.1, constant.2.deepClean)).filter
    fun constant => !constant.1.isEmpty

/-- The block of constants. -/
def defineConstants (constants : Members Json) : List Instruction :=
  if (cleanConstants constants).isEmpty then []
  else [.defineConstants (cleanConstants constants)]

/-- A text, or another one if it is empty. -/
def orElse (text other : String) : String :=
  if text.isEmpty then other else text

/-- The block of a login; missing credentials are those of the administrator. -/
def login (settings : Settings) (credentials : Credentials) : List Instruction :=
  [.login (orElse (cleanOrEmpty credentials.username) settings.adminUsername)
    (orElse (cleanOrEmpty credentials.password) settings.adminPassword)]

/-- The block of an imported archive. -/
def importContent (url : String) : List Instruction :=
  if (clean url).isEmpty then [] else [.importContent (.address (clean url))]

/-- The clean capabilities of a role. -/
def cleanCapabilities (role : Role) : List String :=
  (role.capabilities.map clean).filter fun capability => !capability.isEmpty

/-- The block of a user role. -/
def addRole (role : Role) : List Instruction :=
  if (clean role.name).isEmpty || (cleanCapabilities role).isEmpty then []
  else [(Command.run (.addRole (clean role.name) (cleanCapabilities role))).instruction]

/-- The content that the first step with an identifier makes. -/
def target? (steps : List Step) (id : Option String) : Option CreatedContent :=
  id.bind fun id => (steps.find? fun step => step.id == id).bind fun step => step.kind.created?

/-- The two places that a page can be selected for. -/
inductive PageRole where
  | homepage
  | postsPage
  deriving Repr, DecidableEq

/-- The options that select the page with a number. -/
def PageRole.pin (role : PageRole) (number : Nat) : Instruction :=
  match role with
  | .homepage => .options [("show_on_front", .str "page"), ("page_on_front", .nat number)]
  | .postsPage => .options [("page_for_posts", .nat number)]

/-- The program that selects an existing page. -/
def PageRole.select : PageRole → CreatedContent → Php.Program
  | .homepage => .setHomepage
  | .postsPage => .setPostsPage

/-- The block of a page selection at a position.  The number of a page that it makes is told
by the position, as identifiers may repeat. -/
def pageSelection (steps : List Step) (position : Nat) (role : PageRole)
    (created? : Option CreatedContent) (selection : PageSelection) : List Instruction :=
  match selection.mode with
  | .create =>
    match created? with
    | none => []
    | some created =>
      [(createContent created selection.body "publish").instruction,
        role.pin (Numbering.createdAt position steps)]
  | .existing =>
    match target? steps selection.pageId with
    | none => []
    | some target => [(Command.run (role.select target)).instruction]

/-- The commands that add an item to a menu. -/
def menuItem (steps : List Step) (menu : String) (item : MenuItem) : List Command :=
  match item.kind with
  | .page =>
    match target? steps item.pageId with
    | none => []
    | some target => [.run (.addMenuItem menu target)]
  | .custom =>
    if (clean item.title).isEmpty || (clean item.url).isEmpty then []
    else [.addMenuItem menu (clean item.title) (clean item.url)]

/-- The command that puts a menu in its place. -/
def menuLocation (menu location : String) : List Command :=
  if location.isEmpty then [] else [.assignMenu menu location]

/-- The commands of a navigation menu. -/
def menuCommands (steps : List Step) (menu : Menu) : List Command :=
  let name := clean menu.name
  if name.isEmpty || menu.items.isEmpty then []
  else
    .createMenu name :: menu.items.flatMap (menuItem steps name) ++
      menuLocation name (cleanOrEmpty menu.location)

/-- The block of a step at a position among the steps of a plan. -/
def block (settings : Settings) (steps : List Step) (position : Nat) (kind : StepKind) :
    List Instruction :=
  match kind with
  | .addPage details => content kind.created? details
  | .addPost details => content kind.created? details
  | .installPlugin details => installation providesPlugins .installPlugin details
  | .installTheme details => installation providesThemes .installTheme details
  | .setSiteOption option => siteOption option
  | .defineConstants constants => defineConstants constants
  | .login credentials => login settings credentials
  | .importContent url => importContent url
  | .addRole role => addRole role
  | .setHomepage selection => pageSelection steps position .homepage kind.created? selection
  | .setPostsPage selection => pageSelection steps position .postsPage kind.created? selection
  | .createMenu menu => (menuCommands steps menu).map Command.instruction
  | .setLanding _ => []
  | .unknown _ _ => []

/-- The blocks of all steps, in order. -/
def blocks (settings : Settings) (steps : List Step) : List (List Instruction) :=
  steps.zipIdx.map fun (step, position) => block settings steps position step.kind

/-! ## Documents -/

/-- The title option, which a plan sets only if its title is not that of a fresh site. -/
def titleOption (settings : Settings) (title : String) : List Instruction :=
  if title.isEmpty || title == settings.siteTitle then []
  else [.options [("blogname", .str title)]]

/-- What every script begins with: the title and a login. -/
def preamble (settings : Settings) (title : String) : List Instruction :=
  titleOption settings (clean title) ++ [.login settings.adminUsername settings.adminPassword]

/-- The landing choice that a step makes. -/
def landingOf? (step : Step) : Option Landing :=
  match step.kind with
  | .setLanding landing => some landing
  | _ => none

/-- The landing choice of a plan: that of the first step that makes one, or the plan's own. -/
def landingOf (plan : Plan) : Landing :=
  (plan.steps.findSome? landingOf?).getD { mode := plan.landing, url := plan.landingUrl }

/-- The page to which a landing choice leads. -/
def landingPage (settings : Settings) (landing : Landing) : String :=
  match landing.mode with
  | .admin => settings.adminPath
  | .frontPage => "/"
  | .custom => orElse (landing.url.getD "") "/"

end Compile

/-- The script of a plan. -/
def Plan.compile (settings : Settings) (plan : Plan) : Document :=
  { landingPage := Compile.landingPage settings (Compile.landingOf plan)
    versions := { php := settings.phpVersion, wp := settings.wpVersion }
    extensionBundles := settings.extensionBundles
    entries :=
      (Compile.preamble settings plan.title ++
        (Compile.blocks settings plan.steps).flatten).map Entry.known }

end SiteScript

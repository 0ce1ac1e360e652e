import SiteScript.Script.Resource

/-!
# Steps

What the author of a plan asks for, one step at a time.  A step may be
incomplete; it then stays in the plan and asks for nothing.  A step whose kind is
not known, or whose details do not fit its kind, keeps its raw data.
-/

namespace SiteScript

/-- Where a visitor lands. -/
inductive LandingMode where
  | admin
  | frontPage
  | custom
  deriving Repr, DecidableEq

namespace LandingMode

/-- The modes in order. -/
def all : List LandingMode :=
  [.admin, .frontPage, .custom]

/-- The name of a mode. -/
def name : LandingMode → String
  | .admin => "admin"
  | .frontPage => "front-page"
  | .custom => "custom"

/-- The modes by name. -/
def named : List (String × LandingMode) :=
  all.map fun mode => (mode.name, mode)

/-- The mode with the given name. -/
def ofName? (name : String) : Option LandingMode :=
  named.lookup name

/-- What is said about a name that is no mode. -/
def unknownMessage (name : String) : String :=
  "unknown landing mode `" ++ name ++ "` (expected admin, front-page or custom)"

end LandingMode

/-- The details of a page or post. -/
structure Content where
  title : String
  body : String
  /-- The publication status; empty means published. -/
  status : String
  /-- The address of the featured image. -/
  image : Option String
  deriving Repr, DecidableEq

/-- A page or post with no details yet. -/
def Content.empty : Content :=
  { title := "", body := "", status := "", image := none }

/-- The details of a plugin or theme installation. -/
structure Installation where
  source : Option Resource
  activate : Option Bool
  deriving Repr, DecidableEq

/-- The details of a site option. -/
structure SiteOption where
  name : String
  value : Json
  deriving Repr, DecidableEq

/-- The details of a login. -/
structure Credentials where
  username : Option String
  password : Option String
  deriving Repr, DecidableEq

/-- The details of a user role. -/
structure Role where
  name : String
  capabilities : List String
  deriving Repr, DecidableEq

/-- Whether a page selection makes a page or names an existing one. -/
inductive SelectionMode where
  | create
  | existing
  deriving Repr, DecidableEq

/-- The choice of the home page or of the posts page. -/
structure PageSelection where
  mode : SelectionMode
  title : String
  body : String
  /-- The step that makes the selected page, if an existing one is selected. -/
  pageId : Option String
  deriving Repr, DecidableEq

/-- Whether a menu item leads to a page of the plan or to any address. -/
inductive ItemKind where
  | page
  | custom
  deriving Repr, DecidableEq

/-- An item of a menu. -/
structure MenuItem where
  kind : ItemKind
  /-- The step that makes the page to which the item leads. -/
  pageId : Option String
  title : String
  url : String
  deriving Repr, DecidableEq

/-- The details of a navigation menu. -/
structure Menu where
  name : String
  /-- The place in the theme where the menu is shown. -/
  location : Option String
  items : List MenuItem
  deriving Repr, DecidableEq

/-- A menu with a name and nothing else. -/
def Menu.named (name : String) : Menu :=
  { name, location := none, items := [] }

/-- The details of a landing choice made by a step. -/
structure Landing where
  mode : LandingMode
  url : Option String
  deriving Repr, DecidableEq

/-- What a step asks for. -/
inductive StepKind where
  | addPage (content : Content)
  | addPost (content : Content)
  | installPlugin (installation : Installation)
  | installTheme (installation : Installation)
  | setSiteOption (option : SiteOption)
  | defineConstants (constants : Members Json)
  | login (credentials : Credentials)
  | importContent (url : String)
  | addRole (role : Role)
  | setHomepage (selection : PageSelection)
  | setPostsPage (selection : PageSelection)
  | createMenu (menu : Menu)
  | setLanding (landing : Landing)
  /-- A kind that is not known, or details that do not fit it. -/
  | unknown (kind : String) (data : Json)
  deriving Repr, DecidableEq

/-- One step of a plan. -/
structure Step where
  id : String
  kind : StepKind
  deriving Repr, DecidableEq

/-! ## Created content -/

/-- The two types of content. -/
inductive PostType where
  | page
  | post
  deriving Repr, DecidableEq

/-- The name of a type. -/
def PostType.name : PostType → String
  | .page => "page"
  | .post => "post"

/-- A page or post that a step makes, with its clean title. -/
structure CreatedContent where
  type : PostType
  title : String
  deriving Repr, DecidableEq

/-- The content of the given type and title, unless the title has no word in it. -/
def CreatedContent.titled? (type : PostType) (title : String) : Option CreatedContent :=
  if (Text.clean title).isEmpty then none else some { type, title := Text.clean title }

namespace StepKind

/-- The name of a kind. -/
def name : StepKind → String
  | .addPage _ => "addPage"
  | .addPost _ => "addPost"
  | .installPlugin _ => "installPlugin"
  | .installTheme _ => "installTheme"
  | .setSiteOption _ => "setSiteOption"
  | .defineConstants _ => "defineWpConfigConst"
  | .login _ => "login"
  | .importContent _ => "importWxr"
  | .addRole _ => "addCustomRole"
  | .setHomepage _ => "setHomepage"
  | .setPostsPage _ => "setPostsPage"
  | .createMenu _ => "createNavigationMenu"
  | .setLanding _ => "setLandingPage"
  | .unknown kind _ => kind

/-- Whether a step has its raw data only. -/
def isUnknown : StepKind → Bool
  | .unknown .. => true
  | _ => false

/-- The page or post that a step makes, if it is complete enough to make one. -/
def created? : StepKind → Option CreatedContent
  | .addPage content => CreatedContent.titled? .page content.title
  | .addPost content => CreatedContent.titled? .post content.title
  | .setHomepage selection | .setPostsPage selection =>
    match selection.mode with
    | .create => CreatedContent.titled? .page selection.title
    | .existing => none
  | _ => none

/-- Whether a step makes a page or post. -/
def creates (kind : StepKind) : Bool :=
  kind.created?.isSome

end StepKind

end SiteScript

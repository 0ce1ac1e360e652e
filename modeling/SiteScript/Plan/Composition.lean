import SiteScript.Plan.Step

/-!
# Composing steps

Steps are composed by one call after the other.  A page, post or menu stays open
for calls that add to it, and is closed by the next step or at the end; a call that
adds to an open step of another kind, or to none, changes nothing.
-/

namespace SiteScript

/-- A step that can still be added to. -/
inductive OpenStep where
  | content (id : String) (type : PostType) (content : Content)
  | menu (id : String) (menu : Menu)
  deriving Repr, DecidableEq

/-- The step that an open step is closed as. -/
def OpenStep.close : OpenStep → Step
  | .content id .page details => { id, kind := .addPage details }
  | .content id .post details => { id, kind := .addPost details }
  | .menu id details => { id, kind := .createMenu details }

/-- The steps composed so far, and the step that is still open. -/
structure Composition where
  closed : List Step
  current : Option OpenStep
  deriving Repr, DecidableEq

namespace Composition

/-- No steps. -/
def empty : Composition :=
  { closed := [], current := none }

/-- The composed steps, the open one among them. -/
def steps (composition : Composition) : List Step :=
  composition.closed ++ composition.current.toList.map OpenStep.close

/-- Closes the open step. -/
def close (composition : Composition) : Composition :=
  { closed := composition.steps, current := none }

/-- Adds a step. -/
def add (composition : Composition) (step : Step) : Composition :=
  { closed := composition.steps ++ [step], current := none }

/-- Opens a step. -/
def start (composition : Composition) (step : OpenStep) : Composition :=
  { closed := composition.steps, current := some step }

/-! ## Pages, posts and menus -/

/-- Opens a page or post. -/
def content (composition : Composition) (type : PostType) (id title : String) : Composition :=
  composition.start (.content id type { Content.empty with title })

/-- Opens a menu. -/
def menu (composition : Composition) (id name : String) : Composition :=
  composition.start (.menu id (.named name))

/-- Changes the open page or post. -/
def changeContent (composition : Composition) (change : Content → Content) : Composition :=
  match composition.current with
  | some (.content id type content) =>
    { composition with current := some (.content id type (change content)) }
  | _ => composition

/-- Sets the body of the open page or post. -/
def body (composition : Composition) (body : String) : Composition :=
  composition.changeContent fun content => { content with body }

/-- Sets the status of the open page or post. -/
def status (composition : Composition) (status : String) : Composition :=
  composition.changeContent fun content => { content with status }

/-- Sets the featured image of the open page or post. -/
def image (composition : Composition) (url : String) : Composition :=
  composition.changeContent fun content => { content with image := some url }

/-- Changes the open menu. -/
def changeMenu (composition : Composition) (change : Menu → Menu) : Composition :=
  match composition.current with
  | some (.menu id menu) => { composition with current := some (.menu id (change menu)) }
  | _ => composition

/-- Adds an item to the open menu. -/
def item (composition : Composition) (item : MenuItem) : Composition :=
  composition.changeMenu fun menu => { menu with items := menu.items ++ [item] }

/-- Adds an item that leads to the page of a step. -/
def pageItem (composition : Composition) (pageId : String) : Composition :=
  composition.item { kind := .page, pageId := some pageId, title := "", url := "" }

/-- Adds an item that leads to an address. -/
def customItem (composition : Composition) (title url : String) : Composition :=
  composition.item { kind := .custom, pageId := none, title, url }

/-- Puts the open menu in a place of the theme. -/
def location (composition : Composition) (location : String) : Composition :=
  composition.changeMenu fun menu => { menu with location := some location }

/-! ## Other steps -/

/-- Adds the installation of a plugin. -/
def installPlugin (composition : Composition) (id : String) (source : Resource) : Composition :=
  composition.add
    { id, kind := .installPlugin { source := some source, activate := none } }

/-- Adds the installation of a theme of the registry. -/
def installTheme (composition : Composition) (id slug : String) : Composition :=
  composition.add
    { id, kind := .installTheme { source := some (.themeRegistry slug), activate := none } }

/-- Adds a site option. -/
def siteOption (composition : Composition) (id name : String) (value : Json) : Composition :=
  composition.add { id, kind := .setSiteOption { name, value } }

/-- Adds a constant. -/
def constant (composition : Composition) (id name : String) (value : Json) : Composition :=
  composition.add { id, kind := .defineConstants [(name, value)] }

/-- Adds a login. -/
def login (composition : Composition) (id username password : String) : Composition :=
  composition.add
    { id, kind := .login { username := some username, password := some password } }

/-- Adds the import of an archive. -/
def importContent (composition : Composition) (id url : String) : Composition :=
  composition.add { id, kind := .importContent url }

/-- Adds a user role. -/
def role (composition : Composition) (id name : String) (capabilities : List String) :
    Composition :=
  composition.add { id, kind := .addRole { name, capabilities } }

/-- The selection of a page that is made for it. -/
def created (title body : String) : PageSelection :=
  { mode := .create, title, body, pageId := none }

/-- The selection of the page of a step. -/
def existing (pageId : String) : PageSelection :=
  { mode := .existing, title := "", body := "", pageId := some pageId }

/-- Adds the choice of the home page. -/
def homepage (composition : Composition) (id : String) (selection : PageSelection) :
    Composition :=
  composition.add { id, kind := .setHomepage selection }

/-- Adds the choice of the posts page. -/
def postsPage (composition : Composition) (id : String) (selection : PageSelection) :
    Composition :=
  composition.add { id, kind := .setPostsPage selection }

/-- Adds a landing choice. -/
def landing (composition : Composition) (id : String) (mode : LandingMode)
    (url : Option String) : Composition :=
  composition.add { id, kind := .setLanding { mode, url } }

end Composition

end SiteScript

import SiteScript.Plan.Step

/-!
# The written form of steps

A step is written as its identifier, the name of its kind and its details.
Reading never loses a step whose identifier and kind are there: details that do
not fit the kind are kept as raw data, and written back as such.
-/

namespace SiteScript

open Record

/-! ## Details -/

namespace Content

/-- A page or post as a value. -/
def toJson (content : Content) : Json :=
  .obj ([("postTitle", .str content.title), ("postContent", .str content.body),
    ("postStatus", .str content.status)] ++
    optionalMember "featuredImageUrl" (content.image.map .str))

/-- Reads a page or post; missing texts are empty. -/
def ofJson? (value : Json) : Option Content := do
  let fields ← fields? ["postTitle", "postContent", "postStatus", "featuredImageUrl"] value
  let title ← fields.withDefault "postTitle" "" text?
  let body ← fields.withDefault "postContent" "" text?
  let status ← fields.withDefault "postStatus" "" text?
  let image ← fields.optional "featuredImageUrl" text?
  return { title, body, status, image }

end Content

namespace Installation

/-- The installation as a value; its source is the member with the given name, and `null` if
there is none. -/
def toJson (sourceName : String) (installation : Installation) : Json :=
  .obj ([(sourceName, (installation.source.map Resource.toJson).getD .null)] ++
    optionalMember "activate" (installation.activate.map .bool))

/-- Reads an installation; the source is the member with the given name. -/
def ofJson? (sourceName : String) (value : Json) : Option Installation := do
  let fields ← fields? [sourceName, "activate"] value
  let source ← fields.optional sourceName (Resource.ofJson? .named)
  let activate ← fields.optional "activate" flag?
  return { source, activate }

end Installation

namespace SiteOption

/-- A site option as a value. -/
def toJson (option : SiteOption) : Json :=
  .obj [("optionName", .str option.name), ("optionValue", option.value)]

/-- Reads a site option; a missing value is `null`. -/
def ofJson? (value : Json) : Option SiteOption := do
  let fields ← fields? ["optionName", "optionValue"] value
  let name ← fields.withDefault "optionName" "" text?
  let value ← fields.withDefault "optionValue" .null some
  return { name, value }

end SiteOption

/-- Constants as the details of a step. -/
def constantsToJson (constants : Members Json) : Json :=
  .obj [("consts", .obj constants)]

/-- Reads the constants of a step, which has none unless it says otherwise. -/
def constantsOfJson? (value : Json) : Option (Members Json) := do
  let fields ← fields? ["consts"] value
  fields.withDefault "consts" [] members?

namespace Credentials

/-- Credentials as a value. -/
def toJson (credentials : Credentials) : Json :=
  .obj (optionalMember "username" (credentials.username.map .str) ++
    optionalMember "password" (credentials.password.map .str))

/-- Reads credentials, each of which may be missing. -/
def ofJson? (value : Json) : Option Credentials := do
  let fields ← fields? ["username", "password"] value
  let username ← fields.optional "username" text?
  let password ← fields.optional "password" text?
  return { username, password }

end Credentials

/-- The address of an archive as the details of a step. -/
def importToJson (url : String) : Json :=
  .obj [("url", .str url)]

/-- Reads the address of an archive, which is empty if it is missing. -/
def importOfJson? (value : Json) : Option String := do
  let fields ← fields? ["url"] value
  fields.withDefault "url" "" text?

namespace Role

/-- A role as a value. -/
def toJson (role : Role) : Json :=
  .obj [("name", .str role.name), ("capabilities", .texts role.capabilities)]

/-- Reads a role; without a list of capabilities it has none. -/
def ofJson? (value : Json) : Option Role := do
  let fields ← fields? ["name", "capabilities"] value
  let name ← fields.withDefault "name" "" text?
  let capabilities ← fields.withDefault "capabilities" [] (list? text?)
  return { name, capabilities }

end Role

/-- The name of a selection mode. -/
def SelectionMode.name : SelectionMode → String
  | .create => "create"
  | .existing => "existing"

/-- The selection modes by name. -/
def SelectionMode.named : List (String × SelectionMode) :=
  [SelectionMode.create, .existing].map fun mode => (mode.name, mode)

namespace PageSelection

/-- A page selection as a value. -/
def toJson (selection : PageSelection) : Json :=
  .obj ([("option", .str selection.mode.name), ("title", .str selection.title),
    ("content", .str selection.body)] ++ optionalMember "pageId" (selection.pageId.map .str))

/-- Reads a page selection, which makes a page unless it says otherwise. -/
def ofJson? (value : Json) : Option PageSelection := do
  let fields ← fields? ["option", "title", "content", "pageId"] value
  let mode ← fields.withDefault "option" .create (choice? SelectionMode.named)
  let title ← fields.withDefault "title" "" text?
  let body ← fields.withDefault "content" "" text?
  let pageId ← fields.optional "pageId" text?
  return { mode, title, body, pageId }

end PageSelection

/-- The name of a kind of menu item. -/
def ItemKind.name : ItemKind → String
  | .page => "page"
  | .custom => "custom"

/-- The kinds of menu items by name. -/
def ItemKind.named : List (String × ItemKind) :=
  [ItemKind.page, .custom].map fun kind => (kind.name, kind)

namespace MenuItem

/-- A menu item as a value. -/
def toJson (item : MenuItem) : Json :=
  .obj ([("type", .str item.kind.name)] ++ optionalMember "pageId" (item.pageId.map .str) ++
    [("title", .str item.title), ("url", .str item.url)])

/-- Reads a menu item, which leads to a page unless it says otherwise. -/
def ofJson? (value : Json) : Option MenuItem := do
  let fields ← fields? ["type", "pageId", "title", "url"] value
  let kind ← fields.withDefault "type" .page (choice? ItemKind.named)
  let pageId ← fields.optional "pageId" text?
  let title ← fields.withDefault "title" "" text?
  let url ← fields.withDefault "url" "" text?
  return { kind, pageId, title, url }

end MenuItem

namespace Menu

/-- A menu as a value. -/
def toJson (menu : Menu) : Json :=
  .obj ([("menuName", .str menu.name)] ++ optionalMember "location" (menu.location.map .str) ++
    [("items", .arr (menu.items.map MenuItem.toJson))])

/-- Reads a menu; without a list of items it has none. -/
def ofJson? (value : Json) : Option Menu := do
  let fields ← fields? ["menuName", "location", "items"] value
  let name ← fields.withDefault "menuName" "" text?
  let location ← fields.optional "location" text?
  let items ← fields.withDefault "items" [] (list? MenuItem.ofJson?)
  return { name, location, items }

end Menu

/-- Reads a landing mode. -/
def LandingMode.ofJson? : Json → Option LandingMode :=
  choice? LandingMode.named

namespace Landing

/-- A landing choice as a value. -/
def toJson (landing : Landing) : Json :=
  .obj ([("landingPageType", .str landing.mode.name)] ++
    optionalMember "customUrl" (landing.url.map .str))

/-- Reads a landing choice, which is the administration unless it says otherwise. -/
def ofJson? (value : Json) : Option Landing := do
  let fields ← fields? ["landingPageType", "customUrl"] value
  let mode ← fields.withDefault "landingPageType" .admin LandingMode.ofJson?
  let url ← fields.optional "customUrl" text?
  return { mode, url }

end Landing

/-! ## Steps -/

namespace StepKind

/-- The details of a step. -/
def data : StepKind → Json
  | .addPage content => content.toJson
  | .addPost content => content.toJson
  | .installPlugin installation => installation.toJson "pluginZipFile"
  | .installTheme installation => installation.toJson "themeZipFile"
  | .setSiteOption option => option.toJson
  | .defineConstants constants => constantsToJson constants
  | .login credentials => credentials.toJson
  | .importContent url => importToJson url
  | .addRole role => role.toJson
  | .setHomepage selection => selection.toJson
  | .setPostsPage selection => selection.toJson
  | .createMenu menu => menu.toJson
  | .setLanding landing => landing.toJson
  | .unknown _ data => data

/-- Reads the details of a step of a known kind. -/
def ofData? (kind : String) (data : Json) : Option StepKind :=
  match kind with
  | "addPage" => (Content.ofJson? data).map .addPage
  | "addPost" => (Content.ofJson? data).map .addPost
  | "installPlugin" => (Installation.ofJson? "pluginZipFile" data).map .installPlugin
  | "installTheme" => (Installation.ofJson? "themeZipFile" data).map .installTheme
  | "setSiteOption" => (SiteOption.ofJson? data).map .setSiteOption
  | "defineWpConfigConst" => (constantsOfJson? data).map .defineConstants
  | "login" => (Credentials.ofJson? data).map .login
  | "importWxr" => (importOfJson? data).map .importContent
  | "addCustomRole" => (Role.ofJson? data).map .addRole
  | "setHomepage" => (PageSelection.ofJson? data).map .setHomepage
  | "setPostsPage" => (PageSelection.ofJson? data).map .setPostsPage
  | "createNavigationMenu" => (Menu.ofJson? data).map .createMenu
  | "setLandingPage" => (Landing.ofJson? data).map .setLanding
  | _ => none

/-- Reads the details of a step of any kind; what does not fit is kept as it is. -/
def ofData (kind : String) (data : Json) : StepKind :=
  (ofData? kind data).getD (.unknown kind data)

end StepKind

namespace Step

/-- A step as a JSON value. -/
def toJson (step : Step) : Json :=
  .obj [("id", .str step.id), ("type", .str step.kind.name), ("data", step.kind.data)]

/-- Details that are missing or `null` count as an empty object. -/
def dataOrEmpty : Json → Json
  | .null => .obj []
  | data => data

/-- Reads a step; its identifier and kind are required. -/
def ofJson? (value : Json) : Option Step := do
  let fields ← fields? ["id", "type", "data"] value
  let id ← fields.required "id" text?
  let kind ← fields.required "type" text?
  let data ← fields.withDefault "data" .null some
  return { id, kind := .ofData kind (dataOrEmpty data.merged) }

/-- Reads a list of steps. -/
def listOfJson? : Json → Option (List Step) :=
  list? ofJson?

/-- A list of steps as a JSON value. -/
def listToJson (steps : List Step) : Json :=
  .arr (steps.map toJson)

end Step

end SiteScript

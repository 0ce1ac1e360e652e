import SiteScript.Record

/-!
# Resources

Where a plugin, a theme or an archive is fetched from: one of the two public
registries, by a slug, or any address.
-/

namespace SiteScript

/-- The source of a file. -/
inductive Resource where
  | pluginRegistry (slug : String)
  | themeRegistry (slug : String)
  | address (url : String)
  deriving Repr, DecidableEq

namespace Resource

/-- The slug or address. -/
def locator : Resource → String
  | .pluginRegistry slug => slug
  | .themeRegistry slug => slug
  | .address url => url

/-- Whether the slug or address has any word in it. -/
def isConfigured (resource : Resource) : Bool :=
  !(Text.clean resource.locator).isEmpty

/-- The resource with a clean slug or address. -/
def cleaned : Resource → Resource
  | .pluginRegistry slug => .pluginRegistry (Text.clean slug)
  | .themeRegistry slug => .themeRegistry (Text.clean slug)
  | .address url => .address (Text.clean url)

/-! ## Written form -/

/-- The kinds of resources. -/
inductive Kind where
  | pluginRegistry
  | themeRegistry
  | address
  deriving Repr, DecidableEq

/-- The kinds in order. -/
def Kind.all : List Kind :=
  [.pluginRegistry, .themeRegistry, .address]

/-- The name that stands for a kind. -/
def Kind.name : Kind → String
  | .pluginRegistry => "wordpress.org/plugins"
  | .themeRegistry => "wordpress.org/themes"
  | .address => "url"

/-- The name of the field that holds the slug or address. -/
def Kind.field : Kind → String
  | .pluginRegistry => "slug"
  | .themeRegistry => "slug"
  | .address => "url"

/-- The resource of a kind with the given slug or address. -/
def Kind.resource : Kind → String → Resource
  | .pluginRegistry => .pluginRegistry
  | .themeRegistry => .themeRegistry
  | .address => .address

/-- The kind of a resource. -/
def kind : Resource → Kind
  | .pluginRegistry _ => .pluginRegistry
  | .themeRegistry _ => .themeRegistry
  | .address _ => .address

/-- A resource as a JSON value. -/
def toJson (resource : Resource) : Json :=
  .obj [("resource", .str resource.kind.name), (resource.kind.field, .str resource.locator)]

/-- Reads a resource; a missing slug or address is empty. -/
def ofJson? (form : Record.TagForm) (value : Json) : Option Resource := do
  let (tag, rest) ← Record.splitTag? "resource" value
  let kind ← Record.tagChoice? form (Kind.all.map fun kind => (kind.name, kind)) Kind.all tag
  let fields ← Record.fields? [kind.field] rest
  return kind.resource (← fields.withDefault kind.field "" Record.text?)

end Resource

end SiteScript

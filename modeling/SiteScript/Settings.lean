import SiteScript.Record

/-!
# Settings

The values that go into every compiled script and that no plan can change.  An
installation may replace any of them.
-/

namespace SiteScript

/-- The fixed values of compiled scripts. -/
structure Settings where
  /-- The title of a fresh site; a plan with this title sets none. -/
  siteTitle : String
  adminUsername : String
  adminPassword : String
  phpVersion : String
  wpVersion : String
  extensionBundles : List String
  /-- Where an administrator lands. -/
  adminPath : String
  /-- The host of links to a script. -/
  shareHost : String
  deriving Repr, DecidableEq

namespace Settings

/-- The settings of an installation that replaces none. -/
def default : Settings :=
  { siteTitle := "My WordPress Website"
    adminUsername := "admin"
    adminPassword := "password"
    phpVersion := "8.0"
    wpVersion := "latest"
    extensionBundles := ["kitchen-sink"]
    adminPath := "/wp-admin/"
    shareHost := "https://playground.wordpress.net" }

/-- Settings as a JSON value. -/
def toJson (settings : Settings) : Json :=
  .obj [("default_site_title", .str settings.siteTitle),
    ("admin_username", .str settings.adminUsername),
    ("admin_password", .str settings.adminPassword),
    ("php_version", .str settings.phpVersion),
    ("wp_version", .str settings.wpVersion),
    ("extension_bundles", .texts settings.extensionBundles),
    ("admin_path", .str settings.adminPath),
    ("share_host", .str settings.shareHost)]

/-- The names of the settings in order. -/
def names : List String :=
  ["default_site_title", "admin_username", "admin_password", "php_version", "wp_version",
    "extension_bundles", "admin_path", "share_host"]

/-- Reads settings; those that are missing keep their default values. -/
def ofJson? (value : Json) : Option Settings := do
  let fields ← Record.fields? names value
  let siteTitle ← fields.withDefault "default_site_title" default.siteTitle Record.text?
  let adminUsername ← fields.withDefault "admin_username" default.adminUsername Record.text?
  let adminPassword ← fields.withDefault "admin_password" default.adminPassword Record.text?
  let phpVersion ← fields.withDefault "php_version" default.phpVersion Record.text?
  let wpVersion ← fields.withDefault "wp_version" default.wpVersion Record.text?
  let extensionBundles ←
    fields.withDefault "extension_bundles" default.extensionBundles (Record.list? Record.text?)
  let adminPath ← fields.withDefault "admin_path" default.adminPath Record.text?
  let shareHost ← fields.withDefault "share_host" default.shareHost Record.text?
  return ⟨siteTitle, adminUsername, adminPassword, phpVersion, wpVersion, extensionBundles,
    adminPath, shareHost⟩

end Settings

end SiteScript

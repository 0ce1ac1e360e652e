import SiteScript.Settings

/-!
# Shapes

What a reader expects of a file before it looks at it: where strings and lists have to
be, which members of a record it knows, and where any value may stand.  Members that a
shape does not know are ignored, whatever is in them.
-/

namespace SiteScript

/-- What is expected of a value. -/
inductive Shape where
  /-- A string. -/
  | text
  /-- A string or nothing. -/
  | optionalText
  /-- One of several words. -/
  | choice
  | list (item : Shape)
  /-- A record with the given fields. -/
  | record (fields : List (String × Shape))
  /-- Any value. -/
  | value

namespace Shape

/-- The shape of a step. -/
def step : Shape :=
  .record [("id", .text), ("type", .text), ("data", .value)]

/-- The shape of a plan. -/
def plan : Shape :=
  .record [("blueprintTitle", .text), ("landingPageType", .choice),
    ("customLandingUrl", .optionalText), ("steps", .list step)]

/-- The shape of settings. -/
def settings : Shape :=
  .record (Settings.names.map fun name =>
    (name, if name == "extension_bundles" then .list .text else .text))

end Shape

end SiteScript

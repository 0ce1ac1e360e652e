import SiteScript.Plan.Written

/-!
# Plans

A plan is what its author works on and saves: the title of the site, where a
visitor lands, and the steps.
-/

namespace SiteScript

/-- A site as its author describes it. -/
structure Plan where
  title : String
  landing : LandingMode
  /-- Where a visitor lands, if the landing mode leaves it open. -/
  landingUrl : Option String
  /-- The steps in the order in which they are to be carried out. -/
  steps : List Step
  deriving Repr, DecidableEq

namespace Plan

/-- A plan as a JSON value. -/
def toJson (plan : Plan) : Json :=
  .obj ([("blueprintTitle", .str plan.title), ("landingPageType", .str plan.landing.name)] ++
    Record.optionalMember "customLandingUrl" (plan.landingUrl.map .str) ++
    [("steps", Step.listToJson plan.steps)])

/-- Reads a plan, every field of which may be missing. -/
def ofJson? (value : Json) : Option Plan := do
  let fields ← Record.fields?
    ["blueprintTitle", "landingPageType", "customLandingUrl", "steps"] value
  let title ← fields.withDefault "blueprintTitle" "" Record.text?
  let landing ← fields.withDefault "landingPageType" .admin LandingMode.ofJson?
  let landingUrl ← fields.optional "customLandingUrl" Record.text?
  let steps ← fields.withDefault "steps" [] Step.listOfJson?
  return { title, landing, landingUrl, steps }

end Plan

end SiteScript

import SiteScript.Plan.Step

/-!
# The numbers of created content

The runtime numbers the pages and posts it makes one after the other.  As every
step makes at most one, and they are made in the order of the steps, the number
of each can be told in advance: it is the first number plus the number of
content-making steps before it.  Files that the runtime stores also take numbers
and are not counted here.
-/

namespace SiteScript.Numbering

/-- The number of the first page or post that the runtime makes. -/
def firstCreated : Nat := 2

/-- The number of pages and posts that steps make. -/
def createdCount (steps : List Step) : Nat :=
  steps.countP fun step => step.kind.creates

/-- The number that the content of the step at a position gets. -/
def createdAt (position : Nat) (steps : List Step) : Nat :=
  firstCreated + createdCount (steps.take position)

/-- The number that the content of the first step with an identifier gets. -/
def createdBy? (id : String) (steps : List Step) : Option Nat :=
  (steps.findIdx? fun step => step.id == id).map (createdAt · steps)

end SiteScript.Numbering

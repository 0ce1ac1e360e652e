import SiteScript.Json.Parser
import SiteScript.Plan.Basic
import SiteScript.Shape

/-!
# Records in JSON

A record is read from the tree of a JSON text knowing its shape, and members of an
object that the shape does not know need not have a value.  Everywhere else the value
is that of the tree; whether it is of the expected kind is seen when the record itself
is read from it.
-/

namespace SiteScript.Json

mutual
/-- The value of a tree without the members that the shape does not know. At most `limit` lists
and objects may be nested in it. -/
def Tree.read? (limit : Nat) : Shape → Tree → Option Json
  | .list item, .arr items =>
    if limit = 0 then none else (items.mapM (Tree.read? (limit - 1) item)).map .arr
  | .record fields, .arr items =>
    if limit = 0 then none else (Tree.readItems? (limit - 1) fields items).map .arr
  | .record fields, .obj members =>
    if limit = 0 then none
    else do
      let known ← members.mapM fun (name, tree) => do
        let name ← text? name
        let value ← Tree.readMember? (limit - 1) fields name tree
        return value.toList.map fun value => (name, value)
      return .obj known.flatten
  | _, tree => tree.value? limit
/-- The value of the member with the given name, if a record has such a field. -/
def Tree.readMember? (limit : Nat) :
    List (String × Shape) → String → Tree → Option (Option Json)
  | [], _, _ => some none
  | (name, shape) :: rest, wanted, tree =>
    if name = wanted then (Tree.read? limit shape tree).map some
    else Tree.readMember? limit rest wanted tree
/-- The values of the fields of a record that is written as a list, and of all items behind
them. -/
def Tree.readItems? (limit : Nat) : List (String × Shape) → List Tree → Option (List Json)
  | _, [] => some []
  | [], items => Tree.itemValues? limit items
  | (_, shape) :: rest, item :: items => do
    return (← Tree.read? limit shape item) :: (← Tree.readItems? limit rest items)
end

/-- Reads the text of a plan; a field of the plan or of a step may not be named twice. -/
def parsePlan? (text : String) : Option Plan := do
  Plan.ofJson? (← (← tree? text.toList).read? depthLimit .plan)

end SiteScript.Json

import SiteScript.Json.Number
import SiteScript.Members
import SiteScript.Text.Clean

/-!
# JSON values

The values that documents, plans and options are made of.  Members of an object
are kept in the order in which they are written; a value read from a text may
name a member more than once, and `Json.merged` resolves that everywhere: the
name keeps its first place and its last value.
-/

namespace SiteScript

/-- A JSON value. -/
inductive Json where
  | null
  | bool (value : Bool)
  | num (value : Number)
  | str (text : String)
  | arr (items : List Json)
  | obj (members : List (String × Json))
  deriving Repr, Inhabited

namespace Json

/-- A natural number as a JSON value. -/
def nat (n : Nat) : Json :=
  .num (.integer n)

/-- A list of texts as a JSON value. -/
def texts (list : List String) : Json :=
  .arr (list.map .str)

/-- The value of a member, if the value is an object that has it. -/
def member? (name : String) : Json → Option Json
  | .obj members => members.lookup name
  | _ => none

/-! ## Equality -/

mutual
/-- Decides equality of values. -/
def beq : Json → Json → Bool
  | .null, .null => true
  | .bool left, .bool right => left == right
  | .num left, .num right => left == right
  | .str left, .str right => left == right
  | .arr left, .arr right => beqItems left right
  | .obj left, .obj right => beqMembers left right
  | _, _ => false
/-- Decides equality of item lists. -/
def beqItems : List Json → List Json → Bool
  | [], [] => true
  | left :: leftRest, right :: rightRest => beq left right && beqItems leftRest rightRest
  | _, _ => false
/-- Decides equality of member lists. -/
def beqMembers : List (String × Json) → List (String × Json) → Bool
  | [], [] => true
  | (leftName, left) :: leftRest, (rightName, right) :: rightRest =>
    leftName == rightName && (beq left right && beqMembers leftRest rightRest)
  | _, _ => false
end

mutual
theorem beq_eq_true_iff : ∀ left right : Json, beq left right = true ↔ left = right
  | .null, right => by cases right <;> simp [beq]
  | .bool _, right => by cases right <;> simp [beq]
  | .num _, right => by cases right <;> simp [beq]
  | .str _, right => by cases right <;> simp [beq]
  | .arr left, right => by
    cases right with
    | arr right => simpa [beq] using beqItems_eq_true_iff left right
    | _ => simp [beq]
  | .obj left, right => by
    cases right with
    | obj right => simpa [beq] using beqMembers_eq_true_iff left right
    | _ => simp [beq]
theorem beqItems_eq_true_iff : ∀ left right : List Json,
    beqItems left right = true ↔ left = right
  | [], right => by cases right <;> simp [beqItems]
  | left :: leftRest, right => by
    cases right with
    | nil => simp [beqItems]
    | cons right rightRest =>
      simp [beqItems, beq_eq_true_iff left right, beqItems_eq_true_iff leftRest rightRest]
theorem beqMembers_eq_true_iff : ∀ left right : List (String × Json),
    beqMembers left right = true ↔ left = right
  | [], right => by cases right <;> simp [beqMembers]
  | (leftName, left) :: leftRest, right => by
    cases right with
    | nil => simp [beqMembers]
    | cons right rightRest =>
      obtain ⟨rightName, right⟩ := right
      simp [beqMembers, beq_eq_true_iff left right, beqMembers_eq_true_iff leftRest rightRest,
        and_assoc]
end

instance : DecidableEq Json := fun left right =>
  decidable_of_iff (beq left right = true) (beq_eq_true_iff left right)

/-! ## Repeated members -/

mutual
/-- The value in which every object names each member once, in its first place and with
its last value. -/
def merged : Json → Json
  | .arr items => .arr (mergedItems items)
  | .obj members => .obj (Members.ofPairs (mergedMembers members))
  | value => value
/-- The merged items of a list. -/
def mergedItems : List Json → List Json
  | [] => []
  | item :: rest => item.merged :: mergedItems rest
/-- The members of a list with merged values; their names still repeat. -/
def mergedMembers : List (String × Json) → List (String × Json)
  | [] => []
  | (name, value) :: rest => (name, value.merged) :: mergedMembers rest
end

/-! ## Clean values -/

mutual
/-- The value with every string inside it clean.  Names of members are left alone. -/
def deepClean : Json → Json
  | .str text => .str (Text.clean text)
  | .arr items => .arr (deepCleanItems items)
  | .obj members => .obj (deepCleanMembers members)
  | value => value
/-- The clean items of a list. -/
def deepCleanItems : List Json → List Json
  | [] => []
  | item :: rest => item.deepClean :: deepCleanItems rest
/-- The members of a list with clean values. -/
def deepCleanMembers : List (String × Json) → List (String × Json)
  | [] => []
  | (name, value) :: rest => (name, value.deepClean) :: deepCleanMembers rest
end

theorem mergedItems_eq_map (items : List Json) : mergedItems items = items.map merged := by
  induction items with
  | nil => rfl
  | cons item rest inductionHypothesis => simp [mergedItems, inductionHypothesis]

theorem mergedMembers_eq_map (members : List (String × Json)) :
    mergedMembers members = members.map fun member => (member.1, member.2.merged) := by
  induction members with
  | nil => rfl
  | cons member rest inductionHypothesis => simp [mergedMembers, inductionHypothesis]

theorem deepCleanItems_eq_map (items : List Json) :
    deepCleanItems items = items.map deepClean := by
  induction items with
  | nil => rfl
  | cons item rest inductionHypothesis => simp [deepCleanItems, inductionHypothesis]

theorem deepCleanMembers_eq_map (members : List (String × Json)) :
    deepCleanMembers members = members.map fun member => (member.1, member.2.deepClean) := by
  induction members with
  | nil => rfl
  | cons member rest inductionHypothesis => simp [deepCleanMembers, inductionHypothesis]

end Json

end SiteScript

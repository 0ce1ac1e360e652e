import Mathlib.Data.List.Basic
import SiteScript.Json.Parser
import SiteScript.Proofs.Json.Literals
import SiteScript.Proofs.Json.Strings
import SiteScript.Proofs.Members

/-!
# Exact values

A value can be written and read back if its numbers are integers that are kept exactly, if
it is not nested too deeply, and if its objects name each member once.  Cleaning the
strings of a value changes none of that.
-/

namespace SiteScript.Json

/-! ## Induction -/

/-- What holds of a list or object if it holds of its parts holds of every value. -/
@[elab_as_elim]
theorem induction {holds : Json → Prop} (null : holds .null) (bool : ∀ value, holds (.bool value))
    (num : ∀ value, holds (.num value)) (str : ∀ text, holds (.str text))
    (arr : ∀ items : List Json, (∀ item ∈ items, holds item) → holds (.arr items))
    (obj : ∀ members : List (String × Json), (∀ member ∈ members, holds member.2) →
      holds (.obj members)) (value : Json) : holds value :=
  @Json.rec holds (fun items => ∀ item ∈ items, holds item)
    (fun members => ∀ member ∈ members, holds member.2) (fun member => holds member.2)
    null bool num str arr obj
    (by simp) (fun _ _ first others => List.forall_mem_cons.mpr ⟨first, others⟩)
    (by simp) (fun _ _ first others => List.forall_mem_cons.mpr ⟨first, others⟩)
    (fun _ _ ofValue => ofValue) value

/-! ## Numbers, depth and names -/

mutual
/-- The numbers in a value, in order and at any depth. -/
def numbers : Json → List Number
  | .num value => [value]
  | .arr items => numbersOfItems items
  | .obj members => numbersOfMembers members
  | .null | .bool _ | .str _ => []
/-- The numbers in the items of a list. -/
def numbersOfItems : List Json → List Number
  | [] => []
  | item :: rest => item.numbers ++ numbersOfItems rest
/-- The numbers in the values of members. -/
def numbersOfMembers : List (String × Json) → List Number
  | [] => []
  | (_, value) :: rest => value.numbers ++ numbersOfMembers rest
end

mutual
/-- The names of the members in a value, in order and at any depth. -/
def memberNames : Json → List String
  | .arr items => memberNamesOfItems items
  | .obj members => memberNamesOfMembers members
  | .null | .bool _ | .num _ | .str _ => []
/-- The names of the members in the items of a list. -/
def memberNamesOfItems : List Json → List String
  | [] => []
  | item :: rest => item.memberNames ++ memberNamesOfItems rest
/-- The names of members, each before those in its value. -/
def memberNamesOfMembers : List (String × Json) → List String
  | [] => []
  | (name, value) :: rest => name :: value.memberNames ++ memberNamesOfMembers rest
end

mutual
/-- The number of lists and objects that are nested in a value. -/
def depth : Json → Nat
  | .arr items => depthOfItems items + 1
  | .obj members => depthOfMembers members + 1
  | .null | .bool _ | .num _ | .str _ => 0
/-- The depth of the deepest item of a list. -/
def depthOfItems : List Json → Nat
  | [] => 0
  | item :: rest => max item.depth (depthOfItems rest)
/-- The depth of the deepest value of members. -/
def depthOfMembers : List (String × Json) → Nat
  | [] => 0
  | (_, value) :: rest => max value.depth (depthOfMembers rest)
end

mutual
/-- Whether every object in a value names each member once. -/
def isDistinct : Json → Bool
  | .arr items => areDistinctItems items
  | .obj members => decide (Members.names members).Nodup && areDistinctMembers members
  | .null | .bool _ | .num _ | .str _ => true
/-- Whether every object in the items of a list names each member once. -/
def areDistinctItems : List Json → Bool
  | [] => true
  | item :: rest => item.isDistinct && areDistinctItems rest
/-- Whether every object in the values of members names each member once. -/
def areDistinctMembers : List (String × Json) → Bool
  | [] => true
  | (_, value) :: rest => value.isDistinct && areDistinctMembers rest
end

/-- A value that can be written and read back. -/
structure IsExact (value : Json) : Prop where
  integers : ∀ number ∈ value.numbers, number.isKeptInteger
  shallow : value.depth ≤ depthLimit
  distinct : value.isDistinct

theorem numbers_arr (items : List Json) : (arr items).numbers = items.flatMap numbers := by
  rw [numbers]
  induction items with
  | nil => rfl
  | cons item rest inductionHypothesis =>
      rw [numbersOfItems, List.flatMap_cons, inductionHypothesis]

theorem numbers_obj (members : List (String × Json)) :
    (obj members).numbers = members.flatMap fun member => member.2.numbers := by
  rw [numbers]
  induction members with
  | nil => rfl
  | cons member rest inductionHypothesis =>
      rw [numbersOfMembers, List.flatMap_cons, inductionHypothesis]

@[simp]
theorem isDistinct_null : null.isDistinct :=
  rfl

@[simp]
theorem isDistinct_bool (value : Bool) : (bool value).isDistinct :=
  rfl

@[simp]
theorem isDistinct_str (text : String) : (str text).isDistinct :=
  rfl

@[simp]
theorem isDistinct_arr {items : List Json} :
    (arr items).isDistinct ↔ ∀ item ∈ items, item.isDistinct := by
  rw [isDistinct]
  induction items with
  | nil => simp [areDistinctItems]
  | cons item rest inductionHypothesis =>
      rw [areDistinctItems, Bool.and_eq_true, List.forall_mem_cons, inductionHypothesis]

@[simp]
theorem isDistinct_obj {members : List (String × Json)} :
    (obj members).isDistinct ↔
      (Members.names members).Nodup ∧ ∀ member ∈ members, member.2.isDistinct := by
  have values : areDistinctMembers members ↔ ∀ member ∈ members, member.2.isDistinct := by
    induction members with
    | nil => simp [areDistinctMembers]
    | cons member rest inductionHypothesis =>
        rw [areDistinctMembers, Bool.and_eq_true, List.forall_mem_cons, inductionHypothesis]
  rw [isDistinct, Bool.and_eq_true, decide_eq_true_eq, values]

@[simp]
theorem isDistinct_texts (list : List String) : (texts list).isDistinct := by
  simp [texts]

/-! ## Repeated members -/

/-- A value that names each member once is left as it is. -/
theorem merged_eq_self {value : Json} (distinct : value.isDistinct) : value.merged = value := by
  induction value using induction with
  | arr items inductionHypothesis =>
      rw [isDistinct_arr] at distinct
      have unchanged : ∀ item ∈ items, item.merged = item := fun item member =>
        inductionHypothesis item member (distinct item member)
      rw [merged, mergedItems_eq_map, List.map_congr_left unchanged, List.map_id']
  | obj members inductionHypothesis =>
      rw [isDistinct_obj] at distinct
      have unchanged : ∀ member ∈ members, (member.1, member.2.merged) = member :=
        fun member isMember => by rw [inductionHypothesis member isMember (distinct.2 member isMember)]
      rw [merged, mergedMembers_eq_map, List.map_congr_left unchanged, List.map_id',
        Members.ofPairs_of_nodup distinct.1]
  | _ => rfl

/-- Merging repeated members leaves none that is repeated. -/
theorem isDistinct_merged (value : Json) : value.merged.isDistinct := by
  induction value using induction with
  | arr items inductionHypothesis =>
      rw [merged, mergedItems_eq_map, isDistinct_arr]
      intro item isItem
      obtain ⟨original, member, rfl⟩ := List.mem_map.mp isItem
      exact inductionHypothesis original member
  | obj members inductionHypothesis =>
      rw [merged, isDistinct_obj]
      refine ⟨Members.nodup_names_ofPairs _, fun member isMember => ?_⟩
      have isMerged := Members.mem_of_mem_ofPairs isMember
      rw [mergedMembers_eq_map] at isMerged
      obtain ⟨original, member, rfl⟩ := List.mem_map.mp isMerged
      exact inductionHypothesis original member
  | _ => rfl

/-- Members that have been set one after the other are named once each. -/
theorem isDistinct_obj_ofPairs {pairs : List (String × Json)}
    (distinct : ∀ pair ∈ pairs, pair.2.isDistinct) : (obj (Members.ofPairs pairs)).isDistinct := by
  rw [isDistinct_obj]
  exact ⟨Members.nodup_names_ofPairs pairs, fun member isMember =>
    distinct member (Members.mem_of_mem_ofPairs isMember)⟩

/-! ## Clean values -/

theorem names_deepCleanMembers (members : List (String × Json)) :
    Members.names (deepCleanMembers members) = Members.names members := by
  rw [deepCleanMembers_eq_map, Members.names, Members.names, List.map_map]
  rfl

theorem numbers_deepClean (value : Json) : value.deepClean.numbers = value.numbers := by
  induction value using induction with
  | arr items inductionHypothesis =>
      rw [deepClean, deepCleanItems_eq_map, numbers_arr, numbers_arr, List.flatMap_map]
      exact List.flatMap_congr inductionHypothesis
  | obj members inductionHypothesis =>
      rw [deepClean, deepCleanMembers_eq_map, numbers_obj, numbers_obj, List.flatMap_map]
      exact List.flatMap_congr inductionHypothesis
  | _ => rfl

mutual
/-- A clean value has the same names in it, in the same order. -/
theorem memberNames_deepClean : ∀ value : Json, value.deepClean.memberNames = value.memberNames
  | .null | .bool _ | .num _ | .str _ => rfl
  | .arr items => memberNamesOfItems_deepCleanItems items
  | .obj members => memberNamesOfMembers_deepCleanMembers members
theorem memberNamesOfItems_deepCleanItems :
    ∀ items : List Json, memberNamesOfItems (deepCleanItems items) = memberNamesOfItems items
  | [] => rfl
  | item :: rest =>
    congrArg₂ (· ++ ·) (memberNames_deepClean item) (memberNamesOfItems_deepCleanItems rest)
theorem memberNamesOfMembers_deepCleanMembers :
    ∀ members : List (String × Json),
      memberNamesOfMembers (deepCleanMembers members) = memberNamesOfMembers members
  | [] => rfl
  | (name, value) :: rest =>
    congrArg₂ (name :: · ++ ·) (memberNames_deepClean value)
      (memberNamesOfMembers_deepCleanMembers rest)
end

mutual
theorem depth_deepClean : ∀ value : Json, value.deepClean.depth = value.depth
  | .null | .bool _ | .num _ | .str _ => rfl
  | .arr items => congrArg (· + 1) (depthOfItems_deepCleanItems items)
  | .obj members => congrArg (· + 1) (depthOfMembers_deepCleanMembers members)
theorem depthOfItems_deepCleanItems :
    ∀ items : List Json, depthOfItems (deepCleanItems items) = depthOfItems items
  | [] => rfl
  | item :: rest => congrArg₂ max (depth_deepClean item) (depthOfItems_deepCleanItems rest)
theorem depthOfMembers_deepCleanMembers :
    ∀ members : List (String × Json),
      depthOfMembers (deepCleanMembers members) = depthOfMembers members
  | [] => rfl
  | (_, value) :: rest =>
    congrArg₂ max (depth_deepClean value) (depthOfMembers_deepCleanMembers rest)
end

theorem isDistinct_deepClean {value : Json} (distinct : value.isDistinct) :
    value.deepClean.isDistinct := by
  induction value using induction with
  | arr items inductionHypothesis =>
      rw [isDistinct_arr] at distinct
      rw [deepClean, deepCleanItems_eq_map, isDistinct_arr]
      intro item isItem
      obtain ⟨original, member, rfl⟩ := List.mem_map.mp isItem
      exact inductionHypothesis original member (distinct original member)
  | obj members inductionHypothesis =>
      rw [isDistinct_obj] at distinct
      rw [deepClean, isDistinct_obj, names_deepCleanMembers, deepCleanMembers_eq_map]
      refine ⟨distinct.1, fun member isMember => ?_⟩
      obtain ⟨original, member, rfl⟩ := List.mem_map.mp isMember
      exact inductionHypothesis original member (distinct.2 original member)
  | _ => rfl

end SiteScript.Json

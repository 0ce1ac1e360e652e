import SiteScript.Json.Basic
import SiteScript.Proofs.Members
import SiteScript.Proofs.Text.CleanForm

/-!
# The strings in a value

Cleaning a value cleans the strings in it one by one, so a value is clean exactly when
all its strings are.
-/

namespace SiteScript.Json

mutual
/-- The strings in a value, in order and at any depth.  Names of members do not count. -/
def strings : Json → List String
  | .str text => [text]
  | .arr items => stringsOfItems items
  | .obj members => stringsOfMembers members
  | .null | .bool _ | .num _ => []
/-- The strings in the items of a list. -/
def stringsOfItems : List Json → List String
  | [] => []
  | item :: rest => item.strings ++ stringsOfItems rest
/-- The strings in the values of members. -/
def stringsOfMembers : List (String × Json) → List String
  | [] => []
  | (_, value) :: rest => value.strings ++ stringsOfMembers rest
end

mutual
/-- A value is clean exactly if the strings in it are. -/
theorem deepClean_eq_self_iff :
    ∀ value : Json, value.deepClean = value ↔ ∀ text ∈ value.strings, Text.clean text = text
  | .null => by simp [deepClean, strings]
  | .bool _ => by simp [deepClean, strings]
  | .num _ => by simp [deepClean, strings]
  | .str _ => by simp [deepClean, strings]
  | .arr items => by
      simpa [deepClean, strings] using deepCleanItems_eq_self_iff items
  | .obj members => by
      simpa [deepClean, strings] using deepCleanMembers_eq_self_iff members
theorem deepCleanItems_eq_self_iff :
    ∀ items : List Json,
      deepCleanItems items = items ↔ ∀ text ∈ stringsOfItems items, Text.clean text = text
  | [] => by simp [deepCleanItems, stringsOfItems]
  | item :: rest => by
      simp only [deepCleanItems, stringsOfItems, List.cons.injEq, List.forall_mem_append,
        deepClean_eq_self_iff item, deepCleanItems_eq_self_iff rest]
theorem deepCleanMembers_eq_self_iff :
    ∀ members : List (String × Json),
      deepCleanMembers members = members ↔
        ∀ text ∈ stringsOfMembers members, Text.clean text = text
  | [] => by simp [deepCleanMembers, stringsOfMembers]
  | (_, value) :: rest => by
      simp only [deepCleanMembers, stringsOfMembers, List.cons.injEq, Prod.mk.injEq, true_and,
        List.forall_mem_append, deepClean_eq_self_iff value, deepCleanMembers_eq_self_iff rest]
end

mutual
/-- Cleaning a value cleans the strings in it. -/
theorem strings_deepClean : ∀ value : Json, value.deepClean.strings = value.strings.map Text.clean
  | .null => by simp [deepClean, strings]
  | .bool _ => by simp [deepClean, strings]
  | .num _ => by simp [deepClean, strings]
  | .str _ => by simp [deepClean, strings]
  | .arr items => by
      simpa [deepClean, strings] using stringsOfItems_deepCleanItems items
  | .obj members => by
      simpa [deepClean, strings] using stringsOfMembers_deepCleanMembers members
theorem stringsOfItems_deepCleanItems :
    ∀ items : List Json,
      stringsOfItems (deepCleanItems items) = (stringsOfItems items).map Text.clean
  | [] => by simp [deepCleanItems, stringsOfItems]
  | item :: rest => by
      simp only [deepCleanItems, stringsOfItems, List.map_append, strings_deepClean item,
        stringsOfItems_deepCleanItems rest]
theorem stringsOfMembers_deepCleanMembers :
    ∀ members : List (String × Json),
      stringsOfMembers (deepCleanMembers members) = (stringsOfMembers members).map Text.clean
  | [] => by simp [deepCleanMembers, stringsOfMembers]
  | (_, value) :: rest => by
      simp only [deepCleanMembers, stringsOfMembers, List.map_append, strings_deepClean value,
        stringsOfMembers_deepCleanMembers rest]
end

/-- Cleaning a value once is enough. -/
@[simp]
theorem deepClean_deepClean (value : Json) : value.deepClean.deepClean = value.deepClean := by
  rw [deepClean_eq_self_iff, strings_deepClean]
  intro text member
  obtain ⟨original, -, cleaned⟩ := List.mem_map.mp member
  rw [← cleaned, Text.clean_clean]

/-- A list of values is clean if each of them is. -/
theorem deepCleanItems_eq_self {items : List Json}
    (areClean : ∀ item ∈ items, item.deepClean = item) : deepCleanItems items = items := by
  rw [deepCleanItems_eq_map]
  exact (List.map_congr_left areClean).trans (List.map_id items)

/-! ## Clean members -/

/-- Members with clean names and clean values. -/
def CleanMembers (members : Members Json) : Prop :=
  ∀ member ∈ members, Text.clean member.1 = member.1 ∧ member.2.deepClean = member.2

theorem CleanMembers.map_eq {members : Members Json} (areClean : CleanMembers members) :
    members.map (fun member => (Text.clean member.1, member.2.deepClean)) = members := by
  refine (List.map_congr_left fun member isMember => ?_).trans (List.map_id members)
  obtain ⟨nameClean, valueClean⟩ := areClean member isMember
  rw [nameClean, valueClean]
  rfl

theorem CleanMembers.deepCleanMembers_eq {members : Members Json}
    (areClean : CleanMembers members) : deepCleanMembers members = members := by
  rw [deepCleanMembers_eq_map]
  refine (List.map_congr_left fun member isMember => ?_).trans (List.map_id members)
  rw [(areClean member isMember).2]
  rfl

theorem CleanMembers.clean_names {members : Members Json} (areClean : CleanMembers members) :
    ∀ name ∈ members.names, Text.clean name = name := by
  intro name isName
  obtain ⟨member, isMember, rfl⟩ := List.mem_map.mp isName
  exact (areClean member isMember).1

/-- Setting clean members leaves clean members. -/
theorem CleanMembers.ofPairs {pairs : List (String × Json)} (areClean : CleanMembers pairs) :
    CleanMembers (Members.ofPairs pairs) :=
  fun member isMember => areClean member (Members.mem_of_mem_ofPairs isMember)

end SiteScript.Json

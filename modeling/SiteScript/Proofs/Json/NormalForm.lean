import SiteScript.Proofs.Json.Strings
import SiteScript.Proofs.Text.NormalForm

/-!
# Clean values as normal forms

A value is its outline, in which the strings are blanked out, with its strings filled in.  Cleaning
a value keeps the outline and cleans each string, and nothing else does both.
-/

namespace SiteScript

namespace Json

/-! ## Outlines -/

mutual
/-- The value with every string in it empty: all that is no string, with the names of the members,
their order and the lengths of lists. -/
def outline : Json → Json
  | .str _ => .str ""
  | .arr items => .arr (outlineItems items)
  | .obj members => .obj (outlineMembers members)
  | value => value
/-- The outlines of the items of a list. -/
def outlineItems : List Json → List Json
  | [] => []
  | item :: rest => item.outline :: outlineItems rest
/-- The members of a list with the outlines of their values. -/
def outlineMembers : List (String × Json) → List (String × Json)
  | [] => []
  | (name, value) :: rest => (name, value.outline) :: outlineMembers rest
end

mutual
/-- Cleaning a value changes nothing but strings. -/
theorem outline_deepClean : ∀ value : Json, value.deepClean.outline = value.outline
  | .null | .bool _ | .num _ | .str _ => rfl
  | .arr items => congrArg Json.arr (outlineItems_deepCleanItems items)
  | .obj members => congrArg Json.obj (outlineMembers_deepCleanMembers members)
theorem outlineItems_deepCleanItems :
    ∀ items : List Json, outlineItems (deepCleanItems items) = outlineItems items
  | [] => rfl
  | item :: rest => congrArg₂ List.cons (outline_deepClean item) (outlineItems_deepCleanItems rest)
theorem outlineMembers_deepCleanMembers :
    ∀ members : List (String × Json),
      outlineMembers (deepCleanMembers members) = outlineMembers members
  | [] => rfl
  | (name, value) :: rest =>
    congrArg₂ (fun value later => (name, value) :: later) (outline_deepClean value)
      (outlineMembers_deepCleanMembers rest)
end

/-! ## Filling outlines in -/

mutual
/-- An outline has room for as many strings as there are in the value. -/
theorem length_strings_outline : ∀ value : Json,
    value.outline.strings.length = value.strings.length
  | .null | .bool _ | .num _ | .str _ => rfl
  | .arr items => length_stringsOfItems_outlineItems items
  | .obj members => length_stringsOfMembers_outlineMembers members
theorem length_stringsOfItems_outlineItems : ∀ items : List Json,
    (stringsOfItems (outlineItems items)).length = (stringsOfItems items).length
  | [] => rfl
  | item :: rest => by
      rw [outlineItems, stringsOfItems, stringsOfItems, List.length_append, List.length_append,
        length_strings_outline item, length_stringsOfItems_outlineItems rest]
theorem length_stringsOfMembers_outlineMembers : ∀ members : List (String × Json),
    (stringsOfMembers (outlineMembers members)).length = (stringsOfMembers members).length
  | [] => rfl
  | (_, value) :: rest => by
      rw [outlineMembers, stringsOfMembers, stringsOfMembers, List.length_append,
        List.length_append, length_strings_outline value,
        length_stringsOfMembers_outlineMembers rest]
end

/-- Strings that fill the same outline, with others behind them, are told apart by their number. -/
theorem strings_of_append {left right : Json} (sameOutline : left.outline = right.outline)
    {leftRest rightRest : List String}
    (sameStrings : left.strings ++ leftRest = right.strings ++ rightRest) :
    left.strings = right.strings ∧ leftRest = rightRest := by
  have sameLength : left.strings.length = right.strings.length := by
    rw [← length_strings_outline left, sameOutline, length_strings_outline right]
  exact List.append_inj sameStrings sameLength

mutual
/-- A value is determined by its outline and its strings. -/
theorem eq_of_outline_eq_of_strings_eq : ∀ {left right : Json}, left.outline = right.outline →
    left.strings = right.strings → left = right
  | .str _, right, sameOutline, sameStrings => by
      cases right with
      | str other => exact congrArg Json.str (List.singleton_inj.mp sameStrings)
      | _ => simp [outline] at sameOutline
  | .arr items, right, sameOutline, sameStrings => by
      cases right with
      | arr others =>
          have sameItems := Json.arr.inj sameOutline
          exact congrArg Json.arr (eq_of_outlineItems_eq sameItems sameStrings)
      | _ => simp [outline] at sameOutline
  | .obj members, right, sameOutline, sameStrings => by
      cases right with
      | obj others =>
          have sameMembers := Json.obj.inj sameOutline
          exact congrArg Json.obj (eq_of_outlineMembers_eq sameMembers sameStrings)
      | _ => simp [outline] at sameOutline
  | .null, right, sameOutline, _ | .bool _, right, sameOutline, _
  | .num _, right, sameOutline, _ => by
      cases right <;> simp_all [outline]
theorem eq_of_outlineItems_eq : ∀ {left right : List Json}, outlineItems left = outlineItems right →
    stringsOfItems left = stringsOfItems right → left = right
  | [], right, sameOutline, _ => by
      cases right with
      | nil => rfl
      | cons item rest => cases sameOutline
  | item :: rest, right, sameOutline, sameStrings => by
      cases right with
      | nil => cases sameOutline
      | cons other others =>
          obtain ⟨sameFirst, sameRest⟩ := List.cons.inj sameOutline
          obtain ⟨firstStrings, restStrings⟩ := strings_of_append sameFirst sameStrings
          rw [eq_of_outline_eq_of_strings_eq sameFirst firstStrings,
            eq_of_outlineItems_eq sameRest restStrings]
theorem eq_of_outlineMembers_eq : ∀ {left right : List (String × Json)},
    outlineMembers left = outlineMembers right →
      stringsOfMembers left = stringsOfMembers right → left = right
  | [], right, sameOutline, _ => by
      cases right with
      | nil => rfl
      | cons member rest => cases sameOutline
  | (name, value) :: rest, right, sameOutline, sameStrings => by
      cases right with
      | nil => cases sameOutline
      | cons other others =>
          obtain ⟨otherName, otherValue⟩ := other
          obtain ⟨sameFirst, sameRest⟩ := List.cons.inj sameOutline
          obtain ⟨rfl, sameValue⟩ := Prod.mk.inj sameFirst
          obtain ⟨valueStrings, restStrings⟩ := strings_of_append sameValue sameStrings
          rw [eq_of_outline_eq_of_strings_eq sameValue valueStrings,
            eq_of_outlineMembers_eq sameRest restStrings]
end

/-- The clean value is the only one with the same outline and with every string clean. -/
theorem deepClean_eq_iff {value result : Json} :
    value.deepClean = result ↔
      result.outline = value.outline ∧ result.strings = value.strings.map Text.clean := by
  constructor
  · rintro rfl
    exact ⟨outline_deepClean value, strings_deepClean value⟩
  · rintro ⟨sameOutline, cleaned⟩
    apply eq_of_outline_eq_of_strings_eq
    · rw [outline_deepClean, sameOutline]
    · rw [strings_deepClean, cleaned]

end Json

open Text

/-- Cleaning joins what stands between blanks once control characters are spaces, and so it gives
the only text in normal form that has the words of the text.  A value is cleaned string by string,
and nothing else in it changes. -/
theorem cleansToNormalForm :
    (∀ text : String, ∃ pieces, HasRuns (fun c => !isBlank c) (spaceControls text.toList) pieces ∧
      (clean text).toList = List.intercalate [' '] pieces) ∧
    (∀ text form : String, clean text = form ↔ IsNormalFormOf text form) ∧
    (∀ text : String, clean (clean text) = clean text) ∧
    (∀ text : String, clean text = "" ↔ ∀ c ∈ text.toList, isControl c ∨ isBlank c) ∧
    (∀ first second : String, clean first = clean second ↔ SameWords first second) ∧
    (∀ value result : Json, value.deepClean = result ↔
      result.outline = value.outline ∧ result.strings = value.strings.map clean) ∧
    ∀ value : Json, value.deepClean.deepClean = value.deepClean := by
  refine ⟨fun text => ?_, fun _ _ => clean_eq_iff, clean_clean, fun _ => clean_eq_empty_iff,
    fun _ _ => clean_eq_clean_iff, fun _ _ => Json.deepClean_eq_iff, Json.deepClean_deepClean⟩
  refine ⟨_, hasRuns_runs _ _, ?_⟩
  rw [runs_spaceControls, toList_clean, cleanChars]

end SiteScript

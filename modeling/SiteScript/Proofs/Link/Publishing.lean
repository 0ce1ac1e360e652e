import SiteScript.Link

/-!
# Published texts

A value that can be published is published as the compact text of its clean form, in which
control characters are written as escapes.
-/

namespace SiteScript.Link

open Text

/-- A character that is no control character is not escaped. -/
theorem escapeControl_of_not_isControl {c : Char} (notControl : ¬ isControl c) :
    escapeControl c = [c] := by
  have differs : ∀ control, isControl control → c ≠ control := by
    rintro control isControl rfl
    exact notControl isControl
  rw [escapeControl, if_neg (differs _ (by decide)), if_neg (differs _ (by decide)),
    if_neg (differs _ (by decide)), if_neg (differs _ (by decide)),
    if_neg (differs _ (by decide)), if_neg notControl]

theorem flatMap_escapeControl {text : List Char} (noControls : ∀ c ∈ text, ¬ isControl c) :
    text.flatMap escapeControl = text := by
  induction text with
  | nil => rfl
  | cons c rest inductionHypothesis =>
      obtain ⟨notControl, noControlsRest⟩ := List.forall_mem_cons.mp noControls
      rw [List.flatMap_cons, escapeControl_of_not_isControl notControl,
        inductionHypothesis noControlsRest, List.singleton_append]

/-- What is published says what the clean value says. -/
theorem toList_of_publish {value : Json} {text : String} (published : publish value = .ok text) :
    text.toList = value.deepClean.compactChars.flatMap escapeControl := by
  simp only [publish] at published
  split at published
  · split at published
    · cases published
    · split at published
      · cases published
        exact String.toList_ofList
      · cases published
  · rename_i noControls
    cases published
    rw [String.toList_ofList, flatMap_escapeControl]
    intro c member isControl
    exact noControls (List.any_eq_true.mpr ⟨c, member, isControl⟩)

end SiteScript.Link

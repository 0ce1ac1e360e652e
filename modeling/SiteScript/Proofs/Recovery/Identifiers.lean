import Mathlib.Data.List.Nodup
import SiteScript.Proofs.Recovery.Changes
import SiteScript.Proofs.Recovery.Runs

/-!
# The identifiers of recovered steps

Reading an instruction adds steps at the end or changes steps where they stand, so every
recovered step keeps the identifier of its place.
-/

namespace SiteScript.Recovery

variable {ids : Ids} {steps later : List Step}

/-- Every step has the identifier of its place. -/
def IsNumbered (ids : Ids) (steps : List Step) : Prop :=
  steps.map Step.id = (List.range steps.length).map ids

theorem isNumbered_nil (ids : Ids) : IsNumbered ids [] :=
  rfl

theorem IsNumbered.push (numbered : IsNumbered ids steps) (kind : StepKind) :
    IsNumbered ids (push ids steps kind) := by
  rw [IsNumbered, Recovery.push, List.map_append, List.length_append, List.length_singleton,
    List.range_succ, List.map_append, numbered]
  rfl

theorem IsNumbered.pushAll (numbered : IsNumbered ids steps) (kinds : List StepKind) :
    IsNumbered ids (pushAll ids steps kinds) := by
  induction kinds generalizing steps with
  | nil => exact numbered
  | cons kind rest inductionHypothesis => exact inductionHypothesis (numbered.push kind)

/-- Steps with the same identifiers are numbered in the same way. -/
theorem IsNumbered.of_map_id_eq (numbered : IsNumbered ids steps)
    (sameIds : later.map Step.id = steps.map Step.id) : IsNumbered ids later := by
  have sameLength : later.length = steps.length := by
    rw [← List.length_map Step.id, sameIds, List.length_map]
  rw [IsNumbered, sameIds, sameLength]
  exact numbered

/-- Replacing a step by one with its identifier keeps all identifiers. -/
theorem map_id_replaced (before after : List Step) (id : String) (kind changed : StepKind) :
    (before ++ { id, kind := changed } :: after).map Step.id =
      (before ++ { id, kind } :: after).map Step.id := by
  rw [List.map_append, List.map_append]
  rfl

/-- Meeting a demand leaves every step with the identifier of its place. -/
theorem Change.isNumbered {demand : Demand} (change : Change ids steps demand later)
    (numbered : IsNumbered ids steps) : IsNumbered ids later := by
  cases change with
  | add _ kinds => exact numbered.pushAll kinds
  | attachImage before after id url draft =>
      exact numbered.of_map_id_eq (map_id_replaced before after id _ _)
  | addItem before after id name menu lead item =>
      exact numbered.of_map_id_eq (map_id_replaced before after id _ _)
  | assignMenu before after id name location menu =>
      exact numbered.of_map_id_eq (map_id_replaced before after id _ _)
  | nothing => exact numbered

/-- Every step recovered from a script has the identifier of its place. -/
theorem isNumbered_recover (ids : Ids) (document : Document) :
    IsNumbered ids (document.recover ids).steps := by
  refine run_induction (motive := fun _ _ recovery => IsNumbered ids recovery.steps)
    (isNumbered_nil ids) ?_ ?_ document.entries
  · intro entries entry later numbered reads
    obtain ⟨demand, -, change⟩ := exists_change_of_readEntry reads
    exact change.isNumbered numbered
  · exact fun entries entry reason numbered _ => numbered

/-- The identifiers of recovered steps are different if those of all places are. -/
theorem nodup_ids_recover {ids : Ids} (injective : Function.Injective ids) (document : Document) :
    ((document.recover ids).steps.map Step.id).Nodup := by
  rw [isNumbered_recover ids document]
  exact List.Nodup.map injective List.nodup_range

end SiteScript.Recovery

import SiteScript.Proofs.Compile.Numbering

/-!
# What a block depends on

A step looks at the other steps of its plan for two things only: the content that an identifier
stands for, and the number of the page that it makes itself.  Where two plans agree on these, the
step has the same block in both.
-/

namespace SiteScript

variable {steps others : List Step} {position otherPosition : Nat}

/-! ## Identifiers -/

/-- The first step with the identifier of a step is that step, if identifiers do not repeat. -/
theorem find?_id_eq (nodup : (steps.map Step.id).Nodup) {page : Step}
    (inSteps : page ∈ steps) : steps.find? (fun step => step.id == page.id) = some page := by
  induction steps with
  | nil => cases inSteps
  | cons step rest inductionHypothesis =>
      rw [List.map_cons, List.nodup_cons] at nodup
      rcases List.mem_cons.mp inSteps with rfl | inRest
      · exact List.find?_cons_of_pos (beq_self_eq_true page.id)
      · have otherId : step.id ≠ page.id := by
          intro sameId
          rw [sameId] at nodup
          exact nodup.1 (List.mem_map_of_mem inRest)
        rw [List.find?_cons_of_neg (by simpa using otherId)]
        exact inductionHypothesis nodup.2 inRest

/-- Steps with the same identifier stand at the same position, if identifiers do not repeat. -/
theorem position_eq_of_id_eq (nodup : (steps.map Step.id).Nodup) {step other : Step}
    (isStep : steps[position]? = some step) (isOther : steps[otherPosition]? = some other)
    (sameId : other.id = step.id) : otherPosition = position := by
  have found := Compile.findIdx?_id_eq nodup isOther
  rw [sameId, Compile.findIdx?_id_eq nodup isStep] at found
  exact (Option.some.inj found).symm

namespace Compile

open SiteScript.Numbering (createdAt)

/-! ## Blocks -/

/-- The items of a menu depend on what identifiers stand for. -/
theorem menuCommands_congr (sameTargets : target? steps = target? others) (menu : Menu) :
    menuCommands steps menu = menuCommands others menu := by
  have sameItems : menuItem steps = menuItem others := by
    funext name item
    simp only [menuItem, sameTargets]
  rw [menuCommands, menuCommands, sameItems]

/-- A page selection depends on its number if it makes its page, and else on the target. -/
theorem pageSelection_congr (sameTargets : target? steps = target? others)
    {created? : Option CreatedContent}
    (sameNumber : created?.isSome → createdAt position steps = createdAt otherPosition others)
    (role : PageRole) (selection : PageSelection) :
    pageSelection steps position role created? selection =
      pageSelection others otherPosition role created? selection := by
  cases created? with
  | none => simp only [pageSelection, sameTargets]
  | some created => simp only [pageSelection, sameTargets, sameNumber rfl]

/-- A block depends on what identifiers stand for, and on the number of what its step makes. -/
theorem block_congr (settings : Settings) (sameTargets : target? steps = target? others)
    {kind : StepKind}
    (sameNumber : kind.creates → createdAt position steps = createdAt otherPosition others) :
    block settings steps position kind = block settings others otherPosition kind := by
  cases kind with
  | setHomepage selection => exact pageSelection_congr sameTargets sameNumber .homepage selection
  | setPostsPage selection => exact pageSelection_congr sameTargets sameNumber .postsPage selection
  | createMenu menu => rw [block, block, menuCommands_congr sameTargets]
  | _ => rfl

end Compile

end SiteScript

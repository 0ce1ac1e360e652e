import Mathlib.Data.List.Basic
import Mathlib.Data.List.Find
import SiteScript.Proofs.Compile.Emission

/-!
# Renaming identifiers

The steps of a plan are told apart and referred to by identifiers.  When all identifiers of a plan
are renamed, and no reference comes to be one to another step, the plan compiles to the same
script: identifiers do not show in it.
-/

namespace SiteScript

variable {rename : String → String}

/-! ## Renaming -/

/-- The selection with its page renamed. -/
def PageSelection.renamed (rename : String → String) (selection : PageSelection) : PageSelection :=
  { selection with pageId := selection.pageId.map rename }

/-- The item with its page renamed. -/
def MenuItem.renamed (rename : String → String) (item : MenuItem) : MenuItem :=
  { item with pageId := item.pageId.map rename }

/-- The menu with the pages of its items renamed. -/
def Menu.renamed (rename : String → String) (menu : Menu) : Menu :=
  { menu with items := menu.items.map (.renamed rename) }

/-- The kind of a step with all references to other steps renamed. -/
def StepKind.renamed (rename : String → String) : StepKind → StepKind
  | .setHomepage selection => .setHomepage (selection.renamed rename)
  | .setPostsPage selection => .setPostsPage (selection.renamed rename)
  | .createMenu menu => .createMenu (menu.renamed rename)
  | kind => kind

/-- The step with its identifier and all its references renamed. -/
def Step.renamed (rename : String → String) (step : Step) : Step :=
  { id := rename step.id, kind := step.kind.renamed rename }

/-- The plan with all identifiers renamed. -/
def Plan.renamed (rename : String → String) (plan : Plan) : Plan :=
  { plan with steps := plan.steps.map (.renamed rename) }

/-- The identifiers by which a step refers to other steps. -/
def StepKind.references : StepKind → List String
  | .setHomepage selection => selection.pageId.toList
  | .setPostsPage selection => selection.pageId.toList
  | .createMenu menu => menu.items.filterMap MenuItem.pageId
  | _ => []

/-- No reference comes to be one to another step when identifiers are renamed. -/
def KeepsReferences (rename : String → String) (steps : List Step) : Prop :=
  ∀ step ∈ steps, ∀ id ∈ step.kind.references, ∀ other ∈ steps,
    rename other.id = rename id → other.id = id

theorem keepsReferences_of_injective (injective : Function.Injective rename) (steps : List Step) :
    KeepsReferences rename steps :=
  fun _ _ _ _ _ _ same => injective same

namespace Compile

open Text (clean)
open SiteScript.Numbering (createdAt createdCount)

variable {steps : List Step} {position : Nat}

/-! ## What a step makes -/

theorem created?_renamed (kind : StepKind) : (kind.renamed rename).created? = kind.created? := by
  cases kind <;> rfl

theorem createdAt_renamed (position : Nat) (steps : List Step) :
    createdAt position (steps.map (.renamed rename)) = createdAt position steps := by
  have sameCount : (fun step : Step => step.kind.creates) ∘ Step.renamed rename =
      fun step => step.kind.creates := by
    funext step
    exact congrArg Option.isSome (created?_renamed step.kind)
  rw [createdAt, createdAt, createdCount, createdCount, ← List.map_take, List.countP_map,
    sameCount]

/-! ## References -/

/-- The first step with a renamed identifier is the renamed first step with the identifier. -/
theorem find?_renamed {id : String}
    (apart : ∀ other ∈ steps, rename other.id = rename id → other.id = id) :
    (steps.map (Step.renamed rename)).find? (fun step => step.id == rename id) =
      (steps.find? fun step => step.id == id).map (.renamed rename) := by
  rw [List.find?_map]
  congr 1
  apply List.find?_congr
  intro other isStep
  rw [Function.comp_apply, Bool.eq_iff_iff, beq_iff_eq, beq_iff_eq]
  exact ⟨apart other isStep, fun same => congrArg rename same⟩

/-- What an identifier stands for is what the renamed one stands for. -/
theorem target?_renamed {pageId : Option String}
    (apart : ∀ id ∈ pageId, ∀ other ∈ steps, rename other.id = rename id → other.id = id) :
    target? (steps.map (.renamed rename)) (pageId.map rename) = target? steps pageId := by
  cases pageId with
  | none => rfl
  | some id =>
      rw [Option.map_some, target?, target?, Option.bind_some, Option.bind_some,
        find?_renamed (apart id rfl), Option.bind_map]
      congr 1
      funext step
      exact created?_renamed step.kind

/-! ## Blocks -/

theorem pageSelection_renamed {selection : PageSelection}
    (apart : ∀ id ∈ selection.pageId, ∀ other ∈ steps,
      rename other.id = rename id → other.id = id)
    (role : PageRole) (created? : Option CreatedContent) :
    pageSelection (steps.map (.renamed rename)) position role created?
        (selection.renamed rename) =
      pageSelection steps position role created? selection := by
  have sameTarget : target? (steps.map (.renamed rename)) (selection.renamed rename).pageId =
      target? steps selection.pageId := target?_renamed apart
  unfold pageSelection
  rw [createdAt_renamed, sameTarget]
  rfl

theorem menuItem_renamed {item : MenuItem}
    (apart : ∀ id ∈ item.pageId, ∀ other ∈ steps, rename other.id = rename id → other.id = id)
    (menu : String) :
    menuItem (steps.map (.renamed rename)) menu (item.renamed rename) =
      menuItem steps menu item := by
  have sameTarget : target? (steps.map (.renamed rename)) (item.renamed rename).pageId =
      target? steps item.pageId := target?_renamed apart
  rw [menuItem, menuItem, sameTarget]
  rfl

theorem menuCommands_renamed {menu : Menu}
    (apart : ∀ id ∈ menu.items.filterMap MenuItem.pageId, ∀ other ∈ steps,
      rename other.id = rename id → other.id = id) :
    menuCommands (steps.map (.renamed rename)) (menu.renamed rename) =
      menuCommands steps menu := by
  have sameItems : (menu.items.map (MenuItem.renamed rename)).flatMap
      (menuItem (steps.map (Step.renamed rename)) (clean menu.name)) =
        menu.items.flatMap (menuItem steps (clean menu.name)) := by
    rw [List.flatMap_map]
    apply List.flatMap_congr
    intro item inMenu
    apply menuItem_renamed
    exact fun id hasId => apart id (List.mem_filterMap.mpr ⟨item, inMenu, hasId⟩)
  rw [menuCommands, menuCommands]
  simp only [Menu.renamed, sameItems, List.isEmpty_map]

/-- A step of a renamed plan has the block that it has in the plan. -/
theorem block_renamed (settings : Settings) {kind : StepKind}
    (apart : ∀ id ∈ kind.references, ∀ other ∈ steps,
      rename other.id = rename id → other.id = id) :
    block settings (steps.map (.renamed rename)) position (kind.renamed rename) =
      block settings steps position kind := by
  cases kind with
  | setHomepage selection =>
      exact pageSelection_renamed (fun id hasId => apart id (Option.mem_toList.mpr hasId)) _ _
  | setPostsPage selection =>
      exact pageSelection_renamed (fun id hasId => apart id (Option.mem_toList.mpr hasId)) _ _
  | createMenu menu => exact congrArg (List.map Command.instruction) (menuCommands_renamed apart)
  | _ => rfl

theorem blocks_renamed (settings : Settings) (keeps : KeepsReferences rename steps) :
    blocks settings (steps.map (.renamed rename)) = blocks settings steps := by
  rw [blocks, blocks, List.zipIdx_map, List.map_map]
  apply List.map_congr_left
  rintro ⟨step, position⟩ isPlace
  exact block_renamed settings (keeps step (List.fst_mem_of_mem_zipIdx isPlace))

/-! ## Scripts -/

theorem landingOf_renamed (plan : Plan) : landingOf (plan.renamed rename) = landingOf plan := by
  have sameLanding : landingOf? ∘ Step.renamed rename = landingOf? := by
    funext step
    obtain ⟨id, kind⟩ := step
    cases kind <;> rfl
  rw [landingOf, landingOf, Plan.renamed, List.findSome?_map, sameLanding]

/-- A renamed plan compiles to the same script. -/
theorem compile_renamed (settings : Settings) {plan : Plan}
    (keeps : KeepsReferences rename plan.steps) :
    (plan.renamed rename).compile settings = plan.compile settings := by
  rw [Plan.compile, Plan.compile, landingOf_renamed, Plan.renamed, blocks_renamed settings keeps]

end Compile

end SiteScript

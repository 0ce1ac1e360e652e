import SiteScript.Proofs.Recovery.Losses
import SiteScript.Proofs.Recovery.MenuRequests
import SiteScript.Proofs.Recovery.Setups

/-!
# Menus left alone

Only the command that makes a menu brings one, and only the commands for items and the one that
puts a menu in its place change one that is there.  What other steps emit leaves the menus as they
are, whatever it is taken for when it is read.
-/

namespace SiteScript

/-- The menu that a step makes. -/
def StepKind.menu? : StepKind → Option Menu
  | .createMenu menu => some menu
  | _ => none

namespace Recovery

open Compile (Emits menuSetup menuSetups)

variable {ids : Ids} {entries : List Entry} {place : Nat} {steps later : List Step}

/-! ## Menus -/

/-- The menus that steps make, in order. -/
def menus (steps : List Step) : List Menu :=
  steps.filterMap fun step => step.kind.menu?

theorem menus_append (first second : List Step) :
    menus (first ++ second) = menus first ++ menus second :=
  List.filterMap_append

theorem menus_singleton (id : String) (menu : Menu) : menus [menuStep id menu] = [menu] :=
  rfl

theorem menu?_draft (draft : Draft) : draft.kind.menu? = none := by
  obtain ⟨type, details⟩ := draft
  cases type <;> rfl

/-- The menus alone tell how they are set up. -/
theorem menuSetups_eq_flatMap_menus (steps : List Step) :
    menuSetups steps = (menus steps).flatMap fun menu => menuSetup (.createMenu menu) := by
  rw [menuSetups, menus, List.filterMap_eq_flatMap_toList, List.flatMap_assoc]
  apply List.flatMap_congr
  intro step _
  cases step.kind with
  | createMenu menu => exact (List.flatMap_singleton _ _).symm
  | _ => rfl

/-! ## Demands -/

/-- Whether a demand makes a menu or changes one that is there. -/
def Demand.concernsMenu : Demand → Bool
  | .add kinds => kinds.any fun kind => kind.menu?.isSome
  | .addItem _ _ => true
  | .assignMenu _ _ => true
  | _ => false

theorem not_concernsMenu_add {kinds : List StepKind}
    (areOther : ∀ menu, StepKind.createMenu menu ∉ kinds) :
    (Demand.add kinds).concernsMenu = false := by
  rw [Demand.concernsMenu, List.any_eq_false]
  intro kind isAdded
  cases kind with
  | createMenu menu => exact absurd isAdded (areOther menu)
  | _ => exact Bool.false_ne_true

/-- An instruction that makes and changes no menu. -/
def LeavesMenus (instruction : Instruction) : Prop :=
  ∀ demand, instruction.demand = .ok demand → demand.concernsMenu = false

/-- The menus stay when a demand is met that concerns none. -/
theorem Change.menus_eq {demand : Demand} (change : Change ids steps demand later)
    (leaves : demand.concernsMenu = false) : menus later = menus steps := by
  cases change with
  | add _ kinds =>
      obtain ⟨added, isAppended, rfl⟩ := exists_pushAll_append ids steps kinds
      have makesNone : menus added = [] := by
        apply List.filterMap_eq_nil_iff.mpr
        intro step isAdded
        have noMenu := List.any_eq_false.mp leaves step.kind (List.mem_map_of_mem isAdded)
        simpa using noMenu
      rw [isAppended, menus_append, makesNone, List.append_nil]
  | attachImage before after id url draft =>
      simp only [menus, List.filterMap_append, List.filterMap_cons, menu?_draft]
  | addItem | assignMenu => cases leaves
  | nothing => rfl

/-! ## Instructions -/

/-- An instruction leaves menus alone that brings no item and sets up no menu. -/
theorem leavesMenus_of_yield {instruction : Instruction} (noItem : instruction.yield ≠ .item)
    (noSetup : instruction.setsUpMenu = false) : LeavesMenus instruction := by
  intro demand asks
  have asksEntry : (Entry.known instruction).demand = .ok demand := asks
  rcases exists_request_or_addsNoMenu asksEntry with
    ⟨line, request, isCommand, asked, asksFor⟩ | ⟨kinds, rfl, areOther⟩
  · cases isCommand
    rw [Instruction.setsUpMenu, asked] at noSetup
    cases demand with
    | add kinds =>
        refine not_concernsMenu_add fun menu isAdded => ?_
        obtain ⟨name, rfl, -⟩ := exists_of_demand_makes asksFor isAdded
        cases noSetup
    | addItem menu lead => exact absurd (brings_of_instruction asks).yield_eq.symm noItem
    | assignMenu menu location =>
        rw [eq_assignMenu_of_demand asksFor] at noSetup
        cases noSetup
    | attachImage | nothing => rfl
  · exact not_concernsMenu_add areOther

theorem yield_run_ne_item {program : Php.Program} (effect : Option Effect)
    (noRole : program.addsRole = false) (does : effect? program = effect)
    (noItem : effect ≠ some .addMenuItem) :
    (Command.run program).instruction.yield ≠ .item := by
  rw [yield_instruction, Command.request, Request.yield, ofCode?_source program noRole, does]
  cases effect with
  | none =>
      intro isItem
      cases isItem
  | some effect =>
      cases effect with
      | addMenuItem => exact absurd rfl noItem
      | insertPost | attachImage =>
          intro isItem
          cases isItem

theorem yield_createContent_ne_item (created : CreatedContent) (body status : String) :
    (Compile.createContent created body status).instruction.yield ≠ .item := by
  rw [Compile.createContent_eq]
  split
  · exact yield_run_ne_item (some .insertPost) rfl rfl (by decide)
  · rw [yield_instruction]
    intro isItem
    cases isItem

/-! ## Steps and scripts -/

/-- A program that adds a role leaves menus alone, whatever it is taken for. -/
theorem leavesMenus_addRole (name : String) (capabilities : List String) :
    LeavesMenus (Command.run (.addRole name capabilities)).instruction := by
  intro demand asks
  rcases demand_addRole name capabilities with ⟨-, asksNothing⟩ | ⟨-, reason, fails⟩
  · rw [asksNothing] at asks
    cases asks
    rfl
  · rw [fails] at asks
    cases asks

/-- Only steps that make menus emit instructions that make or change menus. -/
theorem leavesMenus_of_emits {settings : Settings} {plan : List Step} {position : Nat}
    {kind : StepKind} (noMenu : ∀ menu, kind ≠ .createMenu menu) {instruction : Instruction}
    (emits : Emits settings plan position kind instruction) : LeavesMenus instruction := by
  have noSetup := Compile.not_setsUpMenu_of_emits noMenu emits
  cases emits with
  | addRole role => exact leavesMenus_addRole _ _
  | createContent isContent titled =>
      exact leavesMenus_of_yield (yield_createContent_ne_item _ _ _) noSetup
  | createPage isSelection creates titled =>
      exact leavesMenus_of_yield (yield_createContent_ne_item _ _ _) noSetup
  | importImage isContent hasImage =>
      refine leavesMenus_of_yield ?_ noSetup
      rw [yield_instruction]
      intro isItem
      cases isItem
  | attachImage isContent =>
      exact leavesMenus_of_yield (yield_run_ne_item (some .attachImage) rfl rfl (by decide)) noSetup
  | @select kind role selection target isSelection isTarget =>
      refine leavesMenus_of_yield ?_ noSetup
      cases role <;> exact yield_run_ne_item none rfl rfl (by decide)
  | @pin kind role selection isSelection =>
      refine leavesMenus_of_yield ?_ noSetup
      rw [Compile.pin_eq]
      intro isItem
      cases isItem
  | createMenu menu => exact absurd rfl (noMenu menu)
  | addPageItem menu => exact absurd rfl (noMenu menu)
  | addCustomItem menu => exact absurd rfl (noMenu menu)
  | assignMenu menu => exact absurd rfl (noMenu menu)
  | installPlugin | installTheme | setSiteOption | defineConstants | login | importContent =>
      refine leavesMenus_of_yield ?_ noSetup
      intro isItem
      cases isItem

theorem leavesMenus_of_mem_preamble {settings : Settings} {title : String}
    {instruction : Instruction} (member : instruction ∈ Compile.preamble settings title) :
    LeavesMenus instruction := by
  have noSetup := Compile.not_setsUpMenu_of_mem_preamble member
  refine leavesMenus_of_yield (fun isItem => ?_) noSetup
  rw [Compile.preamble, Compile.titleOption] at member
  split at member
  · rw [List.nil_append, List.mem_singleton] at member
    rw [member] at isItem
    cases isItem
  · rw [List.singleton_append, List.mem_cons, List.mem_singleton] at member
    rcases member with rfl | rfl <;> cases isItem

/-- Instructions that leave menus alone leave the menus as they are. -/
theorem menus_stepsAfter {instructions : List Instruction}
    (stand : StandAt entries place instructions)
    (leave : ∀ instruction ∈ instructions, LeavesMenus instruction) :
    menus (stepsAfter ids entries (place + instructions.length)) =
      menus (stepsAfter ids entries place) := by
  induction instructions generalizing place with
  | nil => rfl
  | cons instruction rest inductionHypothesis =>
      obtain ⟨leaves, restLeave⟩ := List.forall_mem_cons.mp leave
      have afterFirst : menus (stepsAfter ids entries (place + 1)) =
          menus (stepsAfter ids entries place) := by
        rw [stepsAfter_succ stand.head]
        split
        · rename_i later reads
          obtain ⟨demand, asks, change⟩ := exists_change_of_readEntry reads
          exact change.menus_eq (leaves demand asks)
        · rfl
      rw [← afterFirst, ← inductionHypothesis stand.tail restLeave, List.length_cons,
        Nat.add_assoc, Nat.add_comm 1]

end Recovery

end SiteScript

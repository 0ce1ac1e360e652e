import SiteScript.Proofs.Recovery.Menus

/-!
# Commands that set up menus

Around the commands for its items, a menu has one that makes it and one that puts it in its place.
Of all that a script does these two look like themselves only, so the ones in the script of a plan
are those of the menus in the plan that have a name and an item.
-/

namespace SiteScript

open Recovery
open Text (clean cleanOrEmpty)

/-- Whether an instruction is a command that makes a menu or puts one in its place. -/
def Instruction.setsUpMenu : Instruction → Bool
  | .command line =>
    match Request.ofWords? (Shell.split line) with
    | some (.createMenu _) => true
    | some (.assignMenu _ _) => true
    | _ => false
  | _ => false

namespace Compile

variable {settings : Settings} {steps : List Step} {position : Nat} {kind : StepKind}

/-- The commands that set up the menu of a step. -/
def menuSetup : StepKind → List Instruction
  | .createMenu menu =>
    if (clean menu.name).isEmpty || menu.items.isEmpty then []
    else
      (.createMenu (clean menu.name) ::
        menuLocation (clean menu.name) (cleanOrEmpty menu.location)).map Command.instruction
  | _ => []

/-- The commands that set up the menus of steps, in order. -/
def menuSetups (steps : List Step) : List Instruction :=
  steps.flatMap fun step => menuSetup step.kind

theorem menuSetups_append (first second : List Step) :
    menuSetups (first ++ second) = menuSetups first ++ menuSetups second :=
  List.flatMap_append

theorem menuSetups_cons (step : Step) (rest : List Step) :
    menuSetups (step :: rest) = menuSetup step.kind ++ menuSetups rest :=
  rfl

theorem menuSetups_singleton (step : Step) : menuSetups [step] = menuSetup step.kind :=
  List.flatMap_singleton _ _

theorem setsUpMenu_command (command : Command) :
    command.instruction.setsUpMenu =
      match command.request with
      | .createMenu _ => true
      | .assignMenu _ _ => true
      | _ => false := by
  rw [Command.instruction, Instruction.setsUpMenu, Command.split_line,
    Command.ofWords?_arguments]
  cases command <;> rfl

theorem setsUpMenu_createContent (created : CreatedContent) (body status : String) :
    (createContent created body status).instruction.setsUpMenu = false := by
  rw [createContent_eq]
  split <;> exact setsUpMenu_command _

/-- Only steps that make menus emit commands that set them up. -/
theorem not_setsUpMenu_of_emits (noMenu : ∀ menu, kind ≠ .createMenu menu)
    {instruction : Instruction} (emits : Emits settings steps position kind instruction) :
    instruction.setsUpMenu = false := by
  cases emits with
  | createContent isContent titled => exact setsUpMenu_createContent _ _ _
  | createPage isSelection creates titled => exact setsUpMenu_createContent _ _ _
  | @pin kind role selection isSelection =>
      rw [pin_eq]
      rfl
  | createMenu menu => exact absurd rfl (noMenu menu)
  | addPageItem menu => exact absurd rfl (noMenu menu)
  | addCustomItem menu => exact absurd rfl (noMenu menu)
  | assignMenu menu => exact absurd rfl (noMenu menu)
  | installPlugin | installTheme | setSiteOption | defineConstants | login | importContent => rfl
  | importImage | attachImage | select | addRole => exact setsUpMenu_command _

/-- The commands for items of a menu do not set it up. -/
theorem not_setsUpMenu_of_mem_menuItem {menu : String} {item : MenuItem} {command : Command}
    (isCommand : command ∈ menuItem steps menu item) :
    command.instruction.setsUpMenu = false := by
  rw [menuItem] at isCommand
  split at isCommand
  · split at isCommand
    · cases isCommand
    · rw [List.mem_singleton.mp isCommand]
      exact setsUpMenu_command _
  · split at isCommand
    · cases isCommand
    · rw [List.mem_singleton.mp isCommand]
      exact setsUpMenu_command _

theorem setsUpMenu_of_mem_setup {menu location : String} {command : Command}
    (isCommand : command ∈ .createMenu menu :: menuLocation menu location) :
    command.instruction.setsUpMenu = true := by
  rw [menuLocation] at isCommand
  rcases List.mem_cons.mp isCommand with rfl | isLocation
  · exact setsUpMenu_command _
  · split at isLocation
    · cases isLocation
    · rw [List.mem_singleton.mp isLocation]
      exact setsUpMenu_command _

/-- The setup commands of the menu of a step are those in its block. -/
theorem filter_block_setsUpMenu (settings : Settings) (steps : List Step) (position : Nat)
    (kind : StepKind) :
    (block settings steps position kind).filter Instruction.setsUpMenu = menuSetup kind := by
  by_cases isMenu : ∃ menu, kind = .createMenu menu
  · obtain ⟨menu, rfl⟩ := isMenu
    by_cases incomplete : ((clean menu.name).isEmpty || menu.items.isEmpty) = true
    · rw [block, menuCommands, menuSetup, if_pos incomplete, if_pos incomplete]
      rfl
    · have noItemSetsUp : ((menu.items.flatMap (menuItem steps (clean menu.name))).map
          Command.instruction).filter Instruction.setsUpMenu = [] := by
        rw [List.filter_eq_nil_iff]
        intro instruction member
        obtain ⟨command, isCommand, rfl⟩ := List.mem_map.mp member
        obtain ⟨item, -, ofItem⟩ := List.mem_flatMap.mp isCommand
        rw [not_setsUpMenu_of_mem_menuItem ofItem]
        exact Bool.false_ne_true
      have setUp : ∀ instruction ∈ (.createMenu (clean menu.name) ::
          menuLocation (clean menu.name) (cleanOrEmpty menu.location)).map Command.instruction,
            instruction.setsUpMenu = true :=
        List.forall_mem_map.mpr fun command => setsUpMenu_of_mem_setup
      rw [List.map_cons, List.forall_mem_cons] at setUp
      rw [block, menuCommands, menuSetup, if_neg incomplete, if_neg incomplete, List.map_append,
        List.map_cons, List.filter_append, List.filter_cons_of_pos setUp.1, noItemSetsUp,
        List.filter_eq_self.mpr setUp.2]
      rfl
  · have setsUpNone : (block settings steps position kind).filter Instruction.setsUpMenu = [] := by
      rw [List.filter_eq_nil_iff]
      intro instruction member
      have noMenu : ∀ menu, kind ≠ .createMenu menu := fun menu equal => isMenu ⟨menu, equal⟩
      rw [not_setsUpMenu_of_emits noMenu (emits_of_mem_block member)]
      exact Bool.false_ne_true
    rw [setsUpNone]
    cases kind with
    | createMenu menu => exact absurd ⟨menu, rfl⟩ isMenu
    | _ => rfl

theorem filter_preamble_setsUpMenu (settings : Settings) (title : String) :
    (preamble settings title).filter Instruction.setsUpMenu = [] := by
  rw [preamble, titleOption]
  split <;> rfl

theorem not_setsUpMenu_of_mem_preamble {title : String} {instruction : Instruction}
    (member : instruction ∈ preamble settings title) : instruction.setsUpMenu = false := by
  by_contra setsUp
  rw [Bool.not_eq_false] at setsUp
  have inFilter := List.mem_filter.mpr ⟨member, setsUp⟩
  rw [filter_preamble_setsUpMenu] at inFilter
  cases inFilter

/-- The setup commands of the menus of a plan are those in its script. -/
theorem filter_instructions_setsUpMenu (settings : Settings) (plan : Plan) :
    (plan.compile settings).instructions.filter Instruction.setsUpMenu = menuSetups plan.steps := by
  have ofBlocks : ∀ position (part : List Step),
      (blocksFrom settings plan.steps position part).filter Instruction.setsUpMenu =
        menuSetups part := by
    intro position part
    induction part generalizing position with
    | nil => rfl
    | cons step rest inductionHypothesis =>
        rw [blocksFrom_cons, List.filter_append, filter_block_setsUpMenu, inductionHypothesis,
          menuSetups_cons]
  rw [instructions_compile, List.filter_append, filter_preamble_setsUpMenu, List.nil_append,
    ofBlocks]

end Compile

end SiteScript

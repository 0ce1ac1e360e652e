import SiteScript.Proofs.Recovery.Menus

/-!
# Commands that attach content to menus

Of all that the script of a plan does, only the commands for menu items that lead to pages look
like one that adds content to a menu, apart from the programs that add roles.  If all such items
lead to content, there is one such command for each of them.
-/

namespace SiteScript

open Recovery
open Text (clean)

/-- Whether an instruction is a command whose program adds content to a menu. -/
def Instruction.attachesContent : Instruction → Bool
  | .command line =>
    match Request.ofWords? (Shell.split line) with
    | some (.run code) => Effect.ofCode? code == some .addMenuItem
    | _ => false
  | _ => false

namespace Compile

variable {settings : Settings} {steps : List Step}

/-- The items that lead to pages, each with its menu, of a step. -/
def pageItemsOf : StepKind → List (Menu × MenuItem)
  | .createMenu menu => (menu.items.filter fun item => item.kind == .page).map (menu, ·)
  | _ => []

/-- The items that lead to pages, each with its menu. -/
def pageItems (steps : List Step) : List (Menu × MenuItem) :=
  steps.flatMap fun step => pageItemsOf step.kind

/-- The command that adds content to a menu, as an instruction. -/
def attachment (menu : String) (target : CreatedContent) : Instruction :=
  (Command.run (.addMenuItem menu target)).instruction

/-- The command that adds an item to its menu, if the item leads to content. -/
def attachment? (steps : List Step) (pageItem : Menu × MenuItem) : Option Instruction :=
  (target? steps pageItem.2.pageId).map (attachment (clean pageItem.1.name))

theorem attachesContent_command (command : Command) :
    command.instruction.attachesContent =
      match command.request with
      | .run code => Effect.ofCode? code == some .addMenuItem
      | _ => false := by
  rw [Command.instruction, Instruction.attachesContent, Command.split_line,
    Command.ofWords?_arguments]
  cases command <;> rfl

theorem attachesContent_run {program : Php.Program} (noRole : program.addsRole = false) :
    (Command.run program).instruction.attachesContent =
      (effect? program == some .addMenuItem) := by
  rw [attachesContent_command]
  simp only [Command.request, ofCode?_source program noRole]

/-- Only steps that make menus emit commands that add content to them, apart from steps that
add roles, whose programs may look like anything. -/
theorem not_attachesContent_of_emits {position : Nat} {kind : StepKind}
    (noMenu : ∀ menu, kind ≠ .createMenu menu) (noRole : ∀ role, kind ≠ .addRole role)
    {instruction : Instruction} (emits : Emits settings steps position kind instruction) :
    instruction.attachesContent = false := by
  cases emits with
  | @createContent kind type details created isContent titled =>
      rw [createContent_eq]
      split
      · exact attachesContent_run rfl
      · exact attachesContent_command _
  | importImage isContent hasImage => exact attachesContent_command _
  | attachImage isContent => exact attachesContent_run rfl
  | createPage isSelection creates titled =>
      rw [createContent_eq]
      split
      · exact attachesContent_run rfl
      · exact attachesContent_command _
  | @pin kind role selection isSelection =>
      rw [pin_eq]
      rfl
  | @select kind role selection target isSelection isTarget =>
      have isSelect : (role.select target).addsRole = false ∧ effect? (role.select target) = none :=
        by cases role <;> exact ⟨rfl, rfl⟩
      rw [attachesContent_run isSelect.1, isSelect.2]
      rfl
  | installPlugin | installTheme | setSiteOption | defineConstants | login | importContent => rfl
  | addRole role => exact absurd rfl (noRole role)
  | createMenu menu => exact absurd rfl (noMenu menu)
  | addPageItem menu => exact absurd rfl (noMenu menu)
  | addCustomItem menu => exact absurd rfl (noMenu menu)
  | assignMenu menu => exact absurd rfl (noMenu menu)

/-- The commands for items that lead to pages are those that add content. -/
theorem filter_menuItem (menu : Menu) {item : MenuItem}
    (leads : item.kind = .page → (target? steps item.pageId).isSome) :
    ((((menuItem steps (clean menu.name) item).map Command.instruction).filter
      Instruction.attachesContent).map some) =
        (if item.kind == .page then [attachment? steps (menu, item)] else []) := by
  rw [menuItem]
  cases isKind : item.kind with
  | page =>
      obtain ⟨target, isTarget⟩ := Option.isSome_iff_exists.mp (leads isKind)
      have attaches : (attachment (clean menu.name) target).attachesContent = true :=
        attachesContent_run rfl
      rw [attachment] at attaches
      simp only [isTarget, List.map_cons, List.map_nil, List.filter_cons_of_pos attaches,
        List.filter_nil, attachment?, Option.map_some]
      rfl
  | custom =>
      simp only
      split
      · rfl
      · have notAttaches : (Command.addMenuItem (clean menu.name) (clean item.title)
            (clean item.url)).instruction.attachesContent = false := attachesContent_command _
        rw [List.map_singleton, List.filter_cons_of_neg (by rw [notAttaches]; exact Bool.false_ne_true)]
        rfl

/-- The commands for the items of a menu that lead to pages are those that add content. -/
theorem filter_menuItems (menu : Menu) {items : List MenuItem}
    (lead : ∀ item ∈ items, item.kind = .page → (target? steps item.pageId).isSome) :
    ((((items.flatMap (menuItem steps (clean menu.name))).map Command.instruction).filter
      Instruction.attachesContent).map some) =
        ((items.filter fun item => item.kind == .page).map (menu, ·)).map (attachment? steps) := by
  induction items with
  | nil => rfl
  | cons item rest inductionHypothesis =>
      obtain ⟨leads, restLead⟩ := List.forall_mem_cons.mp lead
      rw [List.flatMap_cons, List.map_append, List.filter_append, List.map_append,
        filter_menuItem menu leads, inductionHypothesis restLead, List.filter_cons]
      split <;> rfl

/-- In the block of a menu, the commands for items that lead to pages are those that add
content. -/
theorem filter_menuCommands {menu : Menu} (notEmpty : clean menu.name ≠ "")
    (lead : ∀ item ∈ menu.items, item.kind = .page → (target? steps item.pageId).isSome) :
    ((((menuCommands steps menu).map Command.instruction).filter
      Instruction.attachesContent).map some) =
        (pageItemsOf (.createMenu menu)).map (attachment? steps) := by
  have notCreate : (Command.createMenu (clean menu.name)).instruction.attachesContent = false :=
    attachesContent_command _
  have notLocation : (((menuLocation (clean menu.name) (Text.cleanOrEmpty menu.location)).map
      Command.instruction).filter Instruction.attachesContent) = [] := by
    rw [menuLocation]
    split
    · rfl
    · have notAssign : (Command.assignMenu (clean menu.name)
          (Text.cleanOrEmpty menu.location)).instruction.attachesContent = false :=
        attachesContent_command _
      rw [List.map_singleton, List.filter_cons_of_neg (by rw [notAssign]; exact Bool.false_ne_true)]
      rfl
  by_cases hasItems : menu.items = []
  · rw [menuCommands, if_pos (by simp [hasItems]), pageItemsOf, hasItems]
    rfl
  · rw [menuCommands_eq steps notEmpty hasItems, List.map_cons,
      List.filter_cons_of_neg (by rw [notCreate]; exact Bool.false_ne_true), List.map_append,
      List.filter_append, notLocation, List.append_nil, filter_menuItems menu lead, pageItemsOf]

/-- In the blocks of steps none of which adds a role, and whose menus have names and lead to
content, the commands for items that lead to pages are those that add content. -/
theorem filter_blocksFrom {part : List Step} (position : Nat)
    (noRoles : ∀ step ∈ part, ∀ role, step.kind ≠ .addRole role)
    (named : ∀ step ∈ part, ∀ menu, step.kind = .createMenu menu → clean menu.name ≠ "")
    (lead : ∀ step ∈ part, ∀ menu, step.kind = .createMenu menu → ∀ item ∈ menu.items,
      item.kind = .page → (target? steps item.pageId).isSome) :
    ((blocksFrom settings steps position part).filter Instruction.attachesContent).map some =
      (pageItems part).map (attachment? steps) := by
  induction part generalizing position with
  | nil => rfl
  | cons step rest inductionHypothesis =>
      obtain ⟨noRole, restNoRoles⟩ := List.forall_mem_cons.mp noRoles
      obtain ⟨stepNamed, restNamed⟩ := List.forall_mem_cons.mp named
      obtain ⟨stepLeads, restLead⟩ := List.forall_mem_cons.mp lead
      have ofBlock : ((block settings steps position step.kind).filter
          Instruction.attachesContent).map some =
            (pageItemsOf step.kind).map (attachment? steps) := by
        by_cases isMenu : ∃ menu, step.kind = .createMenu menu
        · obtain ⟨menu, isMenu⟩ := isMenu
          rw [isMenu, block]
          exact filter_menuCommands (stepNamed menu isMenu) (stepLeads menu isMenu)
        · have noMenu : ∀ menu, step.kind ≠ .createMenu menu :=
            fun menu equal => isMenu ⟨menu, equal⟩
          have attachesNone : (block settings steps position step.kind).filter
              Instruction.attachesContent = [] := by
            rw [List.filter_eq_nil_iff]
            intro instruction member
            rw [not_attachesContent_of_emits noMenu noRole (emits_of_mem_block member)]
            exact Bool.false_ne_true
          have noItems : pageItemsOf step.kind = [] := by
            cases isKind : step.kind with
            | createMenu menu => exact absurd isKind (noMenu menu)
            | _ => rfl
          rw [attachesNone, noItems]
          rfl
      rw [blocksFrom_cons, List.filter_append, List.map_append, ofBlock,
        inductionHypothesis (position + 1) restNoRoles restNamed restLead, pageItems, pageItems,
        List.flatMap_cons, List.map_append]

end Compile

end SiteScript

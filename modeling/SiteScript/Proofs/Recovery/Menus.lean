import Mathlib.Data.List.Basic
import SiteScript.Proofs.Compile.Dependence
import SiteScript.Proofs.Recovery.Returning

/-!
# Menus that return

The items of a menu are recovered one after the other, each from its own command.  An item
that leads to a page is told by the title of that page, and then refers to the first step
that makes a page of that title, which need not be the step it referred to before.
-/

namespace SiteScript.Recovery

open Compile (menuItem menuLocation menuCommands target?)
open Text (clean cleanOrEmpty)

/-- The menu with several more items. -/
def addItems (items : List MenuItem) (menu : Menu) : Menu :=
  { menu with items := menu.items ++ items }

@[simp]
theorem addItems_nil (menu : Menu) : addItems [] menu = menu := by
  rw [addItems, List.append_nil]

@[simp]
theorem addItems_addItems (first second : List MenuItem) (menu : Menu) :
    addItems second (addItems first menu) = addItems (first ++ second) menu := by
  rw [addItems, addItems, addItems, List.append_assoc]

/-- The content of a page of a plan is made by the first recovered step that makes content
of its title. -/
def IsFound (steps : List Step) (target : CreatedContent) : Prop :=
  ∃ page, steps.find? (createsTitled target.title) = some page ∧
    page.kind.created? = some target

/-- What is recovered from the command for an item of a menu; there may be none. -/
def returnedItem? (plan steps : List Step) (item : MenuItem) : Option MenuItem :=
  match item.kind with
  | .page =>
    (target? plan item.pageId).map fun target =>
      { kind := .page
        pageId := (steps.find? (createsTitled target.title)).map Step.id
        title := ""
        url := "" }
  | .custom =>
    if (clean item.title).isEmpty || (clean item.url).isEmpty then none
    else some { kind := .custom, pageId := none, title := clean item.title, url := clean item.url }

section

variable {ids : Ids} {plan steps : List Step}

/-- Every page to which an item of a menu leads is found. -/
def FindsPages (plan steps : List Step) (item : MenuItem) : Prop :=
  item.kind = .page → ∀ target, target? plan item.pageId = some target →
    clean target.title = target.title ∧ IsFound steps target

/-! ## Reading items -/

/-- The command for an item adds what is recovered from it. -/
theorem foldlM_menuItem {id : String} {menu : Menu} (nameClean : clean menu.name = menu.name)
    {item : MenuItem} (finds : FindsPages plan steps item) :
    ((menuItem plan menu.name item).map Command.instruction).foldlM (readInstruction ids)
      (steps ++ [menuStep id menu]) =
        .ok (steps ++ [menuStep id (addItems (returnedItem? plan steps item).toList menu)]) := by
  unfold menuItem returnedItem?
  cases isKind : item.kind with
  | page =>
      cases isTarget : target? plan item.pageId with
      | none =>
          rw [Option.map_none, Option.toList_none, addItems_nil]
          rfl
      | some target =>
          obtain ⟨titleClean, page, isPage, -⟩ := finds isKind target isTarget
          have read := readInstruction_addPageItem ids steps id nameClean titleClean isPage
          simp only [List.map_cons, List.map_nil, List.foldlM_cons, List.foldlM_nil, read,
            isPage, Option.map_some, Option.toList_some]
          rfl
  | custom =>
      simp only
      split
      · rw [Option.toList_none, addItems_nil]
        rfl
      · have read := readInstruction_addMenuItem ids steps id nameClean (clean item.title)
          (clean item.url)
        simp only [List.map_cons, List.map_nil, List.foldlM_cons, List.foldlM_nil, read,
          Option.toList_some]
        rfl

/-- The commands for the items of a menu add to it what is recovered from them. -/
theorem foldlM_menuItems {id : String} (menu : Menu) (nameClean : clean menu.name = menu.name)
    {items : List MenuItem} (finds : ∀ item ∈ items, FindsPages plan steps item) :
    ((items.flatMap (menuItem plan menu.name)).map Command.instruction).foldlM
      (readInstruction ids) (steps ++ [menuStep id menu]) =
        .ok (steps ++ [menuStep id
          (addItems (items.filterMap (returnedItem? plan steps)) menu)]) := by
  induction items generalizing menu with
  | nil =>
      rw [List.filterMap_nil, addItems_nil]
      rfl
  | cons item rest inductionHypothesis =>
      obtain ⟨findsItem, findsRest⟩ := List.forall_mem_cons.mp finds
      have readRest : ((rest.flatMap (menuItem plan menu.name)).map
          Command.instruction).foldlM (readInstruction ids)
            (steps ++ [menuStep id (addItems (returnedItem? plan steps item).toList menu)]) =
              .ok (steps ++ [menuStep id (addItems (rest.filterMap (returnedItem? plan steps))
                (addItems (returnedItem? plan steps item).toList menu))]) :=
        inductionHypothesis _ nameClean findsRest
      rw [addItems_addItems] at readRest
      rw [List.flatMap_cons, List.map_append, List.foldlM_append,
        foldlM_menuItem nameClean findsItem]
      refine readRest.trans ?_
      cases returned : returnedItem? plan steps item with
      | none => rw [List.filterMap_cons_none returned]; rfl
      | some later => rw [List.filterMap_cons_some returned]; rfl

/-! ## Emitting items -/

/-- What is recovered from the command for an item emits the command again, in every plan that
goes on from the recovered steps. -/
theorem menuItem_returnedItem? {later : List Step} (isPrefix : steps <+: later)
    (nodup : (later.map Step.id).Nodup) (menu : String) {item : MenuItem}
    (finds : FindsPages plan steps item) :
    (returnedItem? plan steps item).toList.flatMap (menuItem later menu) =
      menuItem plan menu item := by
  unfold returnedItem? menuItem
  cases isKind : item.kind with
  | page =>
      cases isTarget : target? plan item.pageId with
      | none => rfl
      | some target =>
          obtain ⟨-, page, isPage, creates⟩ := finds isKind target isTarget
          have inLater : page ∈ later := isPrefix.mem (List.mem_of_find?_eq_some isPage)
          have isAgainTarget : target? later (some page.id) = some target := by
            rw [target?, Option.bind_some, find?_id_eq nodup inLater, Option.bind_some, creates]
          simp only [Option.map_some, Option.toList_some, isPage, List.flatMap_singleton,
            isAgainTarget]
  | custom =>
      simp only
      split
      · rfl
      · rename_i complete
        simp only [Option.toList_some, List.flatMap_singleton, Text.clean_clean]
        rw [if_neg complete]

/-- What is recovered from the commands for the items of a menu emits the commands again. -/
theorem flatMap_menuItem_filterMap {later : List Step} (isPrefix : steps <+: later)
    (nodup : (later.map Step.id).Nodup) (menu : String) {items : List MenuItem}
    (finds : ∀ item ∈ items, FindsPages plan steps item) :
    (items.filterMap (returnedItem? plan steps)).flatMap (menuItem later menu) =
      items.flatMap (menuItem plan menu) := by
  rw [List.filterMap_eq_flatMap_toList, List.flatMap_assoc]
  apply List.flatMap_congr
  intro item inItems
  exact menuItem_returnedItem? isPrefix nodup menu (finds item inItems)

/-! ## Menus -/

/-- What is recovered from the commands for a menu. -/
def returnedMenu (plan steps : List Step) (menu : Menu) : Menu :=
  { name := clean menu.name
    location := unlessEmpty (cleanOrEmpty menu.location)
    items := menu.items.filterMap (returnedItem? plan steps) }

theorem foldlM_menuLocation {id : String} (menu : Menu) (nameClean : clean menu.name = menu.name)
    (noLocation : menu.location = none) (location : String) :
    ((menuLocation menu.name location).map Command.instruction).foldlM (readInstruction ids)
      (steps ++ [menuStep id menu]) =
        .ok (steps ++ [menuStep id { menu with location := unlessEmpty location }]) := by
  rw [menuLocation, unlessEmpty]
  split
  · rw [← noLocation]
    rfl
  · rw [List.map_cons, List.foldlM_cons, readInstruction_assignMenu ids steps id nameClean]
    rfl

/-- The commands for a menu that has a name and items. -/
theorem menuCommands_eq (plan : List Step) {menu : Menu} (notEmpty : clean menu.name ≠ "")
    (hasItems : menu.items ≠ []) :
    menuCommands plan menu = .createMenu (clean menu.name) ::
      (menu.items.flatMap (menuItem plan (clean menu.name)) ++
        menuLocation (clean menu.name) (cleanOrEmpty menu.location)) := by
  have complete : ¬ ((clean menu.name).isEmpty || menu.items.isEmpty) = true := by
    simp [notEmpty, hasItems]
  rw [menuCommands, if_neg complete, List.cons_append]

/-- The commands for a menu are read as a single step. -/
theorem foldlM_menuCommands {menu : Menu} (notEmpty : clean menu.name ≠ "")
    (hasItems : menu.items ≠ []) (finds : ∀ item ∈ menu.items, FindsPages plan steps item) :
    ((menuCommands plan menu).map Command.instruction).foldlM (readInstruction ids) steps =
      .ok (push ids steps (.createMenu (returnedMenu plan steps menu))) := by
  have nameClean := Text.clean_clean menu.name
  have readItems : ((menu.items.flatMap (menuItem plan (clean menu.name))).map
      Command.instruction).foldlM (readInstruction ids)
        (steps ++ [menuStep (ids steps.length) (.named (clean menu.name))]) =
          .ok (steps ++ [menuStep (ids steps.length) (addItems
            (menu.items.filterMap (returnedItem? plan steps)) (.named (clean menu.name)))]) :=
    foldlM_menuItems (.named (clean menu.name)) nameClean finds
  have readLocation : ((menuLocation (clean menu.name) (cleanOrEmpty menu.location)).map
      Command.instruction).foldlM (readInstruction ids)
        (steps ++ [menuStep (ids steps.length) (addItems
          (menu.items.filterMap (returnedItem? plan steps)) (.named (clean menu.name)))]) =
            .ok (push ids steps (.createMenu (returnedMenu plan steps menu))) :=
    foldlM_menuLocation (addItems _ (.named (clean menu.name))) nameClean rfl _
  rw [menuCommands_eq plan notEmpty hasItems, List.map_cons, List.foldlM_cons,
    readInstruction_createMenu ids steps nameClean notEmpty, List.map_append]
  simp only [bind, Except.bind, List.foldlM_append, readItems, readLocation]

/-- What is recovered from a menu emits its commands again, in every plan that goes on from
the recovered steps. -/
theorem menuCommands_returnedMenu {later : List Step} (isPrefix : steps <+: later)
    (nodup : (later.map Step.id).Nodup) {menu : Menu} (notEmpty : clean menu.name ≠ "")
    (finds : ∀ item ∈ menu.items, FindsPages plan steps item)
    (hasItem : menu.items.flatMap (menuItem plan (clean menu.name)) ≠ []) :
    menuCommands later (returnedMenu plan steps menu) = menuCommands plan menu := by
  have hasItems : menu.items ≠ [] := by
    rintro noItems
    rw [noItems] at hasItem
    exact hasItem rfl
  have sameName : clean (returnedMenu plan steps menu).name = clean menu.name := by
    rw [returnedMenu]
    exact Text.clean_clean menu.name
  have stillNamed : clean (returnedMenu plan steps menu).name ≠ "" := by
    rw [sameName]
    exact notEmpty
  have sameItems : (returnedMenu plan steps menu).items.flatMap
      (menuItem later (clean menu.name)) = menu.items.flatMap (menuItem plan (clean menu.name)) :=
    flatMap_menuItem_filterMap isPrefix nodup _ finds
  have sameLocation : cleanOrEmpty (returnedMenu plan steps menu).location =
      cleanOrEmpty menu.location :=
    cleanOrEmpty_unlessEmpty (Compile.clean_cleanOrEmpty menu.location)
  have stillHasItems : (returnedMenu plan steps menu).items ≠ [] := by
    rintro noItems
    rw [noItems] at sameItems
    exact hasItem sameItems.symm
  rw [menuCommands_eq later stillNamed stillHasItems,
    menuCommands_eq plan notEmpty hasItems, sameName, sameItems, sameLocation]

/-- The block of a menu returns, if its pages are found and one of its items has a command. -/
theorem exists_returns_menu {settings : Settings} {menu : Menu}
    (finds : ∀ item ∈ menu.items, FindsPages plan steps item)
    (hasItem : .createMenu (clean menu.name) ∈ menuCommands plan menu →
      ∃ item ∈ menu.items, menuItem plan (clean menu.name) item ≠ []) :
    ∃ added, Returns settings ids steps ((menuCommands plan menu).map Command.instruction) []
      added := by
  by_cases incomplete : ((clean menu.name).isEmpty || menu.items.isEmpty) = true
  · rw [menuCommands, if_pos incomplete]
    exact ⟨[], .nil⟩
  · obtain ⟨notEmpty, hasItems⟩ : clean menu.name ≠ "" ∧ menu.items ≠ [] := by
      simpa using incomplete
    have emitsItem : menu.items.flatMap (menuItem plan (clean menu.name)) ≠ [] := by
      rw [menuCommands_eq plan notEmpty hasItems] at hasItem
      obtain ⟨item, inItems, emits⟩ := hasItem List.mem_cons_self
      intro noCommand
      exact emits (List.flatMap_eq_nil_iff.mp noCommand item inItems)
    apply exists_returns_step (.createMenu (returnedMenu plan steps menu)) rfl
    · intro id
      rfl
    · exact foldlM_menuCommands notEmpty hasItems finds
    · intro later isPrefix nodup position
      have fromSteps : steps <+: later := (List.prefix_append _ _).trans isPrefix
      rw [Compile.block, menuCommands_returnedMenu fromSteps nodup notEmpty finds emitsItem,
        flatMap_separate_commands]

end

end SiteScript.Recovery

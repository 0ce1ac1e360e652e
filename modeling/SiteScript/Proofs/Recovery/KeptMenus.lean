import SiteScript.Proofs.Recovery.RecoveredMenus
import SiteScript.Proofs.Recovery.Untouched

/-!
# Menus that are kept

Every menu with a name and items is recovered, and the commands that set it up are never dropped.
The items that come back are those of the commands that are not dropped, so these tell which menus
are recovered without items.  Such a menu is not set up again.
-/

namespace SiteScript

open Recovery
open Text (clean cleanOrEmpty)

/-! ## Plans -/

/-- Whether an instruction that a step at a position emits brings a menu item and is not
dropped. -/
def Plan.keepsItem (settings : Settings) (ids : Recovery.Ids) (plan : Plan) (position : Nat)
    (kind : StepKind) : Bool :=
  ((Compile.block settings plan.steps position kind).zipIdx
    (Compile.place settings plan position)).any
      (bringsItemAt ((plan.compile settings).recover ids).dropped)

/-- The menu that a step makes, if it has a name and items. -/
def StepKind.fullMenu? : StepKind → Option Menu
  | .createMenu menu =>
    if (clean menu.name).isEmpty || menu.items.isEmpty then none else some menu
  | _ => none

theorem StepKind.fullMenu?_eq_some_iff {kind : StepKind} {menu : Menu} :
    kind.fullMenu? = some menu ↔
      kind = .createMenu menu ∧ clean menu.name ≠ "" ∧ menu.items ≠ [] := by
  cases kind with
  | createMenu other =>
      simp only [StepKind.fullMenu?, Bool.or_eq_true, String.isEmpty_iff, List.isEmpty_iff,
        Option.ite_none_left_eq_some, not_or, Option.some.injEq, StepKind.createMenu.injEq]
      constructor
      · rintro ⟨isFull, rfl⟩
        exact ⟨rfl, isFull⟩
      · rintro ⟨rfl, isFull⟩
        exact ⟨isFull, rfl⟩
  | _ => simp [StepKind.fullMenu?]

/-- The menus with a name and items among the first steps of a plan, with the positions of their
steps. -/
def Plan.fullMenus (plan : Plan) (count : Nat) : List (Menu × Nat) :=
  (plan.steps.take count).zipIdx.filterMap fun place =>
    place.1.kind.fullMenu?.map fun menu => (menu, place.2)

/-- What is recovered from the menu of the step at a position. -/
structure Plan.RecoversAs (settings : Settings) (ids : Recovery.Ids) (plan : Plan)
    (listed : Menu × Nat) (recovered : Menu) : Prop where
  name_eq : recovered.name = clean listed.1.name
  location_eq : recovered.location = unlessEmpty (cleanOrEmpty listed.1.location)
  /-- It is without items exactly if the step keeps none. -/
  items_eq_nil_iff : recovered.items = [] ↔
    plan.keepsItem settings ids listed.2 (.createMenu listed.1) = false

namespace Recovery

open Compile (block menuSetup menuSetups menuSetups_append menuSetups_singleton menuLocation)

section

variable {settings : Settings} {ids : Ids} {plan : Plan} {position : Nat}

theorem standAt_block {step : Step} (isStep : plan.steps[position]? = some step) :
    StandAt (plan.compile settings).entries (Compile.place settings plan position)
      (block settings plan.steps position step.kind) :=
  fun _ _ isEmitted => Compile.getElem?_place isStep isEmitted

/-- The commands for the items of a menu. -/
def itemCommands (steps : List Step) (menu : Menu) : List Instruction :=
  (menu.items.flatMap (Compile.menuItem steps (clean menu.name))).map Command.instruction

theorem block_createMenu (settings : Settings) (steps : List Step) (position : Nat) {menu : Menu}
    (notEmpty : clean menu.name ≠ "") (hasItems : menu.items ≠ []) :
    block settings steps position (.createMenu menu) =
      (Command.createMenu (clean menu.name)).instruction :: (itemCommands steps menu ++
        (menuLocation (clean menu.name) (cleanOrEmpty menu.location)).map Command.instruction) := by
  rw [block, menuCommands_eq steps notEmpty hasItems, List.map_cons, List.map_append, itemCommands]

theorem asksForItem_of_mem_itemCommands {steps : List Step} {menu : Menu}
    {instruction : Instruction} (member : instruction ∈ itemCommands steps menu) :
    AsksForItem (clean menu.name) instruction := by
  obtain ⟨command, isCommand, rfl⟩ := List.mem_map.mp member
  obtain ⟨item, -, ofItem⟩ := List.mem_flatMap.mp isCommand
  exact asksForItem_of_mem_menuItem (Text.clean_clean menu.name) ofItem

theorem not_setsUpMenu_of_mem_itemCommands {steps : List Step} {menu : Menu}
    {instruction : Instruction} (member : instruction ∈ itemCommands steps menu) :
    instruction.setsUpMenu = false := by
  obtain ⟨command, isCommand, rfl⟩ := List.mem_map.mp member
  obtain ⟨item, -, ofItem⟩ := List.mem_flatMap.mp isCommand
  exact Compile.not_setsUpMenu_of_mem_menuItem ofItem

/-- A menu keeps an item exactly if it has one when it has been recovered. -/
theorem keepsItem_createMenu {menu recovered : Menu} (notEmpty : clean menu.name ≠ "")
    (hasItems : menu.items ≠ [])
    (isRecovered : IsRecoveredMenu ids (plan.compile settings).entries
      (Compile.place settings plan position) (clean menu.name) (cleanOrEmpty menu.location)
      (itemCommands plan.steps menu) recovered) :
    plan.keepsItem settings ids position (.createMenu menu) = !recovered.items.isEmpty := by
  have bringsNone : ∀ command ∈ Command.createMenu (clean menu.name) ::
      menuLocation (clean menu.name) (cleanOrEmpty menu.location), ∀ dropped place,
        bringsItemAt dropped (command.instruction, place) = false := by
    intro command isCommand dropped place
    rw [bringsItemAt, not_addsItem_of_setsUpMenu (Compile.setsUpMenu_of_mem_setup isCommand),
      Bool.false_and]
  obtain ⟨notMaking, notAssigning⟩ := List.forall_mem_cons.mp bringsNone
  have noneBehind : ∀ place, (((menuLocation (clean menu.name) (cleanOrEmpty menu.location)).map
      Command.instruction).zipIdx place).any
        (bringsItemAt ((plan.compile settings).recover ids).dropped) = false := by
    intro place
    rw [List.any_eq_false]
    rintro ⟨instruction, index⟩ member
    obtain ⟨command, isCommand, rfl⟩ :=
      List.mem_map.mp (List.mem_of_getElem? (List.mem_zipIdx_iff_le_and_getElem?_sub.mp member).2)
    rw [notAssigning command isCommand]
    exact Bool.false_ne_true
  rw [Plan.keepsItem, block_createMenu settings plan.steps position notEmpty hasItems,
    List.zipIdx_cons, List.any_cons, List.zipIdx_append, List.any_append, notMaking, noneBehind,
    Bool.false_or, Bool.or_false, Bool.eq_iff_iff, List.any_eq_true, ← List.countP_pos_iff,
    recover_eq, ← isRecovered.length_items, List.length_pos_iff]
  simp

/-- A step without a menu that has a name and items sets up none. -/
theorem menuSetup_eq_nil {kind : StepKind} (noMenu : kind.fullMenu? = none) :
    menuSetup kind = [] := by
  cases kind with
  | createMenu menu =>
      rw [StepKind.fullMenu?] at noMenu
      rw [menuSetup]
      split at noMenu
      · rename_i incomplete
        rw [if_pos incomplete]
      · cases noMenu
  | _ => rfl

/-- The block of a step without a menu that has a name and items leaves menus alone. -/
theorem leavesMenus_of_mem_block {kind : StepKind} (noMenu : kind.fullMenu? = none)
    {instruction : Instruction}
    (member : instruction ∈ block settings plan.steps position kind) : LeavesMenus instruction := by
  cases kind with
  | createMenu menu =>
      rw [StepKind.fullMenu?] at noMenu
      rw [block, Compile.menuCommands] at member
      split at noMenu
      · rename_i incomplete
        rw [if_pos incomplete] at member
        cases member
      · cases noMenu
  | _ =>
      refine leavesMenus_of_emits ?_ (Compile.emits_of_mem_block member)
      rintro menu ⟨⟩

/-- The menu of a step with a name and items is recovered from its block. -/
theorem exists_recovered_of_menuStep (settings : Settings) (ids : Ids) {id : String} {menu : Menu}
    (isStep : plan.steps[position]? = some (menuStep id menu)) (notEmpty : clean menu.name ≠ "")
    (hasItems : menu.items ≠ []) :
    ∃ recovered, IsRecoveredMenu ids (plan.compile settings).entries
      (Compile.place settings plan position) (clean menu.name) (cleanOrEmpty menu.location)
      (itemCommands plan.steps menu) recovered := by
  have stand : StandAt (plan.compile settings).entries _ _ := standAt_block isStep
  rw [menuStep, block_createMenu settings plan.steps position notEmpty hasItems] at stand
  exact exists_isRecoveredMenu (Text.clean_clean menu.name) notEmpty
    (fun _ => asksForItem_of_mem_itemCommands) stand

/-- The menu of a step is added to those that have been recovered before its block. -/
theorem exists_menus_block (settings : Settings) (ids : Ids) {id : String} {kind : StepKind}
    (isStep : plan.steps[position]? = some { id, kind }) :
    ∃ added, menus (stepsAfter ids (plan.compile settings).entries
        (Compile.place settings plan position +
          (block settings plan.steps position kind).length)) =
      menus (stepsAfter ids (plan.compile settings).entries
          (Compile.place settings plan position)) ++ added ∧
      List.Forall₂ (plan.RecoversAs settings ids)
        (kind.fullMenu?.map fun menu => (menu, position)).toList added := by
  cases isFull : kind.fullMenu? with
  | none =>
      refine ⟨[], ?_, .nil⟩
      rw [menus_stepsAfter (standAt_block isStep) fun _ => leavesMenus_of_mem_block isFull,
        List.append_nil]
  | some menu =>
      obtain ⟨rfl, notEmpty, hasItems⟩ := StepKind.fullMenu?_eq_some_iff.mp isFull
      obtain ⟨recovered, isRecovered⟩ :=
        exists_recovered_of_menuStep settings ids isStep notEmpty hasItems
      obtain ⟨recoveredId, isLast⟩ := isRecovered.isLast
      have sameLength : (block settings plan.steps position (.createMenu menu)).length =
          1 + (itemCommands plan.steps menu).length +
            (menuLocation (clean menu.name) (cleanOrEmpty menu.location)).length := by
        rw [block_createMenu settings plan.steps position notEmpty hasItems, List.length_cons,
          List.length_append, List.length_map]
        omega
      refine ⟨[recovered], ?_, .cons ?_ .nil⟩
      · rw [sameLength, isLast, menus_append, menus_singleton]
      · constructor
        · exact isRecovered.name_eq
        · exact isRecovered.location_eq
        · rw [keepsItem_createMenu notEmpty hasItems isRecovered, Bool.not_eq_false',
            List.isEmpty_iff]

/-- A command that sets up a menu is not dropped. -/
theorem isAcceptedAt_of_setsUpMenu {id : String} {kind : StepKind}
    (isStep : plan.steps[position]? = some { id, kind }) {index : Nat} {instruction : Instruction}
    (isEmitted : (block settings plan.steps position kind)[index]? = some instruction)
    (setsUp : instruction.setsUpMenu = true) :
    isAcceptedAt (ofEntries ids (plan.compile settings).entries).dropped
      (Compile.place settings plan position + index) = true := by
  cases isFull : kind.fullMenu? with
  | none =>
      have inSetup := List.mem_filter.mpr ⟨List.mem_of_getElem? isEmitted, setsUp⟩
      rw [Compile.filter_block_setsUpMenu, menuSetup_eq_nil isFull] at inSetup
      cases inSetup
  | some menu =>
      obtain ⟨rfl, notEmpty, hasItems⟩ := StepKind.fullMenu?_eq_some_iff.mp isFull
      obtain ⟨recovered, isRecovered⟩ :=
        exists_recovered_of_menuStep settings ids isStep notEmpty hasItems
      rw [block_createMenu settings plan.steps position notEmpty hasItems] at isEmitted
      exact isRecovered.isAccepted (fun _ => not_setsUpMenu_of_mem_itemCommands) isEmitted setsUp

end

end Recovery

/-! ## Whole scripts -/

/-- The commands that set up the menus of the first steps of a plan that keep an item. -/
def Plan.keptSetups (settings : Settings) (ids : Recovery.Ids) (plan : Plan) (count : Nat) :
    List Instruction :=
  (plan.steps.take count).zipIdx.flatMap fun place =>
    if plan.keepsItem settings ids place.2 place.1.kind then
      (Compile.block settings plan.steps place.2 place.1.kind).filter Instruction.setsUpMenu
    else []

/-- The step at a position keeps an item, if it emits the instruction at all. -/
def Plan.KeepsIfEmitted (settings : Settings) (ids : Recovery.Ids) (plan : Plan)
    (instruction : Instruction) (position : Nat) : Prop :=
  ∀ step, plan.steps[position]? = some step →
    instruction ∈ Compile.block settings plan.steps position step.kind →
    plan.keepsItem settings ids position step.kind = true

namespace Recovery

open Compile (block menuSetup menuSetups menuSetups_append menuSetups_singleton)

variable {settings : Settings} {ids : Ids} {plan : Plan}

/-- The first elements of a list, with their positions, grow by the next one. -/
theorem zipIdx_take_succ {α : Type} {list : List α} {count : Nat} {a : α}
    (isNext : list[count]? = some a) :
    (list.take (count + 1)).zipIdx = (list.take count).zipIdx ++ [(a, count)] := by
  obtain ⟨inBounds, -⟩ := List.getElem?_eq_some_iff.mp isNext
  have lengthBefore : (list.take count).length = count :=
    List.length_take_of_le (Nat.le_of_lt inBounds)
  rw [List.take_add_one, isNext, Option.toList_some, List.zipIdx_append, lengthBefore,
    Nat.zero_add, List.zipIdx_singleton]

theorem fullMenus_succ {count : Nat} {step : Step} (isStep : plan.steps[count]? = some step) :
    plan.fullMenus (count + 1) =
      plan.fullMenus count ++ (step.kind.fullMenu?.map fun menu => (menu, count)).toList := by
  rw [Plan.fullMenus, Plan.fullMenus, zipIdx_take_succ isStep, List.filterMap_append,
    List.filterMap_eq_flatMap_toList _ [_], List.flatMap_singleton]

theorem fullMenus_succ_of_none {count : Nat} (isBehind : plan.steps[count]? = none) :
    plan.fullMenus (count + 1) = plan.fullMenus count := by
  rw [Plan.fullMenus, Plan.fullMenus, List.take_add_one, isBehind, Option.toList_none,
    List.append_nil]

theorem keptSetups_succ {count : Nat} {step : Step} (isStep : plan.steps[count]? = some step) :
    plan.keptSetups settings ids (count + 1) =
      plan.keptSetups settings ids count ++
        if plan.keepsItem settings ids count step.kind then menuSetup step.kind else [] := by
  rw [Plan.keptSetups, Plan.keptSetups, zipIdx_take_succ isStep, List.flatMap_append,
    List.flatMap_singleton, Compile.filter_block_setsUpMenu]

theorem keptSetups_succ_of_none {count : Nat} (isBehind : plan.steps[count]? = none) :
    plan.keptSetups settings ids (count + 1) = plan.keptSetups settings ids count := by
  rw [Plan.keptSetups, Plan.keptSetups, List.take_add_one, isBehind, Option.toList_none,
    List.append_nil]

theorem standAt_preamble (settings : Settings) (plan : Plan) :
    StandAt (plan.compile settings).entries 0 (Compile.preamble settings plan.title) := by
  intro index instruction isInstruction
  obtain ⟨inBounds, -⟩ := List.getElem?_eq_some_iff.mp isInstruction
  rw [Nat.zero_add, Compile.entries_eq_map_instructions, List.getElem?_map,
    Compile.instructions_compile, List.getElem?_append_left inBounds, isInstruction]
  rfl

/-- The menus with a name and items among the first steps are recovered from their blocks. -/
theorem forall₂_menus_place (settings : Settings) (ids : Ids) (plan : Plan) (count : Nat) :
    List.Forall₂ (plan.RecoversAs settings ids) (plan.fullMenus count)
      (menus (stepsAfter ids (plan.compile settings).entries
        (Compile.place settings plan count))) := by
  induction count with
  | zero =>
      -- What comes before all blocks brings no menu.
      have atPreamble : Compile.place settings plan 0 =
          0 + (Compile.preamble settings plan.title).length := by
        rw [Nat.zero_add, Compile.place, Compile.before, List.take_zero, Compile.blocksFrom_nil,
          List.append_nil]
      rw [atPreamble, menus_stepsAfter (standAt_preamble settings plan)
        fun _ => leavesMenus_of_mem_preamble]
      exact .nil
  | succ count inductionHypothesis =>
      cases isStep : plan.steps[count]? with
      | none =>
          rw [Compile.place, Compile.before_succ_of_none settings isStep, ← Compile.place,
            fullMenus_succ_of_none isStep]
          exact inductionHypothesis
      | some step =>
          obtain ⟨added, isAdded, areRecovered⟩ := exists_menus_block settings ids isStep
          rw [Compile.place, Compile.before_succ settings isStep, List.length_append,
            ← Compile.place, isAdded, fullMenus_succ isStep]
          exact List.rel_append inductionHypothesis areRecovered

/-- The menus with a name and items, and no others, are recovered. -/
theorem forall₂_menus_recovered (settings : Settings) (ids : Ids) (plan : Plan) :
    List.Forall₂ (plan.RecoversAs settings ids) (plan.fullMenus plan.steps.length)
      (menus (ofEntries ids (plan.compile settings).entries).steps) := by
  have atEnd : Compile.place settings plan plan.steps.length =
      (plan.compile settings).entries.length := by
    rw [Compile.place, Compile.before_length, Compile.entries_eq_map_instructions,
      List.length_map]
  rw [← stepsAfter_length, ← atEnd]
  exact forall₂_menus_place settings ids plan plan.steps.length

/-- Only a menu with a name and items emits commands, so no other keeps an item. -/
theorem full_of_keepsItem {menu : Menu} {position : Nat}
    (keeps : plan.keepsItem settings ids position (.createMenu menu) = true) :
    clean menu.name ≠ "" ∧ menu.items ≠ [] := by
  rw [Plan.keepsItem, block, Compile.menuCommands] at keeps
  split at keeps
  · cases keeps
  · rename_i isFull
    simpa using isFull

/-- A menu is set up as before if it keeps an item, and else not at all. -/
theorem menuSetup_recovered {listed : Menu × Nat} {recovered : Menu}
    (isRecovered : plan.RecoversAs settings ids listed recovered) :
    menuSetup (.createMenu recovered) =
      if plan.keepsItem settings ids listed.2 (.createMenu listed.1) then
        menuSetup (.createMenu listed.1)
      else [] := by
  rw [menuSetup, isRecovered.name_eq, isRecovered.location_eq, Text.clean_clean,
    cleanOrEmpty_unlessEmpty (Compile.clean_cleanOrEmpty listed.1.location)]
  cases keeps : plan.keepsItem settings ids listed.2 (.createMenu listed.1) with
  | true =>
      obtain ⟨notEmpty, hasItems⟩ := full_of_keepsItem keeps
      have stillHasItems : recovered.items ≠ [] := by
        intro noItems
        rw [isRecovered.items_eq_nil_iff, keeps] at noItems
        cases noItems
      simp [menuSetup, notEmpty, hasItems, stillHasItems]
  | false => simp [isRecovered.items_eq_nil_iff.mpr keeps]

theorem flatMap_menuSetup_recovered {listed : List (Menu × Nat)} {recovered : List Menu}
    (areRecovered : List.Forall₂ (plan.RecoversAs settings ids) listed recovered) :
    (recovered.flatMap fun menu => menuSetup (.createMenu menu)) = listed.flatMap fun menu =>
      if plan.keepsItem settings ids menu.2 (.createMenu menu.1) then
        menuSetup (.createMenu menu.1)
      else [] := by
  induction areRecovered with
  | nil => rfl
  | cons isRecovered _ inductionHypothesis =>
      rw [List.flatMap_cons, List.flatMap_cons, menuSetup_recovered isRecovered,
        inductionHypothesis]

theorem keptSetups_eq_flatMap (settings : Settings) (ids : Ids) (plan : Plan) (count : Nat) :
    plan.keptSetups settings ids count = (plan.fullMenus count).flatMap fun listed =>
      if plan.keepsItem settings ids listed.2 (.createMenu listed.1) then
        menuSetup (.createMenu listed.1)
      else [] := by
  rw [Plan.keptSetups, Plan.fullMenus, List.filterMap_eq_flatMap_toList, List.flatMap_assoc]
  apply List.flatMap_congr
  rintro ⟨⟨id, kind⟩, position⟩ -
  rw [Compile.filter_block_setsUpMenu]
  cases isFull : kind.fullMenu? with
  | none =>
      rw [menuSetup_eq_nil isFull, ite_self]
      rfl
  | some menu =>
      obtain ⟨rfl, -⟩ := StepKind.fullMenu?_eq_some_iff.mp isFull
      exact (List.flatMap_singleton _ _).symm

/-- What is recovered from the script of a plan sets up the menus that keep an item. -/
theorem menuSetups_recovered (settings : Settings) (ids : Ids) (plan : Plan) :
    menuSetups (ofEntries ids (plan.compile settings).entries).steps =
      plan.keptSetups settings ids plan.steps.length := by
  rw [menuSetups_eq_flatMap_menus, keptSetups_eq_flatMap]
  exact flatMap_menuSetup_recovered (forall₂_menus_recovered settings ids plan)

theorem keptSetups_sublist (settings : Settings) (ids : Ids) (plan : Plan) (count : Nat) :
    (plan.keptSetups settings ids count).Sublist (menuSetups (plan.steps.take count)) := by
  induction count with
  | zero => exact .slnil
  | succ count inductionHypothesis =>
      rw [List.take_add_one, menuSetups_append]
      cases isStep : plan.steps[count]? with
      | none =>
          rw [keptSetups_succ_of_none isStep]
          exact inductionHypothesis.trans (List.sublist_append_left _ _)
      | some step =>
          rw [keptSetups_succ isStep, Option.toList_some, menuSetups_singleton]
          split
          · exact inductionHypothesis.append (.refl _)
          · exact inductionHypothesis.append (List.nil_sublist _)

/-- A command occurs among those of the menus that keep an item as often as among those of all
menus, exactly if every menu that emits it keeps an item. -/
theorem count_keptSetups_eq_iff (settings : Settings) (ids : Ids) (plan : Plan)
    {instruction : Instruction} (setsUp : instruction.setsUpMenu = true) (count : Nat) :
    (plan.keptSetups settings ids count).count instruction =
        (menuSetups (plan.steps.take count)).count instruction ↔
      ∀ position < count, plan.KeepsIfEmitted settings ids instruction position := by
  induction count with
  | zero =>
      refine ⟨?_, fun _ => rfl⟩
      exact fun _ position isBefore => absurd isBefore (Nat.not_lt_zero position)
  | succ count inductionHypothesis =>
      rw [Nat.forall_lt_succ_right, ← inductionHypothesis, List.take_add_one, menuSetups_append,
        List.count_append]
      cases isStep : plan.steps[count]? with
      | none =>
          have keeps : plan.KeepsIfEmitted settings ids instruction count := by
            intro step isOther
            rw [isStep] at isOther
            cases isOther
          rw [keptSetups_succ_of_none isStep, and_iff_left keeps]
          rfl
      | some step =>
          have emits_iff : instruction ∈ block settings plan.steps count step.kind ↔
              0 < (menuSetup step.kind).count instruction := by
            rw [List.count_pos_iff, ← Compile.filter_block_setsUpMenu settings plan.steps count,
              List.mem_filter, and_iff_left setsUp]
          have keeps_iff : plan.KeepsIfEmitted settings ids instruction count ↔
              (0 < (menuSetup step.kind).count instruction →
                plan.keepsItem settings ids count step.kind = true) := by
            rw [Plan.KeepsIfEmitted, isStep]
            simp only [Option.some.injEq, forall_eq', emits_iff]
          -- No command is kept more often than it is emitted, so one that has been lost is not
          -- made up for later.
          have noMore := (keptSetups_sublist settings ids plan count).count_le instruction
          rw [keptSetups_succ isStep, List.count_append, keeps_iff, Option.toList_some,
            menuSetups_singleton]
          split
          · rename_i keepsItem
            rw [and_iff_left fun _ => keepsItem]
            omega
          · rename_i losesItems
            rw [imp_iff_not losesItems, List.count_nil]
            omega

end Recovery

/-- What becomes of the menus of a plan when its script is recovered and compiled again. -/
structure Plan.MenusReturn (settings : Settings) (ids : Recovery.Ids) (plan : Plan) : Prop where
  /-- No command that sets up a menu is dropped. -/
  isAccepted : ∀ place instruction,
    (plan.compile settings).entries[place]? = some (.known instruction) →
    instruction.setsUpMenu = true →
    isAcceptedAt ((plan.compile settings).recover ids).dropped place = true
  /-- The second script sets up, in order, the menus that keep an item. -/
  setups_eq : (plan.recompile settings ids).instructions.filter Instruction.setsUpMenu =
    plan.keptSetups settings ids plan.steps.length
  /-- A command that sets up menus occurs as often as before exactly if each of them keeps an
  item. -/
  count_eq_iff : ∀ instruction, instruction.setsUpMenu = true →
    ((plan.recompile settings ids).instructions.count instruction =
        (plan.compile settings).instructions.count instruction ↔
      ∀ position, plan.KeepsIfEmitted settings ids instruction position)
  /-- The menus with a name and items are recovered in order, and without items those of them
  that keep none. -/
  recovered : List.Forall₂ (plan.RecoversAs settings ids) (plan.fullMenus plan.steps.length)
    (menus ((plan.compile settings).recover ids).steps)

section

variable {settings : Settings} {ids : Recovery.Ids} {plan : Plan}

theorem Plan.isAccepted_of_setsUpMenu {place : Nat} {instruction : Instruction}
    (isEntry : (plan.compile settings).entries[place]? = some (.known instruction))
    (setsUp : instruction.setsUpMenu = true) :
    isAcceptedAt ((plan.compile settings).recover ids).dropped place = true := by
  rw [Compile.entries_eq_map_instructions, List.getElem?_map] at isEntry
  obtain ⟨emitted, isEmitted, sameEntry⟩ := Option.map_eq_some_iff.mp isEntry
  cases sameEntry
  rcases Compile.exists_place_eq isEmitted with
    inPreamble | ⟨position, step, index, isStep, inBlock, rfl⟩
  · rw [Compile.not_setsUpMenu_of_mem_preamble inPreamble] at setsUp
    cases setsUp
  · exact isAcceptedAt_of_setsUpMenu isStep inBlock setsUp

theorem Plan.filter_recompile_setsUpMenu (settings : Settings) (ids : Recovery.Ids) (plan : Plan) :
    (plan.recompile settings ids).instructions.filter Instruction.setsUpMenu =
      plan.keptSetups settings ids plan.steps.length := by
  rw [Plan.recompile, Compile.filter_instructions_setsUpMenu, recoveredPlan_steps,
    menuSetups_recovered]

theorem Plan.count_recompile_eq_iff (settings : Settings) (ids : Recovery.Ids) (plan : Plan)
    {instruction : Instruction} (setsUp : instruction.setsUpMenu = true) :
    (plan.recompile settings ids).instructions.count instruction =
        (plan.compile settings).instructions.count instruction ↔
      ∀ position, plan.KeepsIfEmitted settings ids instruction position := by
  rw [← List.count_filter setsUp, Plan.filter_recompile_setsUpMenu,
    ← List.count_filter (l := (plan.compile settings).instructions) setsUp,
    Compile.filter_instructions_setsUpMenu]
  have ofAll := count_keptSetups_eq_iff settings ids plan setsUp plan.steps.length
  rw [List.take_length] at ofAll
  refine ofAll.trans ⟨?_, fun keeps position _ => keeps position⟩
  intro keeps position step isStep
  obtain ⟨inBounds, -⟩ := List.getElem?_eq_some_iff.mp isStep
  exact keeps position inBounds step isStep

end

/-- The commands that set up menus are never dropped, and of the menus those return that keep an
item. -/
theorem Plan.menusReturn (settings : Settings) (ids : Recovery.Ids) (plan : Plan) :
    plan.MenusReturn settings ids where
  isAccepted _ _ := Plan.isAccepted_of_setsUpMenu
  setups_eq := Plan.filter_recompile_setsUpMenu settings ids plan
  count_eq_iff _ := Plan.count_recompile_eq_iff settings ids plan
  recovered := forall₂_menus_recovered settings ids plan

/-- Every command that sets up a menu is dropped, or occurs in the second script as often as in
the first. -/
def Plan.KeepsMenus (settings : Settings) (ids : Recovery.Ids) (plan : Plan) : Prop :=
  ∀ place instruction, (plan.compile settings).entries[place]? = some (.known instruction) →
    instruction.setsUpMenu = true →
    isAcceptedAt ((plan.compile settings).recover ids).dropped place = false ∨
      (plan.recompile settings ids).instructions.count instruction =
        (plan.compile settings).instructions.count instruction

/-- A plan with a menu whose only item leads to a page that is not there. -/
def lostItemPlan : Plan :=
  { title := ""
    landing := .frontPage
    landingUrl := none
    steps := [{ id := "menu", kind := .createMenu {
      name := "Main", location := none,
      items := [{ kind := .page, pageId := some "gone", title := "", url := "" }] } }] }

theorem not_keepsMenus_lostItemPlan : ¬ lostItemPlan.KeepsMenus .default tally := by
  intro keeps
  have isEntry : (lostItemPlan.compile .default).entries[1]? =
      some (.known (Command.createMenu "Main").instruction) := by
    decide +kernel
  have setsUp : (Command.createMenu "Main").instruction.setsUpMenu = true :=
    Compile.setsUpMenu_command _
  have again : (lostItemPlan.recompile .default tally).instructions.count
      (Command.createMenu "Main").instruction = 0 := by
    decide +kernel
  have before : (lostItemPlan.compile .default).instructions.count
      (Command.createMenu "Main").instruction = 1 := by
    decide +kernel
  rcases keeps 1 _ isEntry setsUp with isDropped | sameCount
  · rw [Plan.isAccepted_of_setsUpMenu isEntry setsUp] at isDropped
    cases isDropped
  · rw [again, before] at sameCount
    cases sameCount

end SiteScript
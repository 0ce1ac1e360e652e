import SiteScript.Proofs.Recovery.Setups
import SiteScript.Proofs.Recovery.Targets

/-!
# Recovered menus

A menu is recovered from the command that makes it, those for its items and the one that puts it
in its place.  The first and the last are always read.  Those for items are read or dropped one by
one, and the menu gets an item for each that is read.
-/

namespace SiteScript.Recovery

open Compile (menuLocation)
open Text (clean)

variable {ids : Ids} {entries : List Entry} {place : Nat} {steps : List Step}

/-- Whether the instruction at a place brings an item and is not dropped. -/
def bringsItemAt (dropped : List Drop) (emitted : Instruction × Nat) : Bool :=
  (Entry.known emitted.1).addsItem && isAcceptedAt dropped emitted.2

/-- The menu made last gets as many items as there are instructions that bring one and are not
dropped. -/
theorem exists_items {id : String} {menu : Menu} (nameClean : clean menu.name = menu.name)
    (isLast : stepsAfter ids entries place = steps ++ [menuStep id menu])
    {instructions : List Instruction} (stand : StandAt entries place instructions)
    (ask : ∀ instruction ∈ instructions, AsksForItem menu.name instruction) :
    ∃ items, stepsAfter ids entries (place + instructions.length) =
        steps ++ [menuStep id (addItems items menu)] ∧
      items.length = (instructions.zipIdx place).countP
        (bringsItemAt (ofEntries ids entries).dropped) := by
  induction instructions generalizing place menu with
  | nil =>
      refine ⟨[], ?_, rfl⟩
      rw [addItems_nil, ← isLast]
      rfl
  | cons instruction rest inductionHypothesis =>
      obtain ⟨⟨lead, asks⟩, restAsk⟩ := List.forall_mem_cons.mp ask
      have addsOne : (Entry.known instruction).addsItem = true := by
        rw [Entry.addsItem, Entry.yield, ← (brings_of_instruction asks).yield_eq]
        rfl
      have reads : readEntry ids (stepsAfter ids entries place) (.known instruction) =
          (lead.item (steps ++ [menuStep id menu])).map fun item =>
            steps ++ [menuStep id (addItem item menu)] := by
        rw [isLast, readEntry_eq, Entry.demand, asks, Except.bind,
          meet_addItem ids steps id nameClean]
      have oneFurther : place + (instruction :: rest).length = place + 1 + rest.length := by
        rw [List.length_cons]
        omega
      have next : stepsAfter ids entries (place + 1) = _ := stepsAfter_succ stand.head
      rw [oneFurther, List.zipIdx_cons, List.countP_cons, bringsItemAt, addsOne, Bool.true_and]
      cases leads : lead.item (steps ++ [menuStep id menu]) with
      | error reason =>
          rw [leads] at reads
          rw [reads] at next
          have isDropped : isAcceptedAt (ofEntries ids entries).dropped place = false := by
            rw [isAcceptedAt, decide_eq_false_iff_not, not_not]
            exact List.mem_map_of_mem (mem_dropped_of_error stand.head reads)
          rw [isDropped]
          exact inductionHypothesis nameClean (next.trans isLast) stand.tail restAsk
      | ok item =>
          rw [leads] at reads
          rw [reads] at next
          have stillClean : clean (addItem item menu).name = (addItem item menu).name := nameClean
          obtain ⟨items, isEnd, length_eq⟩ :=
            inductionHypothesis stillClean next stand.tail restAsk
          refine ⟨item :: items, ?_, ?_⟩
          · rw [isEnd, addItems, addItems, addItem, List.append_assoc]
            rfl
          · rw [isAcceptedAt_of_read stand.head reads, List.length_cons, length_eq]
            rfl

/-- The menu that is recovered from the commands at a place: the one that makes it, those for its
items, and the one that puts it in its place. -/
structure IsRecoveredMenu (ids : Ids) (entries : List Entry) (place : Nat) (name location : String)
    (items : List Instruction) (menu : Menu) : Prop where
  isLast : ∃ id, stepsAfter ids entries
      (place + (1 + items.length + (menuLocation name location).length)) =
    stepsAfter ids entries place ++ [menuStep id menu]
  name_eq : menu.name = name
  location_eq : menu.location = unlessEmpty location
  length_items : menu.items.length =
    (items.zipIdx (place + 1)).countP (bringsItemAt (ofEntries ids entries).dropped)
  /-- The first and the last command are not dropped. -/
  isMade : isAcceptedAt (ofEntries ids entries).dropped place = true
  isAssigned : ∀ index < (menuLocation name location).length,
    isAcceptedAt (ofEntries ids entries).dropped (place + (1 + items.length) + index) = true

theorem exists_isRecoveredMenu {name location : String} (nameClean : clean name = name)
    (notEmpty : name ≠ "") {items : List Instruction}
    (ask : ∀ instruction ∈ items, AsksForItem name instruction)
    (stand : StandAt entries place ((Command.createMenu name).instruction ::
      (items ++ (menuLocation name location).map Command.instruction))) :
    ∃ menu, IsRecoveredMenu ids entries place name location items menu := by
  obtain ⟨standItems, standLocation⟩ := stand.tail.append
  -- Under names of their own, the steps so far and the new menu are not unfolded.
  obtain ⟨first, isFirst⟩ : ∃ first, first = stepsAfter ids entries place := ⟨_, rfl⟩
  obtain ⟨named, isNamed⟩ : ∃ named, named = Menu.named name := ⟨_, rfl⟩
  have sameName : named.name = name := congrArg Menu.name isNamed
  have created : readEntry ids (stepsAfter ids entries place)
      (.known (Command.createMenu name).instruction) =
        .ok (first ++ [menuStep (ids first.length) named]) := by
    rw [← isFirst, readEntry, readInstruction_createMenu ids first nameClean notEmpty, isNamed]
  have afterMaking : stepsAfter ids entries (place + 1) = _ := stepsAfter_succ stand.head
  rw [created] at afterMaking
  have namedClean : clean named.name = named.name := by
    rw [sameName, nameClean]
  rw [← sameName] at ask
  obtain ⟨added, afterItems, length_eq⟩ := exists_items namedClean afterMaking standItems ask
  have full_eq : addItems added named = { name, location := none, items := added } := by
    rw [isNamed]
    rfl
  have located : ((menuLocation name location).map Command.instruction).foldlM
      (readInstruction ids) (stepsAfter ids entries (place + 1 + items.length)) =
        .ok (first ++ [menuStep (ids first.length)
          { name, location := unlessEmpty location, items := added }]) := by
    rw [afterItems, full_eq]
    exact foldlM_menuLocation { name, location := none, items := added } nameClean rfl location
  have isLocated := stepsAfter_of_foldlM standLocation located
  rw [List.length_map, Nat.add_assoc place] at isLocated
  obtain ⟨isLast, areAssigned⟩ := isLocated
  refine ⟨{ name, location := unlessEmpty location, items := added }, ?_⟩
  constructor
  · refine ⟨ids first.length, ?_⟩
    rw [← Nat.add_assoc, isLast, isFirst]
  · rfl
  · rfl
  · exact length_eq
  · exact isAcceptedAt_of_read stand.head created
  · exact areAssigned

/-- Of the commands of a recovered menu, none that sets up a menu is dropped. -/
theorem IsRecoveredMenu.isAccepted {name location : String} {items : List Instruction} {menu : Menu}
    (isRecovered : IsRecoveredMenu ids entries place name location items menu)
    (noItemSetsUp : ∀ instruction ∈ items, instruction.setsUpMenu = false)
    {first instruction : Instruction} {index : Nat}
    (isEmitted : (first :: (items ++
      (menuLocation name location).map Command.instruction))[index]? = some instruction)
    (setsUp : instruction.setsUpMenu = true) :
    isAcceptedAt (ofEntries ids entries).dropped (place + index) = true := by
  cases index with
  | zero => exact isRecovered.isMade
  | succ index =>
      rw [List.getElem?_cons_succ, List.getElem?_append] at isEmitted
      split at isEmitted
      · rw [noItemSetsUp instruction (List.mem_of_getElem? isEmitted)] at setsUp
        cases setsUp
      · obtain ⟨inBounds, -⟩ := List.getElem?_eq_some_iff.mp isEmitted
        rw [List.length_map] at inBounds
        have accepted := isRecovered.isAssigned _ inBounds
        have samePlace : place + (1 + items.length) + (index - items.length) =
            place + (index + 1) := by
          omega
        rwa [samePlace] at accepted

/-- A command that sets up a menu brings no item. -/
theorem not_addsItem_of_setsUpMenu {instruction : Instruction}
    (setsUp : instruction.setsUpMenu = true) : (Entry.known instruction).addsItem = false := by
  cases instruction with
  | command line =>
      rw [Instruction.setsUpMenu] at setsUp
      rw [Entry.addsItem, Entry.yield, Instruction.yield]
      cases asked : Request.ofWords? (Shell.split line) with
      | none => rfl
      | some request =>
          rw [asked] at setsUp
          cases request with
          | createMenu | assignMenu => rfl
          | _ => cases setsUp
  | _ => cases setsUp

end SiteScript.Recovery

import SiteScript.Proofs.Recovery.Made
import SiteScript.Proofs.Recovery.References

/-!
# Where recovered menu items lead

The command for a menu item looks up its page by type and title, but it is recovered by the title
alone: the item then leads to the first step that makes content of that title.  For the script of
a plan that is the content that the first step of the plan with such content makes.
-/

namespace SiteScript

open Recovery
open Text (clean)

/-! ## The place of an item -/

namespace Compile

/-- What comes before the command for the item at an index of the menu at a position. -/
def beforeItem (settings : Settings) (plan : Plan) (position : Nat) (menu : Menu) (index : Nat) :
    List Instruction :=
  before settings plan position ++
    (.createMenu (clean menu.name) ::
      (menu.items.take index).flatMap (menuItem plan.steps (clean menu.name))).map
        Command.instruction

/-- The place of the command for the item at an index of the menu at a position. -/
def itemPlace (settings : Settings) (plan : Plan) (position : Nat) (menu : Menu) (index : Nat) :
    Nat :=
  (beforeItem settings plan position menu index).length

variable {plan : Plan} {position index : Nat} {id : String} {menu : Menu} {item : MenuItem}
variable {target : CreatedContent}

/-- A script around the command for an item that leads to content. -/
theorem exists_instructions_eq_item (settings : Settings)
    (isStep : plan.steps[position]? = some (menuStep id menu)) (notEmpty : clean menu.name ≠ "")
    (isItem : menu.items[index]? = some item) (isPage : item.kind = .page)
    (isTarget : target? plan.steps item.pageId = some target) :
    ∃ after, (plan.compile settings).instructions =
      beforeItem settings plan position menu index ++
        attachment (clean menu.name) target :: after := by
  obtain ⟨behind, instructions_eq⟩ := exists_instructions_eq settings isStep
  obtain ⟨inBounds, isElement⟩ := List.getElem?_eq_some_iff.mp isItem
  have around : menu.items = menu.items.take index ++ item :: menu.items.drop (index + 1) := by
    rw [← isElement, List.getElem_cons_drop, List.take_append_drop]
  have hasItems : menu.items ≠ [] := by
    intro noItems
    rw [noItems] at isItem
    cases isItem
  have isCommand : menuItem plan.steps (clean menu.name) item =
      [.run (.addMenuItem (clean menu.name) target)] := by
    rw [menuItem, isPage]
    simp only [isTarget]
  have flatMap_eq : menu.items.flatMap (menuItem plan.steps (clean menu.name)) =
      (menu.items.take index).flatMap (menuItem plan.steps (clean menu.name)) ++
        .run (.addMenuItem (clean menu.name) target) ::
          (menu.items.drop (index + 1)).flatMap (menuItem plan.steps (clean menu.name)) := by
    conv => lhs; rw [around]
    rw [List.flatMap_append, List.flatMap_cons, isCommand, List.singleton_append]
  refine ⟨((menu.items.drop (index + 1)).flatMap (menuItem plan.steps (clean menu.name)) ++
    menuLocation (clean menu.name) (Text.cleanOrEmpty menu.location)).map Command.instruction ++
      behind, ?_⟩
  rw [instructions_eq, menuStep, block, menuCommands_eq plan.steps notEmpty hasItems, flatMap_eq,
    beforeItem, attachment]
  simp only [List.map_append, List.map_cons, List.append_assoc, List.cons_append]

/-- The command for an item stands at its place. -/
theorem getElem?_itemPlace (settings : Settings)
    (isStep : plan.steps[position]? = some (menuStep id menu)) (notEmpty : clean menu.name ≠ "")
    (isItem : menu.items[index]? = some item) (isPage : item.kind = .page)
    (isTarget : target? plan.steps item.pageId = some target) :
    (plan.compile settings).entries[itemPlace settings plan position menu index]? =
      some (.known (attachment (clean menu.name) target)) := by
  obtain ⟨after, instructions_eq⟩ :=
    exists_instructions_eq_item settings isStep notEmpty isItem isPage isTarget
  rw [entries_eq_map_instructions, List.getElem?_map, instructions_eq, itemPlace,
    getElem?_append_cons_self]
  rfl

end Compile

namespace Recovery

variable {ids : Ids} {steps : List Step} {entries : List Entry}

/-! ## Content by its title -/

/-- The first content of a title. -/
def firstTitled? (title : String) (created : List CreatedContent) : Option CreatedContent :=
  created.find? fun content => content.title == title

theorem firstTitled?_append (title : String) (created more : List CreatedContent) :
    firstTitled? title (created ++ more) =
      (firstTitled? title created).or (firstTitled? title more) :=
  List.find?_append

/-- The first step that makes content of a title makes the first content of that title. -/
theorem firstTitled?_made (title : String) (steps : List Step) :
    firstTitled? title (made steps) =
      (steps.find? (createsTitled title)).bind fun step => step.kind.created? := by
  induction steps with
  | nil => rfl
  | cons step rest inductionHypothesis =>
      have madeFirst : made (step :: rest) = step.kind.created?.toList ++ made rest := by
        rw [← made_singleton, ← made_append, List.singleton_append]
      rw [madeFirst, firstTitled?_append, inductionHypothesis, List.find?_cons, createsTitled]
      cases creates : step.kind.created? with
      | none => rfl
      | some content =>
          cases isTitled : content.title == title with
          | true => simp [firstTitled?, isTitled, creates]
          | false => simp [firstTitled?, isTitled]

theorem title_of_firstTitled? {title : String} {created : List CreatedContent}
    {first : CreatedContent} (isFirst : firstTitled? title created = some first) :
    first.title = title := by
  rw [firstTitled?] at isFirst
  simpa using List.find?_some isFirst

/-- Content that is made has a first one of its title, also among more. -/
theorem exists_firstTitled? {created more : List CreatedContent} {target : CreatedContent}
    (isMade : target ∈ created) :
    ∃ first, firstTitled? target.title created = some first ∧
      firstTitled? target.title (created ++ more) = some first := by
  have isSome : (firstTitled? target.title created).isSome := by
    rw [firstTitled?, List.find?_isSome]
    exact ⟨target, isMade, beq_self_eq_true target.title⟩
  obtain ⟨first, isFirst⟩ := Option.isSome_iff_exists.mp isSome
  refine ⟨first, isFirst, ?_⟩
  rw [firstTitled?_append, isFirst, Option.some_or]

/-! ## Reading the commands for items -/

/-- An instruction that asks for an item of a menu. -/
def AsksForItem (menu : String) (instruction : Instruction) : Prop :=
  ∃ lead, instruction.demand = .ok (.addItem menu lead)

theorem demand_attachment {menu : String} (nameClean : clean menu = menu) {target : CreatedContent}
    (titleClean : clean target.title = target.title) :
    (Compile.attachment menu target).demand = .ok (.addItem menu (.page target.title)) := by
  rw [Compile.attachment, demand_instruction, Command.request, Request.demand,
    ofCode?_source (.addMenuItem menu target) rfl]
  simp only [effect?, demandOfItem, lookupText_menu nameClean, lookupText_title titleClean, bind,
    Except.bind]
  rfl

theorem mem_made_of_target? {plan : List Step} {pageId : Option String}
    {target : CreatedContent} (isTarget : Compile.target? plan pageId = some target) :
    target ∈ made plan := by
  obtain ⟨id, -, isTarget⟩ := Option.bind_eq_some_iff.mp isTarget
  obtain ⟨page, isPage, creates⟩ := Option.bind_eq_some_iff.mp isTarget
  exact List.mem_filterMap.mpr ⟨page, List.mem_of_find?_eq_some isPage, creates⟩

/-- The commands for items of a menu ask for items of that menu. -/
theorem asksForItem_of_mem_menuItem {plan : List Step} {menu : String}
    (nameClean : clean menu = menu) {item : MenuItem} {command : Command}
    (isCommand : command ∈ Compile.menuItem plan menu item) :
    AsksForItem menu command.instruction := by
  rw [Compile.menuItem] at isCommand
  split at isCommand
  · split at isCommand
    · cases isCommand
    · rename_i target isTarget
      rw [List.mem_singleton.mp isCommand]
      exact ⟨_, demand_attachment nameClean (Compile.clean_title_of_target? isTarget)⟩
  · split at isCommand
    · cases isCommand
    · rw [List.mem_singleton.mp isCommand]
      exact ⟨.address (clean item.title) (clean item.url), demand_instruction _⟩

/-- An item that is asked for goes to the menu made last, if it has the right name. -/
theorem meet_addItem (ids : Ids) (steps : List Step) (id : String) {menu : Menu}
    (nameClean : clean menu.name = menu.name) (lead : Lead) :
    (Demand.addItem menu.name lead).meet ids (steps ++ [menuStep id menu]) =
      (lead.item (steps ++ [menuStep id menu])).map fun item =>
        steps ++ [menuStep id (addItem item menu)] := by
  rw [Demand.meet]
  cases lead.item (steps ++ [menuStep id menu]) with
  | error reason => rfl
  | ok item => exact changeMenu_append steps id nameClean (addItem item)

/-- Instructions that ask for items of the menu made last change that menu only. -/
theorem exists_grown_menu {id : String} {menu : Menu} (nameClean : clean menu.name = menu.name)
    (isLast : (ofEntries ids entries).steps = steps ++ [menuStep id menu])
    {instructions : List Instruction}
    (ask : ∀ instruction ∈ instructions, AsksForItem menu.name instruction) :
    ∃ grown, grown.name = menu.name ∧
      (ofEntries ids (entries ++ instructions.map .known)).steps =
        steps ++ [menuStep id grown] := by
  induction instructions generalizing entries menu with
  | nil =>
      refine ⟨menu, rfl, ?_⟩
      rw [List.map_nil, List.append_nil, isLast]
  | cons instruction rest inductionHypothesis =>
      obtain ⟨⟨lead, asks⟩, restAsk⟩ := List.forall_mem_cons.mp ask
      have next : ∃ grown, grown.name = menu.name ∧
          (ofEntries ids (entries ++ [.known instruction])).steps =
            steps ++ [menuStep id grown] := by
        rw [steps_append_singleton, isLast, readEntry_eq, Entry.demand, asks, Except.bind,
          meet_addItem ids steps id nameClean]
        cases lead.item (steps ++ [menuStep id menu]) with
        | error reason => exact ⟨menu, rfl, rfl⟩
        | ok item => exact ⟨addItem item menu, rfl, rfl⟩
      obtain ⟨grown, sameName, isNext⟩ := next
      have grownClean : clean grown.name = grown.name := by
        rw [sameName, nameClean]
      rw [← sameName] at restAsk
      obtain ⟨last, sameLastName, isEnd⟩ := inductionHypothesis grownClean isNext restAsk
      refine ⟨last, sameLastName.trans sameName, ?_⟩
      rw [← isEnd, List.append_assoc]
      rfl

/-- What comes before the command for an item leads to steps of which the last one makes its
menu, and the others make what the steps before the menu make. -/
theorem exists_steps_beforeItem (settings : Settings) (ids : Ids) (plan : Plan) (position : Nat)
    {menu : Menu} (notEmpty : clean menu.name ≠ "") (index : Nat) :
    ∃ steps id grown, grown.name = clean menu.name ∧
      made steps = made (plan.steps.take position) ∧
      (ofEntries ids ((Compile.beforeItem settings plan position menu index).map .known)).steps =
        steps ++ [menuStep id grown] := by
  obtain ⟨named, isNamed⟩ : ∃ named, named = Menu.named (clean menu.name) := ⟨_, rfl⟩
  obtain ⟨first, isFirst⟩ : ∃ first, first =
      (ofEntries ids ((Compile.before settings plan position).map .known)).steps := ⟨_, rfl⟩
  have sameName : named.name = clean menu.name := congrArg Menu.name isNamed
  have nameClean : clean named.name = named.name := by
    rw [sameName, Text.clean_clean]
  have sameMade : made first = made (plan.steps.take position) := by
    rw [isFirst, made_ofEntries, madeBy_eq, madeBy_before]
  have created : (ofEntries ids ((Compile.before settings plan position).map .known ++
      [.known (Command.createMenu (clean menu.name)).instruction])).steps =
        first ++ [menuStep (ids first.length) named] := by
    rw [steps_append_singleton, ← isFirst, readEntry,
      readInstruction_createMenu ids first (Text.clean_clean menu.name) notEmpty, isNamed]
  have ask : ∀ instruction ∈ ((menu.items.take index).flatMap
      (Compile.menuItem plan.steps (clean menu.name))).map Command.instruction,
        AsksForItem named.name instruction := by
    intro instruction member
    obtain ⟨command, isCommand, rfl⟩ := List.mem_map.mp member
    obtain ⟨item, -, ofItem⟩ := List.mem_flatMap.mp isCommand
    rw [← sameName] at ofItem
    exact asksForItem_of_mem_menuItem nameClean ofItem
  obtain ⟨grown, stillNamed, isEnd⟩ := exists_grown_menu nameClean created ask
  refine ⟨first, ids first.length, grown, stillNamed.trans sameName, sameMade, ?_⟩
  rw [← isEnd, Compile.beforeItem, List.map_append, List.map_cons, List.map_cons,
    List.append_assoc, List.singleton_append]

/-- The command for an item adds one to the menu made last, which leads to the first content of
the title of its target. -/
theorem readEntry_attachment (ids : Ids) {id : String} {menu : Menu}
    (nameClean : clean menu.name = menu.name) {target : CreatedContent}
    (titleClean : clean target.title = target.title) {page : Step}
    (isPage : steps.find? (createsTitled target.title) = some page) :
    readEntry ids (steps ++ [menuStep id menu]) (.known (Compile.attachment menu.name target)) =
      .ok (steps ++ [menuStep id
        (addItem { kind := .page, pageId := some page.id, title := "", url := "" } menu)]) :=
  readInstruction_addPageItem ids steps id nameClean titleClean isPage

end Recovery

/-! ## Recovering an item -/

/-- The item at an index of a menu, which is made at a position of a plan, leads to content that
a step before the menu makes. -/
structure Plan.ItemLeadsTo (plan : Plan) (position : Nat) (menu : Menu) (index : Nat)
    (target : CreatedContent) : Prop where
  isMenu : ∃ id, plan.steps[position]? = some (menuStep id menu)
  isNamed : clean menu.name ≠ ""
  isItem : ∃ item, menu.items[index]? = some item ∧ item.kind = .page ∧
    Compile.target? (plan.steps.take position) item.pageId = some target

/-- An item that is recovered from the entry at a place of the script of a plan.  It leads to
the given content, and so does its command when it is compiled again. -/
structure Plan.IsRecoveredItem (settings : Settings) (ids : Recovery.Ids) (plan : Plan)
    (entryPlace : Nat) (name : String) (content : CreatedContent) (place : Nat) (menu : Menu)
    (index : Nat) (item : MenuItem) (page : Step) : Prop where
  /-- The entry brings the item at an index of a menu. -/
  brings : BringsItem ids (plan.compile settings).entries entryPlace place index
  isMenu : ∃ id, ((plan.compile settings).recover ids).steps[place]? = some (menuStep id menu)
  isItem : menu.items[index]? = some item
  isPage : item.kind = .page
  pageId_eq : item.pageId = some page.id
  /-- The first step with the identifier makes the content. -/
  isFirst : ((plan.compile settings).recover ids).steps.find? (fun step => step.id == page.id) =
    some page
  creates : page.kind.created? = some content
  /-- In the script of the recovered steps, the command for the item adds the content. -/
  isEmitted : (plan.recompile settings ids).entries[Compile.itemPlace settings
      ((plan.compile settings).recoveredPlan ids) place menu index]? =
    some (.known (Compile.attachment name content))

/-- The item at an index of the menu at a position leads to the given content after it has been
recovered from its command. -/
def Plan.ItemComesToLead (settings : Settings) (ids : Recovery.Ids) (plan : Plan) (position : Nat)
    (menu : Menu) (index : Nat) (content : CreatedContent) : Prop :=
  ∃ place later laterIndex item page,
    plan.IsRecoveredItem settings ids (Compile.itemPlace settings plan position menu index)
      (clean menu.name) content place later laterIndex item page

namespace Recovery

variable {settings : Settings} {ids : Ids} {plan : Plan} {position index : Nat} {menu : Menu}
variable {target : CreatedContent}

/-- Content that is found among the first steps is found among all of them. -/
theorem target?_of_take {pageId : Option String}
    (isTarget : Compile.target? (plan.steps.take position) pageId = some target) :
    Compile.target? plan.steps pageId = some target := by
  obtain ⟨id, hasId, isTarget⟩ := Option.bind_eq_some_iff.mp isTarget
  obtain ⟨page, isPage, creates⟩ := Option.bind_eq_some_iff.mp isTarget
  have inPlan : plan.steps.find? (fun step => step.id == id) = some page := by
    rw [← List.take_append_drop position plan.steps, List.find?_append, isPage, Option.some_or]
  rw [Compile.target?, hasId, Option.bind_some, inPlan, Option.bind_some, creates]

/-- The command for an item brings one that leads to the first content of its title, made by a
step that has been recovered before. -/
theorem exists_brought (settings : Settings) (ids : Ids)
    (leads : plan.ItemLeadsTo position menu index target) :
    ∃ steps id grown page first, grown.name = clean menu.name ∧
      firstTitled? target.title (made plan.steps) = some first ∧
      page ∈ steps ∧ page.kind.created? = some first ∧
      stepsAfter ids (plan.compile settings).entries
        (Compile.itemPlace settings plan position menu index) = steps ++ [menuStep id grown] ∧
      stepsAfter ids (plan.compile settings).entries
        (Compile.itemPlace settings plan position menu index + 1) =
          steps ++ [menuStep id
            (addItem { kind := .page, pageId := some page.id, title := "", url := "" } grown)] := by
  obtain ⟨⟨menuId, isStep⟩, notEmpty, item, isItem, isPage, isTarget⟩ := leads
  have inPlan := target?_of_take isTarget
  have titleClean := Compile.clean_title_of_target? isTarget
  have isMade := mem_made_of_target? isTarget
  obtain ⟨steps, id, grown, sameName, sameMade, beforeItem⟩ :=
    exists_steps_beforeItem settings ids plan position notEmpty index
  obtain ⟨first, isFirst, isFirstOfAll⟩ := exists_firstTitled? isMade
  have nameClean : clean grown.name = grown.name := by
    rw [sameName, Text.clean_clean]
  rw [← sameMade, firstTitled?_made] at isFirst
  obtain ⟨page, isFound, creates⟩ := Option.bind_eq_some_iff.mp isFirst
  have madePlan : made plan.steps =
      made (plan.steps.take position) ++ made (plan.steps.drop position) := by
    rw [← made_append, List.take_append_drop]
  have stepsBefore : stepsAfter ids (plan.compile settings).entries
      (Compile.itemPlace settings plan position menu index) = steps ++ [menuStep id grown] := by
    obtain ⟨after, instructions_eq⟩ :=
      Compile.exists_instructions_eq_item settings isStep notEmpty isItem isPage inPlan
    rw [Compile.entries_eq_map_instructions, instructions_eq, List.map_append,
      stepsAfter_append, Compile.itemPlace, ← beforeItem, ← stepsAfter_length, List.length_map]
    rw [Compile.itemPlace, List.length_map]
  have isEntry := Compile.getElem?_itemPlace settings isStep notEmpty isItem isPage inPlan
  refine ⟨steps, id, grown, page, first, sameName, ?_, List.mem_of_find?_eq_some isFound,
    creates, stepsBefore, ?_⟩
  · rw [madePlan, isFirstOfAll]
  · rw [stepsAfter_succ isEntry, stepsBefore, ← sameName,
      readEntry_attachment ids nameClean titleClean isFound]

theorem recover_eq (ids : Ids) (document : Document) :
    document.recover ids = ofEntries ids document.entries :=
  rfl

theorem recoveredPlan_steps (ids : Ids) (document : Document) :
    (document.recoveredPlan ids).steps = (ofEntries ids document.entries).steps :=
  rfl

/-- An item that leads to content leads to the first content of that title after it has been
recovered. -/
theorem exists_itemComesToLead (leads : plan.ItemLeadsTo position menu index target)
    (nodup : (((plan.compile settings).recover ids).steps.map Step.id).Nodup) :
    ∃ first, firstTitled? target.title (made plan.steps) = some first ∧
      plan.ItemComesToLead settings ids position menu index first := by
  obtain ⟨steps, id, grown, page, first, sameName, isFirst, inSteps, creates, before, after⟩ :=
    exists_brought settings ids leads
  obtain ⟨item, item_eq⟩ : ∃ item : MenuItem,
      item = { kind := .page, pageId := some page.id, title := "", url := "" } := ⟨_, rfl⟩
  rw [← item_eq] at after
  -- The menu and the page are still there when everything has been read.
  obtain ⟨brings, full, isLater, sameFullName, isFullItem⟩ := exists_kept_item before after
  have cleanName : clean full.name = clean menu.name := by
    rw [sameFullName, sameName, Text.clean_clean]
  have isPageBefore : page ∈ stepsAfter ids (plan.compile settings).entries
      (Compile.itemPlace settings plan position menu index) := by
    rw [before]
    exact List.mem_append_left _ inSteps
  obtain ⟨laterPage, isLaterPage, sameId, sameCreated⟩ :=
    (grows_ofEntries ids _ _).exists_page isPageBefore
  have pageId_eq : item.pageId = some laterPage.id := by
    rw [item_eq, sameId]
  have laterCreates : laterPage.kind.created? = some first :=
    sameCreated.trans creates
  have isPage : item.kind = .page := by
    rw [item_eq]
  rw [recover_eq] at nodup
  have isFirstPage : (ofEntries ids (plan.compile settings).entries).steps.find?
      (fun step => step.id == laterPage.id) = some laterPage :=
    find?_id_eq nodup isLaterPage
  refine ⟨first, isFirst, steps.length, full, grown.items.length, item, laterPage, ?_⟩
  constructor
  · exact brings
  · rw [recover_eq]
    exact ⟨id, isLater⟩
  · exact isFullItem
  · exact isPage
  · exact pageId_eq
  · rw [recover_eq]
    exact isFirstPage
  · exact laterCreates
  · rw [Plan.recompile, ← cleanName]
    apply Compile.getElem?_itemPlace settings _ _ isFullItem isPage
    · rw [Compile.target?, pageId_eq, Option.bind_some, recoveredPlan_steps, isFirstPage,
        Option.bind_some, laterCreates]
    · exact id
    · rw [recoveredPlan_steps]
      exact isLater
    · rw [cleanName]
      exact leads.isNamed

/-- An item comes to lead to no more than one content. -/
theorem eq_of_itemComesToLead {first second : CreatedContent}
    (leadsToFirst : plan.ItemComesToLead settings ids position menu index first)
    (leadsToSecond : plan.ItemComesToLead settings ids position menu index second) :
    first = second := by
  obtain ⟨place, later, laterIndex, item, page, isItem⟩ := leadsToFirst
  obtain ⟨otherPlace, otherLater, otherIndex, otherItem, otherPage, isOtherItem⟩ :=
    leadsToSecond
  obtain ⟨rfl, rfl⟩ := isItem.brings.position_eq isOtherItem.brings
  obtain ⟨id, isMenu⟩ := isItem.isMenu
  obtain ⟨otherId, isOtherMenu⟩ := isOtherItem.isMenu
  have sameMenu : later = otherLater := by
    rw [isMenu] at isOtherMenu
    exact StepKind.createMenu.inj (congrArg Step.kind (Option.some.inj isOtherMenu))
  have sameItem : item = otherItem := by
    have isSame := isOtherItem.isItem
    rw [← sameMenu, isItem.isItem] at isSame
    exact Option.some.inj isSame
  have sameId : page.id = otherPage.id := by
    have isSame := isOtherItem.pageId_eq
    rw [← sameItem, isItem.pageId_eq] at isSame
    exact Option.some.inj isSame
  have samePage : page = otherPage := by
    have isSame := isOtherItem.isFirst
    rw [← sameId, isItem.isFirst] at isSame
    exact Option.some.inj isSame
  have isSame := isOtherItem.creates
  rw [← samePage, isItem.creates] at isSame
  exact Option.some.inj isSame

end Recovery

/-- What becomes of an item that leads to content when the script of its plan is recovered. -/
structure Plan.ItemSurvives (settings : Settings) (ids : Recovery.Ids) (plan : Plan)
    (position : Nat) (menu : Menu) (index : Nat) (target : CreatedContent) : Prop where
  /-- The script has the command that adds the content. -/
  isEmitted :
    (plan.compile settings).entries[Compile.itemPlace settings plan position menu index]? =
      some (.known (Compile.attachment (clean menu.name) target))
  /-- The item comes to lead to the first content of the same title. -/
  leadsToFirst : ∃ first, firstTitled? target.title (made plan.steps) = some first ∧
    first.title = target.title ∧ plan.ItemComesToLead settings ids position menu index first
  /-- If that is of the same type, the item leads to the same content again. -/
  leadsToTarget : ∀ first, firstTitled? target.title (made plan.steps) = some first →
    first.type = target.type → plan.ItemComesToLead settings ids position menu index target

/-- Every item that leads to content made before its menu leads to the first content of that
title after it has been recovered, if the recovered steps have different identifiers. -/
theorem Plan.ItemLeadsTo.itemSurvives {settings : Settings} {ids : Recovery.Ids} {plan : Plan}
    {position : Nat} {menu : Menu} {index : Nat} {target : CreatedContent}
    (leads : plan.ItemLeadsTo position menu index target)
    (nodup : (((plan.compile settings).recover ids).steps.map Step.id).Nodup) :
    plan.ItemSurvives settings ids position menu index target := by
  obtain ⟨first, isFirst, comesToLead⟩ := exists_itemComesToLead leads nodup
  have sameTitle := title_of_firstTitled? isFirst
  obtain ⟨⟨id, isStep⟩, notEmpty, item, isItem, isPage, isTarget⟩ := leads
  constructor
  · exact Compile.getElem?_itemPlace settings isStep notEmpty isItem isPage
      (target?_of_take isTarget)
  · exact ⟨first, isFirst, sameTitle, comesToLead⟩
  · intro other isOther sameType
    rw [isFirst] at isOther
    cases isOther
    have isTarget : first = target := by
      cases first with
      | mk type title =>
          cases target with
          | mk targetType targetTitle =>
              rw [show type = targetType from sameType, show title = targetTitle from sameTitle]
    rw [← isTarget]
    exact comesToLead

/-- A menu with an item that leads to a page. -/
def newsMenu : Menu :=
  { name := "Main"
    location := none
    items := [{ kind := .page, pageId := some "archive", title := "", url := "" }] }

/-- A plan with a post and a page of the same title, and a menu that leads to the page. -/
def newsPlan : Plan :=
  { title := ""
    landing := .frontPage
    landingUrl := none
    steps := [
      { id := "news"
        kind := .addPost { title := "News", body := "Today", status := "", image := none } },
      { id := "archive"
        kind := .addPage { title := "News", body := "All news", status := "", image := none } },
      { id := "menu", kind := .createMenu newsMenu }] }

theorem itemLeadsTo_newsPlan :
    newsPlan.ItemLeadsTo 2 newsMenu 0 { type := .page, title := "News" } where
  isMenu := ⟨"menu", rfl⟩
  isNamed := by decide
  isItem := ⟨_, rfl, rfl, by decide +kernel⟩

/-- The item leads to the post when it has been recovered, as that is the first content of its
title. -/
theorem not_itemComesToLead_newsPlan :
    newsPlan.ItemLeadsTo 2 newsMenu 0 { type := .page, title := "News" } ∧
      (((newsPlan.compile .default).recover tally).steps.map Step.id).Nodup ∧
      ¬ newsPlan.ItemComesToLead .default tally 2 newsMenu 0
        { type := .page, title := "News" } := by
  refine ⟨itemLeadsTo_newsPlan, nodup_ids_recover tally_injective _, fun leadsToPage => ?_⟩
  obtain ⟨first, isFirst, leadsToFirst⟩ :=
    exists_itemComesToLead itemLeadsTo_newsPlan (nodup_ids_recover tally_injective _)
  have isPost : firstTitled? "News" (made newsPlan.steps) =
      some { type := .post, title := "News" } := by
    decide +kernel
  have sameContent := eq_of_itemComesToLead leadsToPage leadsToFirst
  rw [← sameContent, isPost] at isFirst
  cases isFirst

theorem itemSurvives_newsPlan :
    newsPlan.ItemLeadsTo 2 newsMenu 0 { type := .page, title := "News" } ∧
      (((newsPlan.compile .default).recover tally).steps.map Step.id).Nodup ∧
      newsPlan.ItemSurvives .default tally 2 newsMenu 0 { type := .page, title := "News" } :=
  ⟨itemLeadsTo_newsPlan, nodup_ids_recover tally_injective _,
    itemLeadsTo_newsPlan.itemSurvives (nodup_ids_recover tally_injective _)⟩

end SiteScript

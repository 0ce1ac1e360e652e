import SiteScript.Proofs.Recovery.Attachments
import SiteScript.Proofs.Recovery.Items
import SiteScript.Proofs.Recovery.RoundTrip

/-!
# References of menu items

A menu item that leads to a page refers to a step by its identifier.  When an entry brings such an
item, the step is there, and it stays: so every reference among recovered steps can be followed,
and compiling the steps leaves no item out.
-/

namespace SiteScript

open Recovery
open Text (clean)

namespace Recovery

variable {ids : Ids} {entries : List Entry} {steps : List Step} {item : MenuItem}

/-! ## Recovered kinds -/

/-- What has been recovered was fresh when it was added. -/
theorem isFresh_bare {step : Step} (isRecovered : step ∈ (ofEntries ids entries).steps) :
    IsFresh (bare step.kind) := by
  have isAdded : bare step.kind ∈ (accepted ids entries).flatMap Entry.addedKinds := by
    rw [← bareKinds_ofEntries]
    exact List.mem_map_of_mem isRecovered
  obtain ⟨entry, -, isKind⟩ := List.mem_flatMap.mp isAdded
  rw [Entry.addedKinds] at isKind
  split at isKind
  · rename_i demand asks
    exact (brings_of_demand asks).isFresh _ isKind
  · cases isKind

theorem exists_of_isFresh_createMenu {menu : Menu} (fresh : IsFresh (.createMenu menu)) :
    ∃ name, clean name ≠ "" ∧ menu = .named (clean name) := by
  generalize isMenu : StepKind.createMenu menu = kind at fresh
  cases fresh with
  | content draft =>
      obtain ⟨type, details⟩ := draft
      cases type <;> cases isMenu
  | createMenu name notEmpty =>
      cases isMenu
      exact ⟨name, notEmpty, rfl⟩
  | _ => cases isMenu

theorem not_isFresh_addRole (role : Role) : ¬ IsFresh (.addRole role) := by
  generalize isRole : StepKind.addRole role = kind
  rintro (⟨⟨type, details⟩⟩ | _ | _ | _ | _ | _ | _ | _)
  · cases type <;> cases isRole
  all_goals cases isRole

/-- A recovered menu has a clean name. -/
theorem clean_name_of_menuStep {id : String} {menu : Menu}
    (isRecovered : menuStep id menu ∈ (ofEntries ids entries).steps) :
    clean menu.name = menu.name ∧ menu.name ≠ "" := by
  obtain ⟨name, notEmpty, isNamed⟩ := exists_of_isFresh_createMenu (isFresh_bare isRecovered)
  have name_eq : menu.name = clean name := congrArg Menu.name isNamed
  rw [name_eq]
  exact ⟨Text.clean_clean name, notEmpty⟩

/-- No step that adds a role is recovered. -/
theorem kind_ne_addRole {step : Step} (isRecovered : step ∈ (ofEntries ids entries).steps)
    (role : Role) : step.kind ≠ .addRole role := by
  intro isRole
  have fresh := isFresh_bare isRecovered
  rw [isRole] at fresh
  exact not_isFresh_addRole role fresh

/-! ## Following a reference -/

/-- Only one step has the identifier of a step, if identifiers do not repeat. -/
theorem filter_id_eq (nodup : (steps.map Step.id).Nodup) {page : Step} (inSteps : page ∈ steps) :
    steps.filter (fun step => step.id == page.id) = [page] := by
  obtain ⟨before, after, rfl⟩ := List.append_of_mem inSteps
  rw [List.map_append, List.map_cons, List.nodup_append, List.nodup_cons] at nodup
  obtain ⟨-, ⟨notAfter, -⟩, apart⟩ := nodup
  have noneBefore : before.filter (fun step => step.id == page.id) = [] := by
    rw [List.filter_eq_nil_iff]
    intro step isBefore sameId
    exact apart step.id (List.mem_map_of_mem isBefore) page.id List.mem_cons_self
      (beq_iff_eq.mp sameId)
  have noneAfter : after.filter (fun step => step.id == page.id) = [] := by
    rw [List.filter_eq_nil_iff]
    intro step isAfter sameId
    rw [beq_iff_eq] at sameId
    rw [← sameId] at notAfter
    exact notAfter (List.mem_map_of_mem isAfter)
  rw [List.filter_append, noneBefore, List.nil_append, List.filter_cons,
    if_pos (beq_self_eq_true page.id), noneAfter]

/-- A menu item is a reference to the content of a step, brought by the command for a title. -/
structure IsReference (ids : Ids) (entries : List Entry) (place index : Nat) (item : MenuItem)
    (entryPlace : Nat) (name title : String) (page : Step) : Prop where
  /-- One entry has brought the item, and no other. -/
  bringsItem_iff : ∀ other, BringsItem ids entries other place index ↔ other = entryPlace
  /-- It was not dropped. -/
  isAccepted : isAcceptedAt (ofEntries ids entries).dropped entryPlace = true
  /-- It asks for an item of a menu that leads to the content of the title. -/
  demand_eq : (entries[entryPlace]?).map Entry.demand = some (.ok (.addItem name (.page title)))
  /-- The item is one of the menu of that name, which is not empty. -/
  menu : ∃ id menu, (ofEntries ids entries).steps[place]? = some (menuStep id menu) ∧
    menu.name = clean name ∧ clean menu.name ≠ ""
  /-- It has the identifier of the step. -/
  pageId_eq : item.pageId = some page.id
  /-- The step is the only one that has it. -/
  onlyPage : (ofEntries ids entries).steps.filter (fun step => step.id == page.id) = [page]
  /-- The step makes content of the title. -/
  creates : ∃ created, page.kind.created? = some created ∧ created.title = clean title

/-- An item that leads to a page was asked for as one that leads to content of a title. -/
theorem exists_of_lead_item {lead : Lead} (leads : lead.item steps = .ok item)
    (isPage : item.kind = .page) :
    ∃ title page, lead = .page title ∧ steps.find? (createsTitled (clean title)) = some page ∧
      item.pageId = some page.id := by
  cases lead with
  | address title url =>
      cases leads
      cases isPage
  | page title =>
      rw [Lead.item] at leads
      split at leads
      · cases leads
      · rename_i page isFirst
        cases leads
        exact ⟨title, page, rfl, isFirst, rfl⟩

theorem exists_of_createsTitled {title : String} {step : Step}
    (isTitled : createsTitled title step = true) :
    ∃ created, step.kind.created? = some created ∧ created.title = title := by
  rw [createsTitled, Option.any_eq_true] at isTitled
  obtain ⟨created, creates, sameTitle⟩ := isTitled
  exact ⟨created, creates, beq_iff_eq.mp sameTitle⟩

/-- Every recovered item that leads to a page is a reference. -/
theorem exists_isReference (nodup : ((ofEntries ids entries).steps.map Step.id).Nodup)
    {place index : Nat} (isItem : itemAt? (ofEntries ids entries).steps place index = some item)
    (isPage : item.kind = .page) :
    ∃ entryPlace name title page,
      IsReference ids entries place index item entryPlace name title page := by
  obtain ⟨entryPlace, brings⟩ := exists_bringsItem isItem
  obtain ⟨entry, demand, brought, isEntry, asks, reads, before, id, menu, after, name, lead,
    steps_eq, later_eq, place_eq, index_eq, rfl, named, leads⟩ := brings.exists_addsItem
  have toEnd := grows_ofEntries ids entries (entryPlace + 1)
  have isMenuStep : (stepsAfter ids entries (entryPlace + 1))[place]? =
      some (menuStep id (addItem brought menu)) := by
    rw [later_eq, place_eq, getElem?_append_cons_self]
  -- The item that was brought is still the one that is there in the end.
  have sameItem : brought = item := by
    have stays : itemAt? (stepsAfter ids entries (entryPlace + 1)) place index = some brought := by
      rw [itemAt?_of_menuStep isMenuStep, index_eq, addItem, List.getElem?_concat_length]
    rw [toEnd.itemAt?_eq stays] at isItem
    exact Option.some.inj isItem
  subst sameItem
  obtain ⟨title, page, rfl, isFirst, hasId⟩ := exists_of_lead_item leads isPage
  -- So is the step to which it led when it was brought.
  obtain ⟨grown, isGrown, sameId, sameCreated⟩ :=
    (grows_ofEntries ids entries entryPlace).exists_page (List.mem_of_find?_eq_some isFirst)
  obtain ⟨created, creates, sameTitle⟩ := exists_of_createsTitled (List.find?_some isFirst)
  obtain ⟨full, isLater, sameName, -⟩ := toEnd.exists_menu isMenuStep
  obtain ⟨nameClean, notEmpty⟩ := clean_name_of_menuStep (List.mem_of_getElem? isLater)
  refine ⟨entryPlace, name, title, grown, ?_⟩
  constructor
  · intro other
    constructor
    · exact fun otherBrings => otherBrings.entryPlace_eq brings
    · rintro rfl
      exact brings
  · exact isAcceptedAt_of_read isEntry reads
  · rw [isEntry, Option.map_some, asks]
  · exact ⟨id, full, isLater, sameName.trans named, by rwa [nameClean]⟩
  · rw [hasId, sameId]
  · exact filter_id_eq nodup isGrown
  · exact ⟨created, sameCreated.trans creates, sameTitle⟩

end Recovery

/-- The references of the menu items that are recovered from a script can be followed. -/
structure Document.ReferencesResolve (ids : Recovery.Ids) (document : Document) : Prop where
  /-- Every item that leads to a page is a reference to the content of a step. -/
  isReference : ∀ place index item,
    itemAt? (document.recover ids).steps place index = some item → item.kind = .page →
      ∃ entryPlace name title page,
        IsReference ids document.entries place index item entryPlace name title page
  /-- When the steps are compiled, the commands that add content to menus are those for such
  items, one for each of them. -/
  attachments_eq : ∀ (settings : Settings) (plan : Plan),
    plan.steps = (document.recover ids).steps →
      (Compile.pageItems plan.steps).map (Compile.attachment? plan.steps) =
        ((plan.compile settings).instructions.filter Instruction.attachesContent).map some

/-- The references that are recovered from a script can be followed, if identifiers do not
repeat. -/
theorem Document.referencesResolve {ids : Recovery.Ids} {document : Document}
    (nodup : ((document.recover ids).steps.map Step.id).Nodup) :
    document.ReferencesResolve ids where
  isReference := fun _ _ _ isItem isPage => exists_isReference nodup isItem isPage
  attachments_eq := by
    intro settings plan steps_eq
    have inRecovered : ∀ step ∈ plan.steps, step ∈ (ofEntries ids document.entries).steps := by
      rw [steps_eq]
      exact fun step member => member
    have noPreamble : (Compile.preamble settings plan.title).filter
        Instruction.attachesContent = [] := by
      rw [Compile.preamble, Compile.titleOption]
      split <;> rfl
    rw [Compile.instructions_compile, List.filter_append, noPreamble, List.nil_append]
    symm
    apply Compile.filter_blocksFrom
    · exact fun step member => kind_ne_addRole (inRecovered step member)
    · rintro ⟨id, kind⟩ member menu rfl
      obtain ⟨nameClean, notEmpty⟩ := clean_name_of_menuStep (inRecovered _ member)
      rwa [nameClean]
    · rintro ⟨id, kind⟩ member menu rfl item inMenu isPage
      obtain ⟨place, isStep⟩ := List.mem_iff_getElem?.mp (inRecovered _ member)
      obtain ⟨index, isIndex⟩ := List.mem_iff_getElem?.mp inMenu
      have isItem : itemAt? (ofEntries ids document.entries).steps place index = some item := by
        rw [itemAt?_of_menuStep isStep, isIndex]
      obtain ⟨entryPlace, name, title, page, reference⟩ :=
        exists_isReference nodup isItem isPage
      obtain ⟨created, creates, -⟩ := reference.creates
      have inSteps : page ∈ (ofEntries ids document.entries).steps := by
        have member : page ∈ (ofEntries ids document.entries).steps.filter
            (fun step => step.id == page.id) := by
          rw [reference.onlyPage]
          exact List.mem_singleton_self page
        exact (List.mem_filter.mp member).1
      have isTarget : Compile.target? plan.steps item.pageId = some created := by
        rw [reference.pageId_eq, Compile.target?, Option.bind_some, steps_eq,
          find?_id_eq nodup inSteps, Option.bind_some, creates]
      rw [isTarget]
      rfl

theorem referencesResolve_tourPlan :
    (((tourPlan.compile .default).recover tally).steps.map Step.id).Nodup ∧
      (tourPlan.compile .default).ReferencesResolve tally :=
  ⟨nodup_ids_recover tally_injective _,
    Document.referencesResolve (nodup_ids_recover tally_injective _)⟩

end SiteScript

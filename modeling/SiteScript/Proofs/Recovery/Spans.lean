import SiteScript.Proofs.Recovery.Extension
import SiteScript.Proofs.Recovery.Items
import SiteScript.Proofs.Recovery.MenuRequests

/-!
# Spans of menus

Several menus may be made one after the other, also with equal names, and what is asked of them
comes in any order.  What is asked of a menu of some name goes to the one made last under that
name.  So every menu has a span of the script: it begins behind the entry that makes the menu, and
ends where a menu of the same name is made again.
-/

namespace SiteScript

open Recovery
open Text (clean)

namespace Recovery

variable {ids : Ids} {entries kept behind : List Entry} {entry : Entry} {name : String}
variable {steps later : List Step} {place : Nat} {menu : Menu}

/-! ## Spans -/

/-- What comes behind making a menu of a name, up to where such a menu is made again. -/
def span (name : String) (behind : List Entry) : List Entry :=
  behind.takeWhile fun entry => !entry.makesMenu name

/-- A menu with the items that the entries of its span ask for, in their order, and with the place
that the last one asks for. -/
structure IsGathered (steps : List Step) (behind : List Entry) (menu : Menu) : Prop where
  items_eq : menu.items.map Except.ok =
    ((span menu.name behind).filterMap (Entry.leadFor? menu.name)).map (Lead.item steps)
  location_eq : menu.location =
    ((span menu.name behind).filterMap (Entry.locationFor? menu.name)).getLast?

/-- The menu that a step at a place makes: an entry makes it, which adds the step, and its span
brings it together. -/
def IsMadeFrom (steps : List Step) (kept : List Entry) (place : Nat) (menu : Menu) : Prop :=
  ∃ before creation behind, kept = before ++ creation :: behind ∧
    creation.makesMenu menu.name = true ∧ (before.flatMap Entry.addedKinds).length = place ∧
    IsGathered steps behind menu

section

variable {α : Type} {brings : Entry → Option α}

/-- One more entry brings what it does if no such menu has been made again. -/
theorem filterMap_span_append (bringsNone : entry.makesMenu name = true → brings entry = none) :
    (span name (behind ++ [entry])).filterMap brings =
      (span name behind).filterMap brings ++
        if behind.any (Entry.makesMenu name) then [] else (brings entry).toList := by
  induction behind with
  | nil =>
      cases makes : entry.makesMenu name with
      | true => simp [span, makes, bringsNone makes]
      | false => cases brought : brings entry <;> simp [span, makes, brought]
  | cons other rest inductionHypothesis =>
      cases makes : other.makesMenu name with
      | true => simp [span, makes]
      | false =>
          simp only [span] at inductionHypothesis
          cases brought : brings other <;> simp [span, makes, brought, inductionHypothesis]

/-- Nothing comes from an entry that brings nothing, or behind the span. -/
theorem filterMap_span_of_leaves
    (bringsNone : entry.makesMenu name = true → brings entry = none)
    (leaves : behind.any (Entry.makesMenu name) = true ∨ brings entry = none) :
    (span name (behind ++ [entry])).filterMap brings = (span name behind).filterMap brings := by
  rw [filterMap_span_append bringsNone]
  rcases leaves with isClosed | noneBrought
  · rw [isClosed, if_pos rfl, List.append_nil]
  · rw [noneBrought, Option.toList_none, ite_self, List.append_nil]

/-- What an entry in the span brings comes last. -/
theorem filterMap_span_of_open {value : α}
    (bringsNone : entry.makesMenu name = true → brings entry = none)
    (isOpen : behind.any (Entry.makesMenu name) = false) (brought : brings entry = some value) :
    (span name (behind ++ [entry])).filterMap brings =
      (span name behind).filterMap brings ++ [value] := by
  rw [filterMap_span_append bringsNone, isOpen, if_neg Bool.false_ne_true, brought,
    Option.toList_some]

end

/-! ## Leads -/

theorem createsTitled_eq {title : String} {step grown : Step}
    (completes : Completes step.kind grown.kind) :
    createsTitled title grown = createsTitled title step := by
  rw [createsTitled, createsTitled, completes.created?_eq]

/-- A lead that could be followed is followed to the same item when the steps grow. -/
theorem Grows.lead_item_eq (grows : Grows steps later) {lead : Lead} {item : MenuItem}
    (leads : lead.item steps = .ok item) : lead.item later = .ok item := by
  cases lead with
  | address title url => exact leads
  | page title =>
      rw [Lead.item] at leads ⊢
      split at leads
      · cases leads
      · rename_i page isFirst
        obtain ⟨isTitled, found, inBounds, isPage, noneBefore⟩ :=
          List.find?_eq_some_iff_getElem.mp isFirst
        obtain ⟨grown, isGrown, sameId, completes⟩ :=
          grows found page (List.getElem?_eq_some_iff.mpr ⟨inBounds, isPage⟩)
        obtain ⟨inLaterBounds, isGrownPage⟩ := List.getElem?_eq_some_iff.mp isGrown
        have isFirstLater : later.find? (createsTitled (clean title)) = some grown := by
          rw [List.find?_eq_some_iff_getElem]
          refine ⟨(createsTitled_eq completes).trans isTitled, found, inLaterBounds, isGrownPage,
            ?_⟩
          intro earlier isEarlier
          have inSteps : earlier < steps.length := Nat.lt_trans isEarlier inBounds
          obtain ⟨other, isOther, -, completesOther⟩ :=
            grows earlier steps[earlier] (List.getElem?_eq_getElem inSteps)
          obtain ⟨_, isOtherStep⟩ := List.getElem?_eq_some_iff.mp isOther
          rw [isOtherStep, createsTitled_eq completesOther]
          exact noneBefore earlier isEarlier
        simp only [isFirstLater, sameId, leads]

/-- Leads that could all be followed are followed to the same items when the steps grow. -/
theorem Grows.map_lead_item_eq (grows : Grows steps later) {leads : List Lead}
    {items : List MenuItem} (follow : items.map Except.ok = leads.map (Lead.item steps)) :
    items.map Except.ok = leads.map (Lead.item later) := by
  rw [follow]
  apply List.map_congr_left
  intro lead isLead
  have isFollowed : lead.item steps ∈ items.map Except.ok := by
    rw [follow]
    exact List.mem_map_of_mem isLead
  obtain ⟨item, -, leadsTo⟩ := List.mem_map.mp isFollowed
  rw [← leadsTo, grows.lead_item_eq leadsTo.symm]

/-! ## One more entry -/

/-- An entry that asks nothing of a menu, or comes behind the span of the menu, leaves it. -/
theorem IsGathered.append (gathered : IsGathered steps behind menu) (grows : Grows steps later)
    (leaves : behind.any (Entry.makesMenu menu.name) = true ∨
      (entry.leadFor? menu.name = none ∧ entry.locationFor? menu.name = none)) :
    IsGathered later (behind ++ [entry]) menu := by
  constructor
  · rw [filterMap_span_of_leaves (fun makes => (asksNothing_of_makesMenu makes).1)
      (leaves.imp_right And.left)]
    exact grows.map_lead_item_eq gathered.items_eq
  · rw [filterMap_span_of_leaves (fun makes => (asksNothing_of_makesMenu makes).2)
      (leaves.imp_right And.right)]
    exact gathered.location_eq

/-- An item that is asked for in the span of a menu is the last one of the menu. -/
theorem IsGathered.addItem (gathered : IsGathered steps behind menu) (grows : Grows steps later)
    (isOpen : behind.any (Entry.makesMenu menu.name) = false) {lead : Lead} {item : MenuItem}
    (asks : entry.leadFor? menu.name = some lead)
    (asksNoPlace : entry.locationFor? menu.name = none) (leads : lead.item steps = .ok item) :
    IsGathered later (behind ++ [entry]) (addItem item menu) where
  items_eq := by
    have sameName : (Recovery.addItem item menu).name = menu.name := rfl
    rw [sameName, filterMap_span_of_open (fun makes => (asksNothing_of_makesMenu makes).1) isOpen
      asks, Recovery.addItem, List.map_append, List.map_append,
      grows.map_lead_item_eq gathered.items_eq, List.map_singleton, List.map_singleton,
      grows.lead_item_eq leads]
  location_eq := by
    have sameName : (Recovery.addItem item menu).name = menu.name := rfl
    rw [sameName, filterMap_span_of_leaves (fun makes => (asksNothing_of_makesMenu makes).2)
      (Or.inr asksNoPlace)]
    exact gathered.location_eq

/-- A place that is asked for in the span of a menu is the one that the menu has. -/
theorem IsGathered.setLocation (gathered : IsGathered steps behind menu)
    (grows : Grows steps later) (isOpen : behind.any (Entry.makesMenu menu.name) = false)
    {location : String} (asks : entry.locationFor? menu.name = some location)
    (asksNoItem : entry.leadFor? menu.name = none) :
    IsGathered later (behind ++ [entry]) (setLocation location menu) where
  items_eq := by
    have sameName : (Recovery.setLocation location menu).name = menu.name := rfl
    rw [sameName, filterMap_span_of_leaves (fun makes => (asksNothing_of_makesMenu makes).1)
      (Or.inr asksNoItem)]
    exact grows.map_lead_item_eq gathered.items_eq
  location_eq := by
    have sameName : (Recovery.setLocation location menu).name = menu.name := rfl
    rw [sameName, filterMap_span_of_open (fun makes => (asksNothing_of_makesMenu makes).2) isOpen
      asks, List.getLast?_concat]
    rfl

/-! ## The menu made last -/

/-- Where a step was added that makes a menu. -/
theorem bareKinds_getElem?_eq_menu_iff :
    (bareKinds steps)[place]? = some (.createMenu (.named name)) ↔
      ∃ id menu, steps[place]? = some (menuStep id menu) ∧ menu.name = name := by
  rw [bareKinds, List.getElem?_map, Option.map_eq_some_iff]
  constructor
  · rintro ⟨⟨id, kind⟩, isStep, isNamed⟩
    cases kind with
    | createMenu menu =>
        exact ⟨id, menu, isStep, congrArg Menu.name (StepKind.createMenu.inj isNamed)⟩
    | _ => cases isNamed
  · rintro ⟨id, menu, isStep, rfl⟩
    exact ⟨menuStep id menu, isStep, rfl⟩

/-- The span of a menu has ended exactly if a later step makes a menu of that name. -/
theorem any_makesMenu_iff (bareKinds_eq : bareKinds steps = kept.flatMap Entry.addedKinds)
    {before : List Entry} {creation : Entry} {own : String}
    (kept_eq : kept = before ++ creation :: behind)
    (makes : creation.makesMenu own = true)
    (place_eq : (before.flatMap Entry.addedKinds).length = place) :
    behind.any (Entry.makesMenu name) = true ↔
      ∃ other id menu, place < other ∧ steps[other]? = some (menuStep id menu) ∧
        menu.name = name := by
  have kindsBehind : (bareKinds steps).drop (place + 1) = behind.flatMap Entry.addedKinds := by
    rw [bareKinds_eq, kept_eq, List.flatMap_append, List.flatMap_cons,
      addedKinds_of_makesMenu makes, ← place_eq, List.drop_length_add_append]
    rfl
  have isBehind : behind.any (Entry.makesMenu name) = true ↔
      StepKind.createMenu (.named name) ∈ (bareKinds steps).drop (place + 1) := by
    simp only [kindsBehind, List.any_eq_true, Entry.makesMenu, decide_eq_true_iff,
      List.mem_flatMap]
  rw [isBehind, List.mem_iff_getElem?]
  constructor
  · rintro ⟨index, isKind⟩
    rw [List.getElem?_drop, bareKinds_getElem?_eq_menu_iff] at isKind
    obtain ⟨id, menu, isStep, isNamed⟩ := isKind
    exact ⟨place + 1 + index, id, menu, by omega, isStep, isNamed⟩
  · rintro ⟨other, id, menu, isLater, isStep, isNamed⟩
    obtain ⟨index, rfl⟩ := Nat.exists_eq_add_of_lt isLater
    refine ⟨index, ?_⟩
    rw [List.getElem?_drop, bareKinds_getElem?_eq_menu_iff, Nat.add_right_comm]
    exact ⟨id, menu, isStep, isNamed⟩

/-- A change goes to one step, which makes a menu of the name, and no later step makes one. -/
theorem exists_place_of_changeMenu {change : Menu → Menu}
    (met : changeMenu steps name change = .ok later) :
    ∃ changed id menu, steps[changed]? = some (menuStep id menu) ∧ menu.name = clean name ∧
      later[changed]? = some (menuStep id (change menu)) ∧
      (∀ place : Nat, place ≠ changed → later[place]? = steps[place]?) ∧
      ∀ (place : Nat) (id : String) (other : Menu), changed < place →
        steps[place]? = some (menuStep id other) → other.name ≠ clean name := by
  obtain ⟨before, id, menu, after, rfl, named, rfl, noneBehind⟩ := exists_of_changeMenu met
  refine ⟨before.length, id, menu, getElem?_append_cons_self _ _ _, named,
    getElem?_append_cons_self _ _ _, fun place isOther => getElem?_replaced isOther _ _, ?_⟩
  intro place otherId other isBehind isStep
  obtain ⟨index, rfl⟩ := Nat.exists_eq_add_of_lt isBehind
  rw [Nat.add_assoc, List.getElem?_append_right (Nat.le_add_right _ _), Nat.add_sub_cancel_left,
    List.getElem?_cons_succ] at isStep
  exact noneBehind otherId other (List.mem_of_getElem? isStep)

/-! ## Following a script -/

section

variable {id : String} {demand : Demand}

/-- A menu stays as it is when an entry asks nothing of it, or when a menu of its name has been made
again. -/
theorem IsMadeFrom.append (made : IsMadeFrom steps kept place menu)
    (bareKinds_eq : bareKinds steps = kept.flatMap Entry.addedKinds)
    (grows : Grows steps later)
    (leaves : (∃ other id again, place < other ∧ steps[other]? = some (menuStep id again) ∧
        again.name = menu.name) ∨
      (entry.leadFor? menu.name = none ∧ entry.locationFor? menu.name = none)) :
    IsMadeFrom later (kept ++ [entry]) place menu := by
  obtain ⟨before, creation, behind, kept_eq, makes, place_eq, gathered⟩ := made
  refine ⟨before, creation, behind ++ [entry], by simp [kept_eq], makes, place_eq, ?_⟩
  apply gathered.append grows
  rw [any_makesMenu_iff bareKinds_eq kept_eq makes place_eq]
  exact leaves

/-- A change of a menu goes to the menu of that name which is still in its span. -/
theorem isMadeFrom_of_changeMenu {change : Menu → Menu}
    (made : ∀ place id menu, steps[place]? = some (menuStep id menu) →
      IsMadeFrom steps kept place menu)
    (bareKinds_eq : bareKinds steps = kept.flatMap Entry.addedKinds)
    (grows : Grows steps later) (met : changeMenu steps name change = .ok later)
    (sameName : ∀ menu, (change menu).name = menu.name)
    (asksNoOther : ∀ other, clean name ≠ other →
      entry.leadFor? other = none ∧ entry.locationFor? other = none)
    (gathers : ∀ behind menu, menu.name = clean name → IsGathered steps behind menu →
      behind.any (Entry.makesMenu menu.name) = false →
        IsGathered later (behind ++ [entry]) (change menu))
    (isStep : later[place]? = some (menuStep id menu)) :
    IsMadeFrom later (kept ++ [entry]) place menu := by
  obtain ⟨changed, changedId, old, isOld, isNamed, isNew, othersStay, noneBehind⟩ :=
    exists_place_of_changeMenu met
  by_cases isChanged : place = changed
  · subst isChanged
    rw [isNew] at isStep
    cases isStep
    obtain ⟨before, creation, behind, kept_eq, makes, place_eq, gathered⟩ :=
      made place id old isOld
    have isOpen : behind.any (Entry.makesMenu old.name) = false := by
      rw [Bool.eq_false_iff, ne_eq, any_makesMenu_iff bareKinds_eq kept_eq makes place_eq]
      rintro ⟨other, otherId, again, isBehind, isAgain, sameAgain⟩
      exact noneBehind other otherId again isBehind isAgain (sameAgain.trans isNamed)
    refine ⟨before, creation, behind ++ [entry], by simp [kept_eq], ?_, place_eq,
      gathers behind old isNamed gathered isOpen⟩
    rw [sameName, makes]
  · rw [othersStay place isChanged] at isStep
    apply (made place id menu isStep).append bareKinds_eq grows
    by_cases isSameName : clean name = menu.name
    · have isBefore : place < changed := by
        rcases Nat.lt_or_gt_of_ne isChanged with isBefore | isBehind
        · exact isBefore
        · exact absurd isSameName.symm (noneBehind place id menu isBehind isStep)
      exact Or.inl ⟨changed, changedId, old, isBefore, isOld, isNamed.trans isSameName⟩
    · exact Or.inr (asksNoOther menu.name isSameName)

/-- A menu that has just been made has no items and no place. -/
theorem isMadeFrom_new (bareKinds_eq : bareKinds steps = kept.flatMap Entry.addedKinds)
    (makes : entry.makesMenu name = true) (later : List Step) :
    IsMadeFrom later (kept ++ [entry]) steps.length (.named name) := by
  refine ⟨kept, entry, [], rfl, makes, ?_, rfl, rfl⟩
  rw [← bareKinds_eq, bareKinds, List.length_map]

/-- An image goes to no menu. -/
theorem Change.menuStep_of_attachImage {url : String}
    (change : Change ids steps (.attachImage url) later)
    (isStep : later[place]? = some (menuStep id menu)) :
    steps[place]? = some (menuStep id menu) := by
  cases change with
  | attachImage before after contentId _ draft =>
      by_cases isOther : place = before.length
      · rw [isOther, getElem?_append_cons_self] at isStep
        obtain ⟨type, details⟩ := draft
        cases type <;> cases isStep
      · rw [getElem?_replaced isOther _ { id := contentId, kind := (withImage draft url).kind }]
        exact isStep

/-- An entry that is read leaves every menu made from its span. -/
theorem isMadeFrom_append
    (made : ∀ place id menu, steps[place]? = some (menuStep id menu) →
      IsMadeFrom steps kept place menu)
    (bareKinds_eq : bareKinds steps = kept.flatMap Entry.addedKinds)
    (asks : entry.demand = .ok demand) (met : demand.meet ids steps = .ok later)
    (isStep : later[place]? = some (menuStep id menu)) :
    IsMadeFrom later (kept ++ [entry]) place menu := by
  have change := change_of_meet met
  have grows := change.grows
  cases demand with
  | add kinds =>
      cases change
      obtain ⟨added, isAppended, sameKinds⟩ := exists_pushAll_append ids steps kinds
      rw [isAppended, List.getElem?_append] at isStep
      split at isStep
      · apply (made place id menu isStep).append bareKinds_eq grows
        rw [Entry.leadFor?, Entry.locationFor?, asks]
        exact Or.inr ⟨rfl, rfl⟩
      · rename_i isBehind
        have isAsked : StepKind.createMenu menu ∈ kinds := by
          rw [← sameKinds]
          exact List.mem_map_of_mem (List.mem_of_getElem? isStep)
        obtain ⟨line, name, -, -, -, rfl, isOnly⟩ := exists_of_makes asks isAsked
        cases isOnly
        have isFirst : place = steps.length := by
          have onlyOne : added.length = 1 := by
            rw [← List.length_map Step.kind, sameKinds, List.length_singleton]
          obtain ⟨inBounds, -⟩ := List.getElem?_eq_some_iff.mp isStep
          omega
        rw [isFirst]
        exact isMadeFrom_new bareKinds_eq (makesMenu_of_demand asks isAsked) _
  | attachImage url =>
      apply (made place id menu (change.menuStep_of_attachImage isStep)).append bareKinds_eq grows
      rw [Entry.leadFor?, Entry.locationFor?, asks]
      exact Or.inr ⟨rfl, rfl⟩
  | addItem name lead =>
      rw [Demand.meet] at met
      cases leads : lead.item steps with
      | error reason =>
          rw [leads] at met
          cases met
      | ok item =>
          rw [leads] at met
          refine isMadeFrom_of_changeMenu made bareKinds_eq grows met (fun _ => rfl) ?_ ?_ isStep
          · intro other isOther
            rw [Entry.leadFor?, Entry.locationFor?, asks]
            exact ⟨if_neg isOther, rfl⟩
          · intro behind menu named gathered isOpen
            apply gathered.addItem grows isOpen _ _ leads
            · rw [Entry.leadFor?, asks]
              exact if_pos named.symm
            · rw [Entry.locationFor?, asks]
  | assignMenu name location =>
      refine isMadeFrom_of_changeMenu made bareKinds_eq grows met (fun _ => rfl) ?_ ?_ isStep
      · intro other isOther
        rw [Entry.leadFor?, Entry.locationFor?, asks]
        exact ⟨rfl, if_neg isOther⟩
      · intro behind menu named gathered isOpen
        apply gathered.setLocation grows isOpen
        · rw [Entry.locationFor?, asks]
          exact if_pos named.symm
        · rw [Entry.leadFor?, asks]
  | nothing =>
      cases met
      apply (made place id menu isStep).append bareKinds_eq grows
      rw [Entry.leadFor?, Entry.locationFor?, asks]
      exact Or.inr ⟨rfl, rfl⟩

/-- Every recovered menu is made from its span. -/
theorem isMadeFrom_ofEntries (ids : Ids) (entries : List Entry)
    (isStep : (ofEntries ids entries).steps[place]? = some (menuStep id menu)) :
    IsMadeFrom (ofEntries ids entries).steps (accepted ids entries) place menu := by
  have ofEvery : ∀ (place : Nat) (id : String) (menu : Menu),
      (ofEntries ids entries).steps[place]? = some (menuStep id menu) →
        IsMadeFrom (ofEntries ids entries).steps (accepted ids entries) place menu := by
    refine run_induction
      (motive := fun _ kept recovery => ∀ (place : Nat) (id : String) (menu : Menu),
        recovery.steps[place]? = some (menuStep id menu) →
          IsMadeFrom recovery.steps kept place menu)
      (fun place id menu isStep => nomatch isStep) ?_ ?_ entries
    · intro entries entry later made reads place id menu isStep
      obtain ⟨demand, asks, met⟩ := readEntry_eq_ok_iff.mp reads
      exact isMadeFrom_append made (bareKinds_ofEntries ids entries) asks met isStep
    · exact fun entries entry reason made _ => made
  exact ofEvery place id menu isStep

end

/-! ## Dropped entries -/

/-- Whether an entry that is not dropped makes a menu of a name in front of a place. -/
def IsMenuMadeBefore (ids : Ids) (entries : List Entry) (place : Nat) (name : String) : Prop :=
  ∃ earlier creation, earlier < place ∧ entries[earlier]? = some creation ∧
    isAcceptedAt (ofEntries ids entries).dropped earlier = true ∧ creation.makesMenu name = true

theorem mem_accepted : entry ∈ accepted ids entries ↔
    ∃ place : Nat, entries[place]? = some entry ∧
      isAcceptedAt (ofEntries ids entries).dropped place = true := by
  simp only [accepted, acceptedOf, List.mem_map, List.mem_filter, Prod.exists, exists_and_right,
    exists_eq_right, List.mem_zipIdx_iff_getElem?]

/-- The first entries of a script are accepted as they are in the whole script. -/
theorem isAcceptedAt_take {earlier : Nat} (isBefore : earlier < place)
    (inEntries : place ≤ entries.length) :
    isAcceptedAt (ofEntries ids (entries.take place)).dropped earlier =
      isAcceptedAt (ofEntries ids entries).dropped earlier := by
  have dropped_eq := dropped_ofEntries_append ids (entries.take place) (entries.drop place)
  rw [List.take_append_drop, List.length_take_of_le inEntries] at dropped_eq
  rw [← dropped_eq, isAcceptedAt, isAcceptedAt, decide_eq_decide, not_iff_not]
  simp only [List.mem_map, List.mem_filter, decide_eq_true_eq]
  constructor
  · rintro ⟨drop, ⟨isDrop, -⟩, isEarlier⟩
    exact ⟨drop, isDrop, isEarlier⟩
  · rintro ⟨drop, isDrop, rfl⟩
    exact ⟨drop, ⟨isDrop, isBefore⟩, rfl⟩

/-- A menu is made in front of a place exactly if a step is there that makes it. -/
theorem isMenuMadeBefore_iff (isPlace : place ≤ entries.length) (name : String) :
    IsMenuMadeBefore ids entries place name ↔
      ∃ (other : Nat) (id : String) (menu : Menu),
        (stepsAfter ids entries place)[other]? = some (menuStep id menu) ∧ menu.name = name := by
  have isMade : (∃ creation ∈ accepted ids (entries.take place),
      creation.makesMenu name = true) ↔
        StepKind.createMenu (.named name) ∈ bareKinds (stepsAfter ids entries place) := by
    rw [stepsAfter, bareKinds_ofEntries, List.mem_flatMap]
    simp only [Entry.makesMenu, decide_eq_true_iff]
  simp only [← bareKinds_getElem?_eq_menu_iff, ← List.mem_iff_getElem?, ← isMade,
    mem_accepted]
  constructor
  · rintro ⟨earlier, creation, isBefore, isCreation, isAccepted, makes⟩
    refine ⟨creation, ⟨earlier, ?_, ?_⟩, makes⟩
    · rw [List.getElem?_take_of_lt isBefore, isCreation]
    · rw [isAcceptedAt_take isBefore isPlace, isAccepted]
  · rintro ⟨creation, ⟨earlier, isCreation, isAccepted⟩, makes⟩
    have isBefore : earlier < place := by
      obtain ⟨inBounds, -⟩ := List.getElem?_eq_some_iff.mp isCreation
      rw [List.length_take] at inBounds
      omega
    rw [List.getElem?_take_of_lt isBefore] at isCreation
    rw [isAcceptedAt_take isBefore isPlace] at isAccepted
    exact ⟨earlier, creation, isBefore, isCreation, isAccepted, makes⟩

/-- A menu can be changed exactly if a step is there that makes one of its name. -/
theorem exists_changeMenu_iff (steps : List Step) (name : String) (change : Menu → Menu) :
    (∃ later, changeMenu steps name change = .ok later) ↔
      ∃ (other : Nat) (id : String) (menu : Menu),
        steps[other]? = some (menuStep id menu) ∧ menu.name = clean name := by
  constructor
  · rintro ⟨later, met⟩
    obtain ⟨changed, id, menu, isOld, named, -⟩ := exists_place_of_changeMenu met
    exact ⟨changed, id, menu, isOld, named⟩
  · rintro ⟨other, id, menu, isStep, named⟩
    rw [changeMenu]
    split
    · exact ⟨_, rfl⟩
    · rename_i noReplacement
      have noneThere := replaceLast?_eq_none_iff.mp noReplacement _ (List.mem_of_getElem? isStep)
      simp [withMenu?, menuStep, named] at noneThere

/-- An entry that changes a menu is dropped exactly if no menu of its name has been made before. -/
theorem mem_dropped_iff_of_changeMenu (isEntry : entries[place]? = some entry)
    {change : Menu → Menu}
    (reads : readEntry ids (stepsAfter ids entries place) entry =
      changeMenu (stepsAfter ids entries place) name change) :
    place ∈ (ofEntries ids entries).dropped.map Drop.index ↔
      ¬ IsMenuMadeBefore ids entries place (clean name) := by
  obtain ⟨inBounds, -⟩ := List.getElem?_eq_some_iff.mp isEntry
  rw [isMenuMadeBefore_iff (Nat.le_of_lt inBounds),
    ← exists_changeMenu_iff (stepsAfter ids entries place) name change, ← reads]
  cases outcome : readEntry ids (stepsAfter ids entries place) entry with
  | ok later =>
      have isAccepted := isAcceptedAt_of_read isEntry outcome
      rw [isAcceptedAt, decide_eq_true_iff] at isAccepted
      simp [isAccepted]
  | error reason =>
      have isDropped : place ∈ (ofEntries ids entries).dropped.map Drop.index :=
        List.mem_map_of_mem (mem_dropped_of_error isEntry outcome)
      simp [isDropped]

end Recovery

/-- What a script asks of menus reaches the right ones. -/
structure Document.ReachesMenus (ids : Recovery.Ids) (document : Document) : Prop where
  /-- A recovered menu has been made by an entry, and has the items that are asked for in the span
  behind it, in their order, and the place that is asked for last. -/
  isMadeFrom : ∀ (place : Nat) (id : String) (menu : Menu),
    (document.recover ids).steps[place]? = some (menuStep id menu) →
      IsMadeFrom (document.recover ids).steps (accepted ids document.entries) place menu
  /-- Which entries make a menu. -/
  makesMenu_iff : ∀ (entry : Entry) (name : String), entry.makesMenu name = true ↔
    ∃ line menu rest, entry = .known (.command line) ∧
      Shell.split line = "wp" :: "menu" :: "create" :: menu :: rest ∧
      clean menu = name ∧ name ≠ ""
  /-- Which entries ask for an item. -/
  leadFor?_iff : ∀ (entry : Entry) (name : String) (lead : Lead),
    entry.leadFor? name = some lead ↔
      ∃ line, entry = .known (.command line) ∧ ItemWords name lead (Shell.split line)
  /-- Which entries ask for a place. -/
  locationFor?_iff : ∀ (entry : Entry) (name location : String),
    entry.locationFor? name = some location ↔
      ∃ line menu rest, entry = .known (.command line) ∧
        Shell.split line = "wp" :: "menu" :: "location" :: "assign" :: menu :: location :: rest ∧
        clean menu = name
  /-- A command that adds an item by its title and address is dropped exactly if no menu of its name
  has been made before. -/
  item_dropped_iff : ∀ (place : Nat) (line menu title url : String) (rest : List String),
    document.entries[place]? = some (.known (.command line)) →
    Shell.split line = "wp" :: "menu" :: "item" :: "add-custom" :: menu :: title :: url :: rest →
    (place ∈ (document.recover ids).dropped.map Drop.index ↔
      ¬ IsMenuMadeBefore ids document.entries place (clean menu))
  /-- So is a command that gives a menu its place. -/
  location_dropped_iff : ∀ (place : Nat) (line menu location : String) (rest : List String),
    document.entries[place]? = some (.known (.command line)) →
    Shell.split line = "wp" :: "menu" :: "location" :: "assign" :: menu :: location :: rest →
    (place ∈ (document.recover ids).dropped.map Drop.index ↔
      ¬ IsMenuMadeBefore ids document.entries place (clean menu))

/-- What any script asks of menus reaches the right ones. -/
theorem Document.reachesMenus (ids : Recovery.Ids) (document : Document) :
    document.ReachesMenus ids where
  isMadeFrom := fun _ _ _ isStep => isMadeFrom_ofEntries ids document.entries isStep
  makesMenu_iff := Recovery.makesMenu_iff
  leadFor?_iff := Recovery.leadFor?_iff
  locationFor?_iff := Recovery.locationFor?_iff
  item_dropped_iff := by
    intro place line menu title url rest isEntry words_eq
    have asked : (Request.addMenuItem menu title url).IsAskedBy (Shell.split line) :=
      ⟨rest, words_eq⟩
    apply mem_dropped_iff_of_changeMenu isEntry
    rw [readEntry_eq, demand_eq_of_isAskedBy asked]
    rfl
  location_dropped_iff := by
    intro place line menu location rest isEntry words_eq
    have asked : (Request.assignMenu menu location).IsAskedBy (Shell.split line) :=
      ⟨rest, words_eq⟩
    apply mem_dropped_iff_of_changeMenu isEntry
    rw [readEntry_eq, demand_eq_of_isAskedBy asked]
    rfl

end SiteScript

import SiteScript.Proofs.Recovery.Accounting

/-!
# Where menu items come from

A script is followed entry by entry.  A menu item that has been recovered stays at its place,
so it was brought by exactly one entry, and that entry asks for it.
-/

namespace SiteScript.Recovery

open Text (clean)

variable {ids : Ids} {entries : List Entry} {steps later : List Step} {item : MenuItem}

/-! ## Items -/

/-- The menu that a step makes. -/
def menu? : StepKind → Option Menu
  | .createMenu menu => some menu
  | _ => none

/-- The item at an index of the menu that the step at a place makes. -/
def itemAt? (steps : List Step) (place index : Nat) : Option MenuItem :=
  steps[place]?.bind fun step => (menu? step.kind).bind fun menu => menu.items[index]?

theorem exists_of_itemAt? {place index : Nat} (isItem : itemAt? steps place index = some item) :
    ∃ id menu, steps[place]? = some (menuStep id menu) ∧ menu.items[index]? = some item := by
  obtain ⟨step, isStep, hasItem⟩ := Option.bind_eq_some_iff.mp isItem
  obtain ⟨menu, isMenu, inMenu⟩ := Option.bind_eq_some_iff.mp hasItem
  obtain ⟨id, kind⟩ := step
  cases kind with
  | createMenu _ =>
      cases isMenu
      exact ⟨id, menu, isStep, inMenu⟩
  | _ => cases isMenu

theorem itemAt?_of_menuStep {place : Nat} {id : String} {menu : Menu}
    (isStep : steps[place]? = some (menuStep id menu)) (index : Nat) :
    itemAt? steps place index = menu.items[index]? := by
  rw [itemAt?, isStep]
  rfl

/-- Items stay at their places when the steps grow. -/
theorem Grows.itemAt?_eq (grows : Grows steps later) {place index : Nat}
    (isItem : itemAt? steps place index = some item) : itemAt? later place index = some item := by
  obtain ⟨id, menu, isStep, inMenu⟩ := exists_of_itemAt? isItem
  obtain ⟨grown, isGrown, -, more, sameItems⟩ := grows.exists_menu isStep
  obtain ⟨inBounds, -⟩ := List.getElem?_eq_some_iff.mp inMenu
  rw [itemAt?_of_menuStep isGrown, ← sameItems, List.getElem?_append_left inBounds, inMenu]

/-- A demand for an item has been met, and the item stands at an index of the menu at a place,
behind all other items.  The menu has the name that was asked for. -/
def AddsItem (steps later : List Step) (demand : Demand) (place index : Nat) (item : MenuItem) :
    Prop :=
  ∃ before id menu after name lead, steps = before ++ menuStep id menu :: after ∧
    later = before ++ menuStep id (addItem item menu) :: after ∧
    place = before.length ∧ index = menu.items.length ∧
    demand = .addItem name lead ∧ menu.name = clean name ∧ lead.item steps = .ok item

/-- Only a demand for an item brings one. -/
theorem Change.addsItem {demand : Demand} (change : Change ids steps demand later)
    (areFresh : ∀ kind ∈ demand.kinds, IsFresh kind) {place index : Nat}
    (absent : itemAt? steps place index = none) (present : itemAt? later place index = some item) :
    AddsItem steps later demand place index item := by
  have notOther : ∀ before after (old new : Step), steps = before ++ old :: after →
      later = before ++ new :: after → place = before.length := by
    rintro before after old new rfl rfl
    by_contra isOther
    rw [itemAt?, getElem?_replaced isOther old new, ← itemAt?, present] at absent
    cases absent
  obtain ⟨id, menu, isStep, inMenu⟩ := exists_of_itemAt? present
  cases change with
  | add _ kinds =>
      obtain ⟨added, isAppended, -, areBare⟩ := exists_pushAll_fresh ids steps kinds areFresh
      rw [isAppended, List.getElem?_append] at isStep
      split at isStep
      · rw [itemAt?_of_menuStep isStep, inMenu] at absent
        cases absent
      · have isBare := areBare _ (List.mem_of_getElem? isStep)
        have noItems : [] = menu.items := congrArg Menu.items (StepKind.createMenu.inj isBare)
        rw [← noItems] at inMenu
        cases inMenu
  | attachImage before after stepId url draft =>
      cases notOther before after _ _ rfl rfl
      rw [getElem?_append_cons_self] at isStep
      have notMenu : (withImage draft url).kind ≠ .createMenu menu := by
        obtain ⟨type, details⟩ := draft
        cases type <;> exact nofun
      exact absurd (congrArg Step.kind (Option.some.inj isStep)) notMenu
  | addItem before after stepId name old lead added named leads =>
      cases notOther before after _ _ rfl rfl
      rw [itemAt?_of_menuStep (getElem?_append_cons_self _ _ _)] at absent present
      have isLast : index = old.items.length := by
        have isBehind := List.getElem?_eq_none_iff.mp absent
        obtain ⟨inBounds, -⟩ := List.getElem?_eq_some_iff.mp present
        rw [Recovery.addItem, List.length_append, List.length_singleton] at inBounds
        omega
      subst isLast
      rw [Recovery.addItem, List.getElem?_concat_length] at present
      cases present
      exact ⟨before, stepId, old, after, name, lead, rfl, rfl, rfl, rfl, rfl, named, leads⟩
  | assignMenu before after stepId name location old =>
      cases notOther before after _ _ rfl rfl
      rw [itemAt?_of_menuStep (getElem?_append_cons_self _ _ _)] at absent present
      rw [setLocation, absent] at present
      cases present
  | nothing =>
      rw [present] at absent
      cases absent

/-! ## Following a script -/

/-- The last entry is read, or the steps stay as they are. -/
theorem steps_append_singleton (ids : Ids) (entries : List Entry) (entry : Entry) :
    (ofEntries ids (entries ++ [entry])).steps =
      match readEntry ids (ofEntries ids entries).steps entry with
      | .ok later => later
      | .error _ => (ofEntries ids entries).steps := by
  rw [ofEntries_append_singleton, read_eq]
  cases readEntry ids (ofEntries ids entries).steps entry <;> rfl

/-- The steps that are recovered from the first entries, as many as the number says. -/
def stepsAfter (ids : Ids) (entries : List Entry) (count : Nat) : List Step :=
  (ofEntries ids (entries.take count)).steps

theorem stepsAfter_length (ids : Ids) (entries : List Entry) :
    stepsAfter ids entries entries.length = (ofEntries ids entries).steps := by
  rw [stepsAfter, List.take_length]

/-- The entry at a place is read when its turn comes, or the steps stay as they are. -/
theorem stepsAfter_succ {place : Nat} {entry : Entry} (isEntry : entries[place]? = some entry) :
    stepsAfter ids entries (place + 1) =
      match readEntry ids (stepsAfter ids entries place) entry with
      | .ok later => later
      | .error _ => stepsAfter ids entries place := by
  have oneMore : entries.take (place + 1) = entries.take place ++ [entry] := by
    rw [List.take_add_one, isEntry]
    rfl
  rw [stepsAfter, oneMore, steps_append_singleton, ← stepsAfter]

/-- Behind the last entry nothing changes. -/
theorem stepsAfter_succ_of_none {place : Nat} (isBehind : entries[place]? = none) :
    stepsAfter ids entries (place + 1) = stepsAfter ids entries place := by
  have noMore : entries.take (place + 1) = entries.take place := by
    rw [List.take_add_one, isBehind]
    exact List.append_nil _
  rw [stepsAfter, noMore, ← stepsAfter]

theorem grows_stepsAfter_succ (ids : Ids) (entries : List Entry) (place : Nat) :
    Grows (stepsAfter ids entries place) (stepsAfter ids entries (place + 1)) := by
  cases isEntry : entries[place]? with
  | none =>
      rw [stepsAfter_succ_of_none isEntry]
      exact .refl _
  | some entry =>
      rw [stepsAfter_succ isEntry]
      split
      · rename_i reads
        obtain ⟨demand, -, change⟩ := exists_change_of_readEntry reads
        exact change.grows
      · exact .refl _

/-- The steps grow as a script is followed. -/
theorem grows_stepsAfter (ids : Ids) (entries : List Entry) {first last : Nat}
    (inOrder : first ≤ last) :
    Grows (stepsAfter ids entries first) (stepsAfter ids entries last) := by
  induction last, inOrder using Nat.le_induction with
  | base => exact .refl _
  | succ last _ inductionHypothesis =>
      exact inductionHypothesis.trans (grows_stepsAfter_succ ids entries last)

/-- The steps come to be all that are recovered. -/
theorem grows_ofEntries (ids : Ids) (entries : List Entry) (count : Nat) :
    Grows (stepsAfter ids entries count) (ofEntries ids entries).steps := by
  rcases Nat.le_total count entries.length with isBefore | isBehind
  · rw [← stepsAfter_length]
    exact grows_stepsAfter ids entries isBefore
  · rw [stepsAfter, List.take_of_length_le isBehind]
    exact .refl _

/-- The first entries of a longer script lead to the same steps. -/
theorem stepsAfter_append (ids : Ids) (entries more : List Entry) {count : Nat}
    (inEntries : count ≤ entries.length) :
    stepsAfter ids (entries ++ more) count = stepsAfter ids entries count := by
  rw [stepsAfter, List.take_append_of_le_length inEntries, ← stepsAfter]

/-- An entry that was dropped could not be read when its turn came. -/
theorem exists_error_of_mem_dropped (ids : Ids) (entries : List Entry) {place : Nat}
    (isDropped : place ∈ (ofEntries ids entries).dropped.map Drop.index) :
    ∃ entry reason, entries[place]? = some entry ∧
      readEntry ids (stepsAfter ids entries place) entry = .error reason := by
  induction entries using List.reverseRecOn with
  | nil => cases isDropped
  | append_singleton entries last inductionHypothesis =>
      have fromEarlier : place ∈ (ofEntries ids entries).dropped.map Drop.index →
          ∃ entry reason, (entries ++ [last])[place]? = some entry ∧
            readEntry ids (stepsAfter ids (entries ++ [last]) place) entry = .error reason := by
        intro isEarlier
        obtain ⟨entry, reason, isEntry, fails⟩ := inductionHypothesis isEarlier
        obtain ⟨inBounds, -⟩ := List.getElem?_eq_some_iff.mp isEntry
        refine ⟨entry, reason, ?_, ?_⟩
        · rw [List.getElem?_append_left inBounds, isEntry]
        · rw [stepsAfter_append ids entries [last] (Nat.le_of_lt inBounds), fails]
      rw [ofEntries_append_singleton] at isDropped
      cases reads : readEntry ids (ofEntries ids entries).steps last with
      | ok later =>
          rw [read_of_ok reads] at isDropped
          exact fromEarlier isDropped
      | error reason =>
          rw [read_of_error reads, Recovery.drop, List.map_append, List.mem_append]
            at isDropped
          rcases isDropped with isEarlier | isLast
          · exact fromEarlier isEarlier
          · rw [List.map_singleton, List.mem_singleton] at isLast
            subst isLast
            refine ⟨last, reason, List.getElem?_concat_length, ?_⟩
            rw [stepsAfter_append ids entries [last] (Nat.le_refl _), stepsAfter_length, reads]

/-- An entry that is read when its turn comes is not dropped. -/
theorem isAcceptedAt_of_read {place : Nat} {entry : Entry} (isEntry : entries[place]? = some entry)
    (reads : readEntry ids (stepsAfter ids entries place) entry = .ok later) :
    isAcceptedAt (ofEntries ids entries).dropped place = true := by
  rw [isAcceptedAt, decide_eq_true_iff]
  intro isDropped
  obtain ⟨other, reason, isOther, fails⟩ := exists_error_of_mem_dropped ids entries isDropped
  rw [isEntry] at isOther
  cases isOther
  rw [reads] at fails
  cases fails

theorem dropped_subset_append (ids : Ids) (entries : List Entry) (last : Entry) :
    (ofEntries ids entries).dropped ⊆ (ofEntries ids (entries ++ [last])).dropped := by
  rw [ofEntries_append_singleton]
  cases reads : readEntry ids (ofEntries ids entries).steps last with
  | ok later =>
      rw [read_of_ok reads]
      exact List.Subset.refl _
  | error reason =>
      rw [read_of_error reads]
      exact List.subset_append_left _ _

/-- An entry that cannot be read when its turn comes is reported. -/
theorem mem_dropped_of_error {place : Nat} {entry : Entry} {reason : Reason}
    (isEntry : entries[place]? = some entry)
    (fails : readEntry ids (stepsAfter ids entries place) entry = .error reason) :
    { index := place, kind := entry.kindName, reason } ∈ (ofEntries ids entries).dropped := by
  induction entries using List.reverseRecOn with
  | nil => cases isEntry
  | append_singleton entries last inductionHypothesis =>
      rw [List.getElem?_append] at isEntry
      split at isEntry
      · rename_i isBefore
        rw [stepsAfter_append ids entries [last] (Nat.le_of_lt isBefore)] at fails
        exact dropped_subset_append ids entries last (inductionHypothesis isEntry fails)
      · rw [List.getElem?_singleton] at isEntry
        split at isEntry
        · have isLast : place = entries.length := by omega
          cases isEntry
          rw [isLast, stepsAfter_append ids entries _ (Nat.le_refl _), stepsAfter_length]
            at fails
          rw [ofEntries_append_singleton, read_of_error fails, isLast]
          exact List.mem_append_right _ (List.mem_singleton_self _)
        · cases isEntry

/-! ## Instructions that follow each other -/

section

variable {place : Nat}

/-- Instructions stand in a script one after the other, from a place on. -/
def StandAt (entries : List Entry) (place : Nat) (instructions : List Instruction) : Prop :=
  ∀ index instruction, instructions[index]? = some instruction →
    entries[place + index]? = some (.known instruction)

theorem StandAt.head {instruction : Instruction} {rest : List Instruction}
    (stand : StandAt entries place (instruction :: rest)) :
    entries[place]? = some (.known instruction) :=
  stand 0 instruction rfl

theorem StandAt.tail {instruction : Instruction} {rest : List Instruction}
    (stand : StandAt entries place (instruction :: rest)) :
    StandAt entries (place + 1) rest := by
  intro index other isOther
  rw [Nat.add_assoc, Nat.add_comm 1]
  exact stand (index + 1) other isOther

theorem StandAt.append {first second : List Instruction}
    (stand : StandAt entries place (first ++ second)) :
    StandAt entries place first ∧ StandAt entries (place + first.length) second := by
  constructor
  · intro index instruction isInstruction
    obtain ⟨inBounds, -⟩ := List.getElem?_eq_some_iff.mp isInstruction
    exact stand index instruction (by rw [List.getElem?_append_left inBounds, isInstruction])
  · intro index instruction isInstruction
    rw [Nat.add_assoc]
    apply stand
    rw [List.getElem?_append_right (Nat.le_add_right _ _), Nat.add_sub_cancel_left, isInstruction]

/-- Instructions that can be read one after the other are read, and none of them is dropped. -/
theorem stepsAfter_of_foldlM {instructions : List Instruction}
    (stand : StandAt entries place instructions)
    (reads : instructions.foldlM (readInstruction ids) (stepsAfter ids entries place) = .ok later) :
    stepsAfter ids entries (place + instructions.length) = later ∧
      ∀ index < instructions.length,
        isAcceptedAt (ofEntries ids entries).dropped (place + index) = true := by
  induction instructions generalizing place with
  | nil =>
      cases reads
      exact ⟨rfl, fun index isBefore => absurd isBefore (Nat.not_lt_zero index)⟩
  | cons instruction rest inductionHypothesis =>
      rw [List.foldlM_cons] at reads
      cases readsFirst : readInstruction ids (stepsAfter ids entries place) instruction with
      | error reason =>
          rw [readsFirst] at reads
          cases reads
      | ok between =>
          have next : stepsAfter ids entries (place + 1) = _ := stepsAfter_succ stand.head
          rw [readEntry, readsFirst] at next
          have isBetween : stepsAfter ids entries (place + 1) = between := next
          rw [readsFirst, ← isBetween] at reads
          obtain ⟨isEnd, restAccepted⟩ := inductionHypothesis stand.tail reads
          have oneFurther : place + (instruction :: rest).length = place + 1 + rest.length := by
            rw [List.length_cons]
            omega
          refine ⟨by rw [oneFurther, isEnd], ?_⟩
          intro index isBefore
          cases index with
          | zero => exact isAcceptedAt_of_read stand.head readsFirst
          | succ index =>
              rw [← Nat.add_assoc, Nat.add_right_comm]
              exact restAccepted index (Nat.lt_of_succ_lt_succ isBefore)

end

/-! ## The entry that brings an item -/

/-- The entry at a place brings an item: there is none before it has been read, and one
afterwards. -/
structure BringsItem (ids : Ids) (entries : List Entry) (entryPlace place index : Nat) : Prop where
  absent : itemAt? (stepsAfter ids entries entryPlace) place index = none
  present : itemAt? (stepsAfter ids entries (entryPlace + 1)) place index ≠ none

/-- An item that is recovered has been brought. -/
theorem exists_bringsItem {place index : Nat}
    (isItem : itemAt? (ofEntries ids entries).steps place index = some item) :
    ∃ entryPlace, BringsItem ids entries entryPlace place index := by
  have upTo : ∀ count, itemAt? (stepsAfter ids entries count) place index ≠ none →
      ∃ entryPlace, BringsItem ids entries entryPlace place index := by
    intro count
    induction count with
    | zero => exact fun present => absurd rfl present
    | succ count inductionHypothesis =>
        intro present
        by_cases absent : itemAt? (stepsAfter ids entries count) place index = none
        · exact ⟨count, absent, present⟩
        · exact inductionHypothesis absent
  apply upTo entries.length
  rw [stepsAfter_length, isItem]
  exact Option.some_ne_none item

/-- No item is there before it has been brought. -/
theorem BringsItem.le {entryPlace other place index : Nat}
    (brings : BringsItem ids entries entryPlace place index)
    (otherBrings : BringsItem ids entries other place index) : entryPlace ≤ other := by
  by_contra isBefore
  obtain ⟨item, isItem⟩ := Option.ne_none_iff_exists'.mp otherBrings.present
  have isEarlier : other + 1 ≤ entryPlace := by omega
  have stays := (grows_stepsAfter ids entries isEarlier).itemAt?_eq isItem
  rw [brings.absent] at stays
  cases stays

/-- No item is brought twice. -/
theorem BringsItem.entryPlace_eq {entryPlace other place index : Nat}
    (brings : BringsItem ids entries entryPlace place index)
    (otherBrings : BringsItem ids entries other place index) : entryPlace = other :=
  Nat.le_antisymm (brings.le otherBrings) (otherBrings.le brings)

/-- An entry that adds an item to the menu made last brings it, and it stays in that menu. -/
theorem exists_kept_item {entryPlace : Nat} {id : String} {menu : Menu}
    (before : stepsAfter ids entries entryPlace = steps ++ [menuStep id menu])
    (after : stepsAfter ids entries (entryPlace + 1) = steps ++ [menuStep id (addItem item menu)]) :
    BringsItem ids entries entryPlace steps.length menu.items.length ∧
      ∃ full, (ofEntries ids entries).steps[steps.length]? = some (menuStep id full) ∧
        full.name = menu.name ∧ full.items[menu.items.length]? = some item := by
  have isMenuBefore : (stepsAfter ids entries entryPlace)[steps.length]? =
      some (menuStep id menu) := by
    rw [before, List.getElem?_concat_length]
  have isMenuAfter : (stepsAfter ids entries (entryPlace + 1))[steps.length]? =
      some (menuStep id (addItem item menu)) := by
    rw [after, List.getElem?_concat_length]
  have isItem : (addItem item menu).items[menu.items.length]? = some item := by
    rw [addItem, List.getElem?_concat_length]
  refine ⟨⟨?_, ?_⟩, ?_⟩
  · rw [itemAt?_of_menuStep isMenuBefore, List.getElem?_eq_none_iff]
  · rw [itemAt?_of_menuStep isMenuAfter, isItem]
    exact Option.some_ne_none item
  · obtain ⟨full, isFull, sameName, more, items_eq⟩ :=
      (grows_ofEntries ids entries (entryPlace + 1)).exists_menu isMenuAfter
    obtain ⟨inBounds, -⟩ := List.getElem?_eq_some_iff.mp isItem
    refine ⟨full, isFull, sameName, ?_⟩
    rw [← items_eq, List.getElem?_append_left inBounds, isItem]

/-- An entry that brings an item is read, and asks for the item. -/
theorem BringsItem.exists_addsItem {entryPlace place index : Nat}
    (brings : BringsItem ids entries entryPlace place index) :
    ∃ entry demand item, entries[entryPlace]? = some entry ∧ entry.demand = .ok demand ∧
      readEntry ids (stepsAfter ids entries entryPlace) entry =
        .ok (stepsAfter ids entries (entryPlace + 1)) ∧
      AddsItem (stepsAfter ids entries entryPlace) (stepsAfter ids entries (entryPlace + 1))
        demand place index item := by
  obtain ⟨absent, present⟩ := brings
  obtain ⟨item, isItem⟩ := Option.ne_none_iff_exists'.mp present
  cases isEntry : entries[entryPlace]? with
  | none =>
      rw [stepsAfter_succ_of_none isEntry, absent] at isItem
      cases isItem
  | some entry =>
      have next : stepsAfter ids entries (entryPlace + 1) = _ := stepsAfter_succ isEntry
      cases reads : readEntry ids (stepsAfter ids entries entryPlace) entry with
      | error reason =>
          rw [reads] at next
          rw [next, absent] at isItem
          cases isItem
      | ok later =>
          rw [reads] at next
          obtain ⟨demand, asks, change⟩ := exists_change_of_readEntry reads
          rw [next] at isItem ⊢
          exact ⟨entry, demand, item, rfl, asks, reads,
            change.addsItem (brings_of_demand asks).isFresh absent isItem⟩

/-- An entry brings no more than one item. -/
theorem BringsItem.position_eq {entryPlace place index otherPlace otherIndex : Nat}
    (brings : BringsItem ids entries entryPlace place index)
    (otherBrings : BringsItem ids entries entryPlace otherPlace otherIndex) :
    place = otherPlace ∧ index = otherIndex := by
  obtain ⟨entry, demand, item, -, -, -, adds⟩ := brings.exists_addsItem
  obtain ⟨before, id, menu, after, name, lead, steps_eq, later_eq, place_eq, index_eq, -⟩ :=
    adds
  obtain ⟨absent, present⟩ := otherBrings
  rw [steps_eq] at absent
  rw [later_eq] at present
  have samePlace : otherPlace = before.length := by
    by_contra isOther
    rw [itemAt?, ← getElem?_replaced isOther (menuStep id menu), ← itemAt?, absent] at present
    exact present rfl
  subst samePlace
  rw [itemAt?_of_menuStep (getElem?_append_cons_self _ _ _)] at absent present
  refine ⟨place_eq, ?_⟩
  have isBehind := List.getElem?_eq_none_iff.mp absent
  rw [ne_eq, List.getElem?_eq_none_iff, addItem, List.length_append, List.length_singleton]
    at present
  omega

end SiteScript.Recovery

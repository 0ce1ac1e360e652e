import SiteScript.Proofs.Recovery.Accounting

/-!
# What entries ask of menus

An entry may ask for a menu to be made, for an item in the menus of a name, or for a place for
them.  Only commands do, and their words tell what they ask for.
-/

namespace SiteScript

open Recovery
open Text (clean)

namespace Entry

/-- Whether an entry asks for a menu of a clean name to be made. -/
def makesMenu (name : String) (entry : Entry) : Bool :=
  StepKind.createMenu (.named name) ∈ entry.addedKinds

/-- Where the item leads that an entry asks for in the menus of a clean name. -/
def leadFor? (name : String) (entry : Entry) : Option Lead :=
  match entry.demand with
  | .ok (.addItem menu lead) => if clean menu = name then some lead else none
  | _ => none

/-- The place that an entry asks for the menus of a clean name to get. -/
def locationFor? (name : String) (entry : Entry) : Option String :=
  match entry.demand with
  | .ok (.assignMenu menu location) => if clean menu = name then some location else none
  | _ => none

end Entry

namespace Recovery

variable {entry : Entry} {demand : Demand} {request : Request} {name line : String} {menu : Menu}

/-! ## Requests and their words -/

/-- Whether words ask for something: what is behind the operands does not count, but a program has to
be the last word. -/
def Request.IsAskedBy : Request → List String → Prop
  | .createPost flags, words => words = "wp" :: "post" :: "create" :: flags
  | .importMedia url, words => ∃ rest, words = "wp" :: "media" :: "import" :: url :: rest
  | .createMenu name, words => ∃ rest, words = "wp" :: "menu" :: "create" :: name :: rest
  | .addMenuItem menu title url, words =>
      ∃ rest, words = "wp" :: "menu" :: "item" :: "add-custom" :: menu :: title :: url :: rest
  | .assignMenu menu location, words =>
      ∃ rest, words = "wp" :: "menu" :: "location" :: "assign" :: menu :: location :: rest
  | .run code, words => words = ["wp", "eval", code]

/-- Words are read as the request that they ask for. -/
theorem ofWords?_eq_some_iff {words : List String} :
    Request.ofWords? words = some request ↔ request.IsAskedBy words := by
  constructor
  · intro asked
    unfold Request.ofWords? at asked
    split at asked <;> cases asked
    · rfl
    · exact ⟨_, rfl⟩
    · exact ⟨_, rfl⟩
    · exact ⟨_, rfl⟩
    · exact ⟨_, rfl⟩
    · rfl
  · intro asks
    cases request with
    | createPost | run =>
        cases asks
        rfl
    | importMedia | createMenu | addMenuItem | assignMenu =>
        obtain ⟨rest, rfl⟩ := asks
        rfl

/-! ## Entries and their requests -/

/-- A demand for steps of which none makes a menu. -/
def AddsNoMenu (demand : Demand) : Prop :=
  ∃ kinds, demand = .add kinds ∧ ∀ menu, StepKind.createMenu menu ∉ kinds

theorem addsNoMenu_of_draft {draft : Draft} (asks : draft.demand = .ok demand) :
    AddsNoMenu demand := by
  rw [Draft.demand] at asks
  split at asks
  · cases asks
  · cases asks
    refine ⟨[draft.kind], rfl, ?_⟩
    obtain ⟨type, details⟩ := draft
    cases type <;> simp [Draft.kind]

theorem addsNoMenu_of_content {code : String} (asks : demandOfContent code = .ok demand) :
    AddsNoMenu demand := by
  rw [demandOfContent] at asks
  cases drafted : Draft.ofCode code with
  | error reason =>
      rw [drafted] at asks
      cases asks
  | ok draft =>
      rw [drafted] at asks
      exact addsNoMenu_of_draft asks

/-- Whatever has to do with menus is requested by a command. -/
theorem exists_request_or_addsNoMenu (asks : entry.demand = .ok demand) :
    (∃ line request, entry = .known (.command line) ∧
        Request.ofWords? (Shell.split line) = some request ∧ request.demand line = .ok demand) ∨
      AddsNoMenu demand := by
  have single : ∀ {kind : StepKind}, (∀ menu, StepKind.createMenu menu ≠ kind) →
      AddsNoMenu (.add [kind]) := fun notMenu =>
    ⟨_, rfl, fun menu isMenu => notMenu menu (List.mem_singleton.mp isMenu)⟩
  cases entry with
  | foreign value => cases asks
  | known instruction =>
      rw [Entry.demand] at asks
      cases instruction with
      | command line =>
          rw [Instruction.demand, demandOfCommand] at asks
          split at asks
          · rename_i request asked
            exact Or.inl ⟨line, request, rfl, asked, asks⟩
          · cases asks
      | setSiteOptions options =>
          rw [Instruction.demand] at asks
          split at asks <;> cases asks
          exact Or.inr ⟨_, rfl, by simp⟩
      | defineConstants constants =>
          rw [Instruction.demand] at asks
          split at asks <;> cases asks
          exact Or.inr (single (by simp))
      | importContent file =>
          cases file with
          | address url =>
              rw [Instruction.demand] at asks
              split at asks <;> cases asks
              exact Or.inr (single (by simp))
          | _ => cases asks
      | runPhp code =>
          rw [Instruction.demand] at asks
          split at asks
          · exact Or.inr (addsNoMenu_of_content asks)
          · cases asks
      | login | installPlugin | installTheme =>
          cases asks
          exact Or.inr (single (by simp))

theorem demand_eq_of_isAskedBy (asked : request.IsAskedBy (Shell.split line)) :
    (Entry.known (.command line)).demand = request.demand line := by
  rw [Entry.demand, Instruction.demand, demandOfCommand, ofWords?_eq_some_iff.mpr asked]

/-! ## Menus that are made -/

theorem exists_of_demand_makes (asks : request.demand line = .ok demand)
    (makes : .createMenu menu ∈ demand.kinds) :
    ∃ name, request = .createMenu name ∧ clean name ≠ "" ∧ menu = .named (clean name) ∧
      demand = .add [.createMenu menu] := by
  have noMenu : AddsNoMenu demand → False := by
    rintro ⟨kinds, rfl, areOther⟩
    exact areOther menu makes
  cases request with
  | createPost flags => exact absurd (addsNoMenu_of_draft asks) noMenu
  | createMenu name =>
      rw [Request.demand] at asks
      split at asks
      · cases asks
      · rename_i notEmpty
        cases asks
        rw [String.isEmpty_iff] at notEmpty
        obtain rfl : menu = .named (clean name) :=
          StepKind.createMenu.inj (List.mem_singleton.mp makes)
        exact ⟨name, rfl, notEmpty, rfl, rfl⟩
  | run code =>
      rw [Request.demand] at asks
      split at asks
      · exact absurd (addsNoMenu_of_content asks) noMenu
      · obtain ⟨menuName, title, rfl⟩ := exists_of_demandOfItem asks
        cases makes
      · cases asks
        cases makes
      · cases asks
  | importMedia | addMenuItem | assignMenu =>
      cases asks
      cases makes

/-- A demand for steps, one of which makes a menu, is the request for that menu alone. -/
theorem exists_of_makes (asks : entry.demand = .ok demand)
    (makes : .createMenu menu ∈ demand.kinds) :
    ∃ line name, entry = .known (.command line) ∧
      Request.ofWords? (Shell.split line) = some (.createMenu name) ∧ clean name ≠ "" ∧
        menu = .named (clean name) ∧ demand = .add [.createMenu menu] := by
  rcases exists_request_or_addsNoMenu asks with
    ⟨line, request, isCommand, asked, asksFor⟩ | ⟨kinds, rfl, areOther⟩
  · obtain ⟨name, rfl, notEmpty, isNamed, isOnly⟩ := exists_of_demand_makes asksFor makes
    exact ⟨line, name, isCommand, asked, notEmpty, isNamed, isOnly⟩
  · exact absurd makes (areOther menu)

theorem demand_of_makesMenu (makes : entry.makesMenu name = true) :
    entry.demand = .ok (.add [.createMenu (.named name)]) := by
  rw [Entry.makesMenu, decide_eq_true_iff, Entry.addedKinds] at makes
  split at makes
  · rename_i demand asks
    obtain ⟨line, menuName, -, -, -, -, rfl⟩ := exists_of_makes asks makes
    exact asks
  · cases makes

theorem addedKinds_of_makesMenu (makes : entry.makesMenu name = true) :
    entry.addedKinds = [.createMenu (.named name)] := by
  rw [Entry.addedKinds, demand_of_makesMenu makes]
  rfl

theorem makesMenu_of_demand {kinds : List StepKind} (asks : entry.demand = .ok (.add kinds))
    (makes : StepKind.createMenu (.named name) ∈ kinds) : entry.makesMenu name = true := by
  rw [Entry.makesMenu, decide_eq_true_iff, Entry.addedKinds, asks]
  exact makes

/-- An entry that makes a menu asks nothing of one that is there. -/
theorem asksNothing_of_makesMenu {other : String} (makes : entry.makesMenu name = true) :
    entry.leadFor? other = none ∧ entry.locationFor? other = none := by
  rw [Entry.leadFor?, Entry.locationFor?, demand_of_makesMenu makes]
  exact ⟨rfl, rfl⟩

/-- A menu is made by the command that says so, with a name that is not blank. -/
theorem makesMenu_iff (entry : Entry) (name : String) :
    entry.makesMenu name = true ↔
      ∃ line menu rest, entry = .known (.command line) ∧
        Shell.split line = "wp" :: "menu" :: "create" :: menu :: rest ∧
        clean menu = name ∧ name ≠ "" := by
  constructor
  · intro makes
    obtain ⟨line, menu, isCommand, asked, notEmpty, isNamed, -⟩ :=
      exists_of_makes (demand_of_makesMenu makes) (List.mem_singleton_self _)
    obtain ⟨rest, words_eq⟩ := ofWords?_eq_some_iff.mp asked
    obtain rfl : name = clean menu := congrArg Menu.name isNamed
    exact ⟨line, menu, rest, isCommand, words_eq, rfl, notEmpty⟩
  · rintro ⟨line, menu, rest, rfl, words_eq, rfl, notEmpty⟩
    have asked : (Request.createMenu menu).IsAskedBy (Shell.split line) := ⟨rest, words_eq⟩
    have asks := demand_eq_of_isAskedBy asked
    rw [Request.demand, if_neg (mt String.isEmpty_iff.mp notEmpty)] at asks
    exact makesMenu_of_demand asks (List.mem_singleton_self _)

/-! ## Items -/

/-- The words that ask for an item in the menus of a clean name: those that give the title and the
address of the item, and a program that looks up the menu and a page. -/
inductive ItemWords (name : String) : Lead → List String → Prop
  | custom (menu title url : String) (rest : List String) (named : clean menu = name) :
    ItemWords name (.address title url)
      ("wp" :: "menu" :: "item" :: "add-custom" :: menu :: title :: url :: rest)
  | page (code menu title : String) (adds : Effect.ofCode? code = some .addMenuItem)
      (looksUpMenu :
        lookupText .noMenuLookup (Text.leftmost? Php.menuLookup? code.toList) = .ok menu)
      (looksUpPage :
        lookupText .noPageLookup (Text.leftmost? Php.titleLookup? code.toList) = .ok title)
      (named : clean menu = name) :
    ItemWords name (.page title) ["wp", "eval", code]

theorem demandOfItem_eq_ok_iff {code menuName title : String} :
    demandOfItem code = .ok (.addItem menuName (.page title)) ↔
      lookupText .noMenuLookup (Text.leftmost? Php.menuLookup? code.toList) = .ok menuName ∧
        lookupText .noPageLookup (Text.leftmost? Php.titleLookup? code.toList) = .ok title := by
  rw [demandOfItem]
  cases lookupText .noMenuLookup (Text.leftmost? Php.menuLookup? code.toList) with
  | error reason => simp [bind, Except.bind]
  | ok menu =>
      cases lookupText .noPageLookup (Text.leftmost? Php.titleLookup? code.toList) with
      | error reason => simp [bind, Except.bind]
      | ok title => simp [bind, Except.bind, pure, Except.pure]

theorem itemWords_of_demand {menuName : String} {lead : Lead}
    (asked : Request.ofWords? (Shell.split line) = some request)
    (asks : request.demand line = .ok (.addItem menuName lead)) :
    ItemWords (clean menuName) lead (Shell.split line) := by
  cases request with
  | createPost flags =>
      obtain ⟨kinds, isAdd, -⟩ := addsNoMenu_of_draft asks
      cases isAdd
  | createMenu name =>
      rw [Request.demand] at asks
      split at asks <;> cases asks
  | addMenuItem menu title url =>
      cases asks
      obtain ⟨rest, words_eq⟩ := ofWords?_eq_some_iff.mp asked
      rw [words_eq]
      exact .custom menuName title url rest rfl
  | run code =>
      rw [Request.demand] at asks
      split at asks
      · obtain ⟨kinds, isAdd, -⟩ := addsNoMenu_of_content asks
        cases isAdd
      · rename_i adds
        obtain ⟨otherName, title, isItem⟩ := exists_of_demandOfItem asks
        cases isItem
        obtain ⟨looksUpMenu, looksUpPage⟩ := demandOfItem_eq_ok_iff.mp asks
        rw [ofWords?_eq_some_iff.mp asked]
        exact .page code menuName title adds looksUpMenu looksUpPage rfl
      · cases asks
      · cases asks
  | importMedia | assignMenu => cases asks

theorem demand_of_itemWords {lead : Lead} (words : ItemWords name lead (Shell.split line)) :
    ∃ menuName, (Entry.known (.command line)).demand = .ok (.addItem menuName lead) ∧
      clean menuName = name := by
  generalize words_eq : Shell.split line = list at words
  cases words with
  | custom menu title url rest named =>
      have asked : (Request.addMenuItem menu title url).IsAskedBy (Shell.split line) :=
        ⟨rest, words_eq⟩
      exact ⟨menu, demand_eq_of_isAskedBy asked, named⟩
  | page code menu title adds looksUpMenu looksUpPage named =>
      have asked : (Request.run code).IsAskedBy (Shell.split line) := words_eq
      refine ⟨menu, ?_, named⟩
      rw [demand_eq_of_isAskedBy asked, Request.demand, adds]
      exact demandOfItem_eq_ok_iff.mpr ⟨looksUpMenu, looksUpPage⟩

/-- Items are asked for by the commands that have such words. -/
theorem leadFor?_iff (entry : Entry) (name : String) (lead : Lead) :
    entry.leadFor? name = some lead ↔
      ∃ line, entry = .known (.command line) ∧ ItemWords name lead (Shell.split line) := by
  constructor
  · intro isAsked
    rw [Entry.leadFor?] at isAsked
    split at isAsked
    · rename_i asks
      obtain ⟨rfl, sameLead⟩ := Option.ite_none_right_eq_some.mp isAsked
      cases sameLead
      rcases exists_request_or_addsNoMenu asks with
        ⟨line, request, isCommand, asked, asksFor⟩ | ⟨kinds, isAdd, -⟩
      · exact ⟨line, isCommand, itemWords_of_demand asked asksFor⟩
      · cases isAdd
    · cases isAsked
  · rintro ⟨line, rfl, words⟩
    obtain ⟨menu, asks, named⟩ := demand_of_itemWords words
    rw [Entry.leadFor?, asks]
    exact if_pos named

/-! ## Places -/

theorem eq_assignMenu_of_demand {menuName location : String}
    (asks : request.demand line = .ok (.assignMenu menuName location)) :
    request = .assignMenu menuName location := by
  have yieldsNothing : request.yield = .nothing := (brings_of_request asks).yield_eq.symm
  cases request with
  | assignMenu => cases asks; rfl
  | createPost | importMedia | createMenu | addMenuItem => cases yieldsNothing
  | run code =>
      rw [Request.demand] at asks
      rw [Request.yield] at yieldsNothing
      cases does : Effect.ofCode? code with
      | none =>
          rw [does] at asks
          cases asks
      | some effect =>
          rw [does] at asks yieldsNothing
          cases effect with
          | insertPost | addMenuItem => cases yieldsNothing
          | attachImage => cases asks

/-- Places are asked for by the commands that say so. -/
theorem locationFor?_iff (entry : Entry) (name location : String) :
    entry.locationFor? name = some location ↔
      ∃ line menu rest, entry = .known (.command line) ∧
        Shell.split line = "wp" :: "menu" :: "location" :: "assign" :: menu :: location :: rest ∧
        clean menu = name := by
  constructor
  · intro isAsked
    rw [Entry.locationFor?] at isAsked
    split at isAsked
    · rename_i menu _ asks
      obtain ⟨named, sameLocation⟩ := Option.ite_none_right_eq_some.mp isAsked
      cases sameLocation
      rcases exists_request_or_addsNoMenu asks with
        ⟨line, request, isCommand, asked, asksFor⟩ | ⟨kinds, isAdd, -⟩
      · rw [eq_assignMenu_of_demand asksFor] at asked
        obtain ⟨rest, words_eq⟩ := ofWords?_eq_some_iff.mp asked
        exact ⟨line, menu, rest, isCommand, words_eq, named⟩
      · cases isAdd
    · cases isAsked
  · rintro ⟨line, menu, rest, rfl, words_eq, named⟩
    have asked : (Request.assignMenu menu location).IsAskedBy (Shell.split line) :=
      ⟨rest, words_eq⟩
    have asks := demand_eq_of_isAskedBy asked
    rw [Entry.locationFor?, asks]
    exact if_pos named

end Recovery

end SiteScript

import SiteScript.Proofs.Recovery.Outcome

/-!
# What entries ask for

What an entry asks for is told by the entry alone; the steps that have been recovered before it
only tell whether it can be had.  A demand that is met adds steps at the end, or changes one
step where it stands.
-/

namespace SiteScript

namespace Recovery

open Text (clean)

/-- Where a menu item that is asked for leads. -/
inductive Lead where
  /-- It leads to an address. -/
  | address (title url : String)
  /-- It leads to the content of a title. -/
  | page (title : String)
  deriving Repr, DecidableEq

/-- The item that leads there.  Content of a title is that which the first step makes that makes
any of that title. -/
def Lead.item (steps : List Step) : Lead → Except Reason MenuItem
  | .address title url => .ok { kind := .custom, pageId := none, title, url }
  | .page title =>
    match steps.find? (createsTitled (clean title)) with
    | none => .error (.unknownPage title)
    | some step => .ok { kind := .page, pageId := some step.id, title := "", url := "" }

/-- What an entry asks for. -/
inductive Demand where
  /-- Steps are added. -/
  | add (kinds : List StepKind)
  /-- The content made last gets an image. -/
  | attachImage (url : String)
  /-- A menu gets one more item. -/
  | addItem (menu : String) (lead : Lead)
  /-- A menu gets a place. -/
  | assignMenu (menu location : String)
  /-- Nothing is asked for. -/
  | nothing
  deriving Repr, DecidableEq

/-- The kinds of the steps that are asked for. -/
def Demand.kinds : Demand → List StepKind
  | .add kinds => kinds
  | _ => []

/-- What a draft asks for: a step that makes its content, which must have a title. -/
def Draft.demand (draft : Draft) : Except Reason Demand :=
  if (Text.trim draft.content.title).isEmpty then .error .noTitle else .ok (.add [draft.kind])

/-- What a program that makes content asks for. -/
def demandOfContent (code : String) : Except Reason Demand :=
  (Draft.ofCode code).bind Draft.demand

/-- What a program that adds an item to a menu asks for. -/
def demandOfItem (code : String) : Except Reason Demand := do
  let menu ← lookupText .noMenuLookup (Text.leftmost? Php.menuLookup? code.toList)
  let title ← lookupText .noPageLookup (Text.leftmost? Php.titleLookup? code.toList)
  return .addItem menu (.page title)

/-- What a request of a command line asks for. -/
def Request.demand (line : String) : Request → Except Reason Demand
  | .createPost flags => (Draft.ofFlags flags).demand
  | .importMedia url => .ok (.attachImage url)
  | .createMenu name =>
    if (clean name).isEmpty then .error .noMenuName
    else .ok (.add [.createMenu (.named (clean name))])
  | .addMenuItem menu title url => .ok (.addItem menu (.address title url))
  | .assignMenu menu location => .ok (.assignMenu menu location)
  | .run code =>
    match Effect.ofCode? code with
    | some .insertPost => demandOfContent code
    | some .addMenuItem => demandOfItem code
    | some .attachImage => .ok .nothing
    | none => .error (.unknownCommand line)

/-- What a command line asks for. -/
def demandOfCommand (line : String) : Except Reason Demand :=
  match Request.ofWords? (Shell.split line) with
  | some request => request.demand line
  | none => .error (.unknownCommand line)

/-- The steps after a demand has been met. -/
def Demand.meet (ids : Ids) (steps : List Step) : Demand → Except Reason (List Step)
  | .add kinds => .ok (pushAll ids steps kinds)
  | .attachImage url => Recovery.attachImage steps url
  | .addItem menu lead =>
    (lead.item steps).bind fun item => changeMenu steps menu (Recovery.addItem item)
  | .assignMenu menu location => changeMenu steps menu (setLocation location)
  | .nothing => .ok steps

end Recovery

open Recovery

/-- What an instruction asks for. -/
def Instruction.demand : Instruction → Except Reason Demand
  | .login username password =>
    .ok (.add [.login { username := some username, password := some password }])
  | .setSiteOptions options =>
    if options.isEmpty then .error .noOptions
    else
      .ok (.add (options.map fun option =>
        .setSiteOption { name := option.1, value := option.2 }))
  | .installPlugin source activate =>
    .ok (.add [.installPlugin { source := some source, activate := some activate }])
  | .installTheme source activate =>
    .ok (.add [.installTheme { source := some source, activate := some activate }])
  | .defineConstants constants =>
    if constants.isEmpty then .error .noConstants else .ok (.add [.defineConstants constants])
  | .importContent file =>
    match file with
    | .address url => if url.isEmpty then .error .noAddress else .ok (.add [.importContent url])
    | _ => .error .noAddress
  | .command line => demandOfCommand line
  | .runPhp code =>
    if Text.contains code "wp_insert_post" then demandOfContent code else .error .noContent

/-- What an entry asks for. -/
def Entry.demand : Entry → Except Reason Demand
  | .known instruction => instruction.demand
  | .foreign _ => .error .foreign

/-! ## Yields -/

/-- What an entry brings to the steps, if it is not dropped. -/
inductive Recovery.Yield where
  /-- Steps are added, as many as the number says. -/
  | steps (count : Nat)
  /-- A step gets an image. -/
  | image (url : String)
  /-- A step gets a menu item. -/
  | item
  /-- Nothing is brought that is counted. -/
  | nothing
  deriving Repr, DecidableEq

/-- What a demand brings. -/
def Recovery.Demand.yield : Demand → Yield
  | .add kinds => .steps kinds.length
  | .attachImage url => .image url
  | .addItem .. => .item
  | .assignMenu .. => .nothing
  | .nothing => .nothing

/-- What a request of a command line brings. -/
def Recovery.Request.yield : Request → Yield
  | .createPost _ => .steps 1
  | .importMedia url => .image url
  | .createMenu _ => .steps 1
  | .addMenuItem .. => .item
  | .assignMenu .. => .nothing
  | .run code =>
    match Effect.ofCode? code with
    | some .insertPost => .steps 1
    | some .addMenuItem => .item
    | some .attachImage => .nothing
    | none => .nothing

/-- What an instruction brings: a step for each option that it sets, and else at most one. -/
def Instruction.yield : Instruction → Yield
  | .setSiteOptions options => .steps options.length
  | .command line =>
    match Request.ofWords? (Shell.split line) with
    | some request => request.yield
    | none => .nothing
  | _ => .steps 1

/-- What an entry brings. -/
def Entry.yield : Entry → Yield
  | .known instruction => instruction.yield
  | .foreign _ => .nothing

namespace Recovery

open Text (clean)

variable {ids : Ids} {steps later : List Step}

/-! ## Reading is meeting a demand -/

theorem pushContent_eq (ids : Ids) (steps : List Step) (draft : Draft) :
    pushContent ids steps draft = draft.demand.bind (Demand.meet ids steps) := by
  rw [pushContent, Draft.demand]
  split <;> rfl

theorem readContentCode_eq (ids : Ids) (steps : List Step) (code : String) :
    readContentCode ids steps code = (demandOfContent code).bind (Demand.meet ids steps) := by
  rw [readContentCode, demandOfContent]
  cases Draft.ofCode code with
  | error reason => rfl
  | ok draft => simp only [bind, Except.bind, pushContent_eq]

theorem addPageItem_eq (ids : Ids) (steps : List Step) (code : String) :
    addPageItem steps code = (demandOfItem code).bind (Demand.meet ids steps) := by
  rw [addPageItem, demandOfItem]
  cases lookupText .noMenuLookup (Text.leftmost? Php.menuLookup? code.toList) with
  | error reason => rfl
  | ok menu =>
      cases lookupText .noPageLookup (Text.leftmost? Php.titleLookup? code.toList) with
      | error reason => rfl
      | ok title =>
          simp only [bind, Except.bind, pure, Except.pure, Demand.meet, Lead.item]
          cases steps.find? (createsTitled (clean title)) <;> rfl

theorem readRequest_eq (ids : Ids) (steps : List Step) (line : String) (request : Request) :
    readRequest ids steps line request =
      (request.demand line).bind (Demand.meet ids steps) := by
  cases request with
  | createPost flags =>
      rw [readRequest, Request.demand]
      exact pushContent_eq ids steps (.ofFlags flags)
  | importMedia url => rfl
  | createMenu name =>
      rw [readRequest, Request.demand]
      split <;> rfl
  | addMenuItem menu title url => rfl
  | assignMenu menu location => rfl
  | run code =>
      rw [readRequest, Request.demand]
      cases Effect.ofCode? code with
      | none => rfl
      | some effect =>
          cases effect with
          | insertPost => exact readContentCode_eq ids steps code
          | addMenuItem => exact addPageItem_eq ids steps code
          | attachImage => rfl

theorem readInstruction_eq (ids : Ids) (steps : List Step) (instruction : Instruction) :
    readInstruction ids steps instruction =
      instruction.demand.bind (Demand.meet ids steps) := by
  cases instruction with
  | login username password => rfl
  | setSiteOptions options =>
      rw [readInstruction, Instruction.demand]
      split <;> rfl
  | installPlugin source activate => rfl
  | installTheme source activate => rfl
  | defineConstants constants =>
      rw [readInstruction, Instruction.demand]
      split <;> rfl
  | importContent file =>
      cases file with
      | address url =>
          rw [readInstruction, Instruction.demand]
          split <;> rfl
      | _ => rfl
  | command line =>
      rw [readInstruction, Instruction.demand, readCommand, demandOfCommand]
      cases Request.ofWords? (Shell.split line) with
      | none => rfl
      | some request => exact readRequest_eq ids steps line request
  | runPhp code =>
      rw [readInstruction, Instruction.demand]
      split
      · exact readContentCode_eq ids steps code
      · rfl

/-- Reading an entry is meeting what it asks for. -/
theorem readEntry_eq (ids : Ids) (steps : List Step) (entry : Entry) :
    readEntry ids steps entry = entry.demand.bind (Demand.meet ids steps) := by
  cases entry with
  | known instruction => exact readInstruction_eq ids steps instruction
  | foreign value => rfl

theorem readEntry_eq_ok_iff {entry : Entry} :
    readEntry ids steps entry = .ok later ↔
      ∃ demand, entry.demand = .ok demand ∧ demand.meet ids steps = .ok later := by
  rw [readEntry_eq]
  cases entry.demand with
  | error reason => simp [Except.bind]
  | ok demand => simp [Except.bind]

/-! ## What is added -/

/-- The kinds of steps that entries add.  Content has no image yet and a menu has no items, as
only later entries bring them. -/
inductive IsFresh : StepKind → Prop
  | content (draft : Draft) (noImage : draft.content.image = none)
      (titled : Text.trim draft.content.title ≠ "") : IsFresh draft.kind
  | setSiteOption (option : SiteOption) : IsFresh (.setSiteOption option)
  | installPlugin (source : Resource) (activate : Bool) :
    IsFresh (.installPlugin { source := some source, activate := some activate })
  | installTheme (source : Resource) (activate : Bool) :
    IsFresh (.installTheme { source := some source, activate := some activate })
  | defineConstants (constants : Members Json) (notEmpty : constants ≠ []) :
    IsFresh (.defineConstants constants)
  | login (username password : String) :
    IsFresh (.login { username := some username, password := some password })
  | importContent (url : String) (notEmpty : url ≠ "") : IsFresh (.importContent url)
  | createMenu (name : String) (notEmpty : clean name ≠ "") :
    IsFresh (.createMenu (.named (clean name)))

theorem image_set (draft : Draft) (name : Php.FieldName) (value : String) :
    (draft.set name value).content.image = draft.content.image := by
  cases name <;> rfl

/-- No flag gives an image. -/
theorem image_ofFlags (flags : List String) : (Draft.ofFlags flags).content.image = none := by
  have fromAny : ∀ draft : Draft,
      (flags.foldl Draft.addFlag draft).content.image = draft.content.image := by
    induction flags with
    | nil => exact fun draft => rfl
    | cons flag rest inductionHypothesis =>
        intro draft
        have sameImage : (draft.addFlag flag).content.image = draft.content.image := by
          rw [Draft.addFlag]
          split
          · rfl
          · split
            · rfl
            · exact image_set draft _ _
        exact (inductionHypothesis (draft.addFlag flag)).trans sameImage
  exact fromAny .start

/-- No field of a program gives an image. -/
theorem image_ofCode {code : String} {draft : Draft} (drafted : Draft.ofCode code = .ok draft) :
    draft.content.image = none := by
  have fromAny : ∀ (fields : List Php.Field) (first last : Draft),
      fields.foldlM Draft.addField first = .ok last →
        last.content.image = first.content.image := by
    intro fields
    induction fields with
    | nil =>
        intro first last folded
        cases folded
        rfl
    | cons field rest inductionHypothesis =>
        intro first last folded
        rw [List.foldlM_cons, Draft.addField] at folded
        cases value : valueText field.value with
        | error reason =>
            rw [value] at folded
            cases folded
        | ok text =>
            rw [value] at folded
            exact (inductionHypothesis _ last folded).trans (image_set first field.name text)
  exact fromAny _ _ _ drafted

/-- A demand that brings what is stated; the steps that it adds are fresh. -/
structure Demand.Brings (demand : Demand) (yield : Yield) : Prop where
  yield_eq : demand.yield = yield
  isFresh : ∀ kind ∈ demand.kinds, IsFresh kind

namespace Demand.Brings

theorem single {kind : StepKind} (fresh : IsFresh kind) :
    (Demand.add [kind]).Brings (.steps 1) :=
  ⟨rfl, List.forall_mem_singleton.mpr fresh⟩

theorem of_kinds_nil {demand : Demand} (addsNone : demand.kinds = []) :
    demand.Brings demand.yield := by
  constructor
  · rfl
  · rw [addsNone]
    exact fun kind member => nomatch member

end Demand.Brings

variable {demand : Demand}

theorem brings_of_draft {draft : Draft} (noImage : draft.content.image = none)
    (asks : draft.demand = .ok demand) : demand.Brings (.steps 1) := by
  rw [Draft.demand] at asks
  split at asks
  · cases asks
  · rename_i titled
    cases asks
    rw [String.isEmpty_iff] at titled
    exact .single (.content draft noImage titled)

theorem brings_of_content {code : String} (asks : demandOfContent code = .ok demand) :
    demand.Brings (.steps 1) := by
  rw [demandOfContent] at asks
  cases drafted : Draft.ofCode code with
  | error reason =>
      rw [drafted] at asks
      cases asks
  | ok draft =>
      rw [drafted] at asks
      simp only [Except.bind] at asks
      exact brings_of_draft (image_ofCode drafted) asks

theorem exists_of_demandOfItem {code : String} (asks : demandOfItem code = .ok demand) :
    ∃ menu title, demand = .addItem menu (.page title) := by
  rw [demandOfItem] at asks
  cases lookedUp : lookupText .noMenuLookup (Text.leftmost? Php.menuLookup? code.toList) with
  | error reason =>
      rw [lookedUp] at asks
      cases asks
  | ok menu =>
      rw [lookedUp] at asks
      cases titled : lookupText .noPageLookup (Text.leftmost? Php.titleLookup? code.toList) with
      | error reason =>
          rw [titled] at asks
          cases asks
      | ok title =>
          rw [titled] at asks
          cases asks
          exact ⟨menu, title, rfl⟩

theorem brings_of_request {line : String} {request : Request}
    (asks : request.demand line = .ok demand) : demand.Brings request.yield := by
  cases request with
  | createPost flags =>
      rw [Request.demand] at asks
      exact brings_of_draft (image_ofFlags flags) asks
  | importMedia url =>
      cases asks
      exact .of_kinds_nil rfl
  | createMenu name =>
      rw [Request.demand] at asks
      split at asks
      · cases asks
      · rename_i notEmpty
        cases asks
        rw [String.isEmpty_iff] at notEmpty
        exact .single (.createMenu name notEmpty)
  | addMenuItem menu title url =>
      cases asks
      exact .of_kinds_nil rfl
  | assignMenu menu location =>
      cases asks
      exact .of_kinds_nil rfl
  | run code =>
      rw [Request.demand] at asks
      rw [Request.yield]
      cases does : Effect.ofCode? code with
      | none =>
          rw [does] at asks
          cases asks
      | some effect =>
          rw [does] at asks
          cases effect with
          | insertPost => exact brings_of_content asks
          | addMenuItem =>
              obtain ⟨menu, title, rfl⟩ := exists_of_demandOfItem asks
              exact .of_kinds_nil rfl
          | attachImage =>
              cases asks
              exact .of_kinds_nil rfl

theorem brings_of_instruction {instruction : Instruction}
    (asks : instruction.demand = .ok demand) : demand.Brings instruction.yield := by
  cases instruction with
  | login username password =>
      cases asks
      exact .single (.login username password)
  | setSiteOptions options =>
      rw [Instruction.demand] at asks
      split at asks
      · cases asks
      · cases asks
        constructor
        · rw [Demand.yield, List.length_map]
          rfl
        · exact List.forall_mem_map.mpr fun option _ => .setSiteOption _
  | installPlugin source activate =>
      cases asks
      exact .single (.installPlugin source activate)
  | installTheme source activate =>
      cases asks
      exact .single (.installTheme source activate)
  | defineConstants constants =>
      rw [Instruction.demand] at asks
      split at asks
      · cases asks
      · rename_i notEmpty
        cases asks
        exact .single (.defineConstants constants (by simpa using notEmpty))
  | importContent file =>
      cases file with
      | address url =>
          rw [Instruction.demand] at asks
          split at asks
          · cases asks
          · rename_i notEmpty
            cases asks
            rw [String.isEmpty_iff] at notEmpty
            exact .single (.importContent url notEmpty)
      | _ => cases asks
  | command line =>
      rw [Instruction.demand, demandOfCommand] at asks
      rw [Instruction.yield]
      cases asked : Request.ofWords? (Shell.split line) with
      | none =>
          rw [asked] at asks
          cases asks
      | some request =>
          rw [asked] at asks
          exact brings_of_request asks
  | runPhp code =>
      rw [Instruction.demand] at asks
      split at asks
      · exact brings_of_content asks
      · cases asks

/-- An entry asks for what it brings. -/
theorem brings_of_demand {entry : Entry} (asks : entry.demand = .ok demand) :
    demand.Brings entry.yield := by
  cases entry with
  | known instruction => exact brings_of_instruction asks
  | foreign value => cases asks

end Recovery

end SiteScript

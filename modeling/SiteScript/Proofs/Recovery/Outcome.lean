import SiteScript.Recovery.Basic

/-!
# The outcome of an entry

An entry that is read either leaves the steps as they were and tells why, or leaves other
steps: its outcome is a function of the entry and of the steps.  So reading in place does
all or nothing, wherever it fails.
-/

namespace SiteScript.Recovery

open Text (clean)

/-! ## Outcomes -/

/-- The steps with several more at the end. -/
def pushAll (ids : Ids) (steps : List Step) (kinds : List StepKind) : List Step :=
  kinds.foldl (push ids) steps

/-- Adds a step that makes the content of a draft, which must have a title. -/
def pushContent (ids : Ids) (steps : List Step) (draft : Draft) : Except Reason (List Step) :=
  if (Text.trim draft.content.title).isEmpty then .error .noTitle
  else .ok (push ids steps draft.kind)

/-- Gives an image to the content made last, which may not have one yet. -/
def attachImage (steps : List Step) (image : String) : Except Reason (List Step) :=
  match steps.reverse.findSome? content? with
  | none => .error .noContentForImage
  | some content =>
    if content.image.isSome then .error .noContentForImage
    else
      match replaceLast? (withImage? image) steps with
      | some steps => .ok steps
      | none => .error .noContentForImage

/-- Changes the menu of the given name that was made last. -/
def changeMenu (steps : List Step) (name : String) (change : Menu → Menu) :
    Except Reason (List Step) :=
  match replaceLast? (withMenu? (clean name) change) steps with
  | some steps => .ok steps
  | none => .error (.unknownMenu (clean name))

/-- Adds the item that a program adds to a menu.  It leads to the first step that makes
content of that title. -/
def addPageItem (steps : List Step) (code : String) : Except Reason (List Step) := do
  let menu ← lookupText .noMenuLookup (Text.leftmost? Php.menuLookup? code.toList)
  let title ← lookupText .noPageLookup (Text.leftmost? Php.titleLookup? code.toList)
  match steps.find? (createsTitled (clean title)) with
  | none => throw (.unknownPage title)
  | some step =>
    changeMenu steps menu
      (addItem { kind := .page, pageId := some step.id, title := "", url := "" })

/-- The steps after a program that makes content. -/
def readContentCode (ids : Ids) (steps : List Step) (code : String) :
    Except Reason (List Step) := do
  pushContent ids steps (← Draft.ofCode code)

/-- The steps after a request of a command line. -/
def readRequest (ids : Ids) (steps : List Step) (line : String) :
    Request → Except Reason (List Step)
  | .createPost flags => pushContent ids steps (.ofFlags flags)
  | .importMedia url => attachImage steps url
  | .createMenu name =>
    if (clean name).isEmpty then .error .noMenuName
    else .ok (push ids steps (.createMenu (.named (clean name))))
  | .addMenuItem menu title url =>
    changeMenu steps menu (addItem { kind := .custom, pageId := none, title, url })
  | .assignMenu menu location => changeMenu steps menu (setLocation location)
  | .run code =>
    match Effect.ofCode? code with
    | some .insertPost => readContentCode ids steps code
    | some .addMenuItem => addPageItem steps code
    | some .attachImage => .ok steps
    | none => .error (.unknownCommand line)

/-- The steps after a command line. -/
def readCommand (ids : Ids) (steps : List Step) (line : String) : Except Reason (List Step) :=
  match Request.ofWords? (Shell.split line) with
  | some request => readRequest ids steps line request
  | none => .error (.unknownCommand line)

/-- The steps after an instruction. -/
def readInstruction (ids : Ids) (steps : List Step) :
    Instruction → Except Reason (List Step)
  | .login username password =>
    .ok (push ids steps (.login { username := some username, password := some password }))
  | .setSiteOptions options =>
    if options.isEmpty then .error .noOptions
    else
      .ok (pushAll ids steps (options.map fun option =>
        .setSiteOption { name := option.1, value := option.2 }))
  | .installPlugin source activate =>
    .ok (push ids steps (.installPlugin { source := some source, activate := some activate }))
  | .installTheme source activate =>
    .ok (push ids steps (.installTheme { source := some source, activate := some activate }))
  | .defineConstants constants =>
    if constants.isEmpty then .error .noConstants
    else .ok (push ids steps (.defineConstants constants))
  | .importContent file =>
    match file with
    | .address url =>
      if url.isEmpty then .error .noAddress else .ok (push ids steps (.importContent url))
    | _ => .error .noAddress
  | .command line => readCommand ids steps line
  | .runPhp code =>
    if Text.contains code "wp_insert_post" then readContentCode ids steps code
    else .error .noContent

/-- The steps after an entry. -/
def readEntry (ids : Ids) (steps : List Step) : Entry → Except Reason (List Step)
  | .known instruction => readInstruction ids steps instruction
  | .foreign _ => .error .foreign

/-! ## All or nothing -/

/-- What an edit comes to that has the given outcome and changes nothing if it fails. -/
def settle (steps : List Step) : Except Reason (List Step) → Except Reason Unit × List Step
  | .ok later => (.ok (), later)
  | .error reason => (.error reason, steps)

section

variable {α β : Type} {ids : Ids} {steps : List Step}

theorem carryOut_bind (edit : Edit α) (next : α → Edit β) (steps : List Step) :
    (edit >>= next).carryOut steps =
      match edit.carryOut steps with
      | (.ok value, later) => (next value).carryOut later
      | (.error reason, later) => (.error reason, later) := by
  change (match edit.carryOut steps with
    | (result, later) => ExceptT.bindCont next result later) = _
  rcases edit.carryOut steps with ⟨_ | _, later⟩ <;> rfl

/-- A result that does not depend on the steps is at hand, or fails, at once. -/
theorem carryOut_lift_bind (result : Except Reason α) (next : α → Edit β) (steps : List Step) :
    (liftM result >>= next : Edit β).carryOut steps =
      match result with
      | .ok value => (next value).carryOut steps
      | .error reason => (.error reason, steps) := by
  rw [carryOut_bind]
  cases result <;> rfl

/-- An edit that may look at the steps. -/
theorem carryOut_get_bind (next : List Step → Edit β) (steps : List Step) :
    (get >>= next : Edit β).carryOut steps = (next steps).carryOut steps :=
  carryOut_bind get next steps

theorem carryOut_push (kind : StepKind) (steps : List Step) :
    (Edit.push ids kind).carryOut steps = settle steps (.ok (push ids steps kind)) :=
  rfl

theorem carryOut_replaceLast (replacement? : Step → Option Step) (missing : Reason)
    (steps : List Step) :
    (Edit.replaceLast replacement? missing).carryOut steps =
      settle steps (match replaceLast? replacement? steps with
        | some later => .ok later
        | none => .error missing) := by
  rw [Edit.replaceLast, carryOut_get_bind]
  cases replaceLast? replacement? steps <;> rfl

/-- Steps are added one after the other. -/
theorem carryOut_forM_push {kind : α → StepKind} (list : List α) (steps : List Step) :
    Edit.carryOut (list.forM fun a => Edit.push ids (kind a)) steps =
      settle steps (.ok (pushAll ids steps (list.map kind))) := by
  induction list generalizing steps with
  | nil => rfl
  | cons a rest inductionHypothesis =>
      have addsFirst : ((a :: rest).forM fun a => Edit.push ids (kind a)) =
          Edit.push ids (kind a) >>= fun _ => rest.forM fun a => Edit.push ids (kind a) := rfl
      rw [addsFirst, carryOut_bind, carryOut_push]
      exact inductionHypothesis (push ids steps (kind a))

theorem carryOut_addContent (draft : Draft) (steps : List Step) :
    (Edit.addContent ids draft).carryOut steps = settle steps (pushContent ids steps draft) := by
  rw [Edit.addContent, pushContent]
  split <;> rfl

theorem carryOut_addCoded (code : String) (steps : List Step) :
    (Edit.addCoded ids code).carryOut steps = settle steps (readContentCode ids steps code) := by
  rw [Edit.addCoded, readContentCode, carryOut_lift_bind]
  cases Draft.ofCode code with
  | error reason => rfl
  | ok draft =>
      simp only [bind, Except.bind]
      exact carryOut_addContent draft steps

theorem carryOut_attachImage (image : String) (steps : List Step) :
    (Edit.attachImage image).carryOut steps = settle steps (attachImage steps image) := by
  rw [Edit.attachImage, attachImage, carryOut_get_bind]
  cases steps.reverse.findSome? content? with
  | none => rfl
  | some content =>
      simp only
      split
      · rfl
      · refine (carryOut_replaceLast _ _ _).trans ?_
        cases replaceLast? (withImage? image) steps <;> rfl

theorem carryOut_changeMenu (name : String) (change : Menu → Menu) (steps : List Step) :
    (Edit.changeMenu name change).carryOut steps =
      settle steps (changeMenu steps name change) := by
  rw [Edit.changeMenu, changeMenu, carryOut_replaceLast]

theorem carryOut_addPageItem (code : String) (steps : List Step) :
    (Edit.addPageItem code).carryOut steps = settle steps (addPageItem steps code) := by
  rw [Edit.addPageItem, addPageItem, carryOut_lift_bind]
  cases lookupText .noMenuLookup (Text.leftmost? Php.menuLookup? code.toList) with
  | error reason => rfl
  | ok menu =>
      simp only [carryOut_lift_bind]
      cases lookupText .noPageLookup (Text.leftmost? Php.titleLookup? code.toList) with
      | error reason => rfl
      | ok title =>
          simp only [carryOut_get_bind]
          simp only [bind, Except.bind]
          cases steps.find? (createsTitled (clean title)) with
          | none => rfl
          | some step => exact carryOut_changeMenu menu _ steps

theorem carryOut_request (line : String) (asked : Request) (steps : List Step) :
    (Edit.request ids line asked).carryOut steps =
      settle steps (readRequest ids steps line asked) := by
  cases asked with
  | createPost flags =>
      rw [Edit.request, readRequest]
      exact carryOut_addContent (.ofFlags flags) steps
  | importMedia url => exact carryOut_attachImage url steps
  | createMenu name =>
      rw [Edit.request, readRequest]
      split <;> rfl
  | addMenuItem menu title url => exact carryOut_changeMenu menu _ steps
  | assignMenu menu location => exact carryOut_changeMenu menu _ steps
  | run code =>
      rw [Edit.request, readRequest]
      cases Effect.ofCode? code with
      | none => rfl
      | some effect =>
          cases effect with
          | insertPost => exact carryOut_addCoded code steps
          | addMenuItem => exact carryOut_addPageItem code steps
          | attachImage => rfl

theorem carryOut_instruction (instruction : Instruction) (steps : List Step) :
    (Edit.instruction ids instruction).carryOut steps =
      settle steps (readInstruction ids steps instruction) := by
  cases instruction with
  | login username password => rfl
  | setSiteOptions options =>
      rw [Edit.instruction, readInstruction]
      split
      · rfl
      · exact carryOut_forM_push options steps
  | installPlugin source activate => rfl
  | installTheme source activate => rfl
  | defineConstants constants =>
      rw [Edit.instruction, readInstruction]
      split <;> rfl
  | importContent file =>
      cases file with
      | address url =>
          rw [Edit.instruction, readInstruction]
          split <;> rfl
      | _ => rfl
  | command line =>
      rw [Edit.instruction, readInstruction, Edit.command, readCommand]
      cases Request.ofWords? (Shell.split line) with
      | none => rfl
      | some asked => exact carryOut_request line asked steps
  | runPhp code =>
      rw [Edit.instruction, readInstruction]
      split
      · exact carryOut_addCoded code steps
      · rfl

/-- Reading an entry in place does all or nothing. -/
theorem carryOut_entry (ids : Ids) (entry : Entry) (steps : List Step) :
    (Edit.entry ids entry).carryOut steps = settle steps (readEntry ids steps entry) := by
  cases entry with
  | known instruction => exact carryOut_instruction instruction steps
  | foreign value => rfl

/-- Reading an entry of a script keeps its outcome, or drops the entry. -/
theorem read_eq (ids : Ids) (recovery : Recovery) (place : Entry × Nat) :
    read ids recovery place =
      match readEntry ids recovery.steps place.1 with
      | .ok steps => { recovery with steps }
      | .error reason =>
        { recovery with
          dropped := recovery.dropped ++
            [{ index := place.2, kind := place.1.kindName, reason }] } := by
  rw [read, carryOut_entry]
  cases readEntry ids recovery.steps place.1 <;> rfl

end

end SiteScript.Recovery

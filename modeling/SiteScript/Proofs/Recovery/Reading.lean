import SiteScript.Proofs.Compile.Emission
import SiteScript.Proofs.Recovery.Outcome
import SiteScript.Proofs.Recovery.Programs
import SiteScript.Proofs.Shell.Commands

/-!
# Reading commands back

What reading a compiled command does to the steps that have been recovered before it.
-/

namespace SiteScript.Recovery

open Text (clean cleanOrEmpty)

/-! ## Requests -/

/-- Reading a command is reading what it asks for. -/
theorem readInstruction_command (ids : Ids) (steps : List Step) (command : Command) :
    readInstruction ids steps command.instruction =
      readRequest ids steps command.line command.request := by
  rw [Command.instruction, readInstruction, readCommand, Command.split_line,
    Command.ofWords?_arguments]

/-! ## Flags -/

theorem flag?_append {name : String} (noEquals : '=' ∉ name.toList) (value : String) :
    flag? ("--" ++ name ++ "=" ++ value) = some (name, value) := by
  have chars : ("--" ++ name ++ "=" ++ value).toList =
      '-' :: '-' :: (name.toList ++ '=' :: value.toList) := by
    simp
  have notEquals : ∀ c ∈ name.toList, c != '=' := by
    intro c member
    rw [bne_iff_ne]
    rintro rfl
    exact noEquals member
  rw [flag?, chars]
  simp only
  rw [List.dropWhile_append_of_pos notEquals, List.dropWhile_cons_of_neg (by decide),
    List.takeWhile_append_of_pos notEquals, List.takeWhile_cons_of_neg (by decide)]
  simp

/-- The draft with what the flag of a field says. -/
theorem addFlag_append {name : Php.FieldName} (draft : Draft) (value : String) :
    draft.addFlag ("--" ++ name.text ++ "=" ++ value) = draft.set name value := by
  have noEquals : '=' ∉ name.text.toList := by
    cases name <;> decide
  have named : fieldNamed? name.text = some name := by
    cases name <;> rfl
  rw [Draft.addFlag, flag?_append noEquals]
  simp only [named]

/-- The flags of a command that makes content describe that content. -/
theorem ofFlags_creation (type : PostType) (status title body : String) :
    Draft.ofFlags ["--post_type=" ++ type.name, "--post_status=" ++ status,
      "--post_title=" ++ title, "--post_content=" ++ body] =
        { type, content := { title, body, status, image := none } } := by
  have typeFlag : "--post_type=" = "--" ++ Php.FieldName.type.text ++ "=" := by decide
  have statusFlag : "--post_status=" = "--" ++ Php.FieldName.status.text ++ "=" := by decide
  have titleFlag : "--post_title=" = "--" ++ Php.FieldName.title.text ++ "=" := by decide
  have bodyFlag : "--post_content=" = "--" ++ Php.FieldName.body.text ++ "=" := by decide
  rw [typeFlag, statusFlag, titleFlag, bodyFlag, Draft.ofFlags]
  simp only [List.foldl_cons, List.foldl_nil, addFlag_append, Draft.set, postTypeNamed_name]
  rfl

/-! ## Content -/

/-- Content with a clean title is added. -/
theorem pushContent_of_clean (ids : Ids) (steps : List Step) (draft : Draft)
    (titleClean : clean draft.content.title = draft.content.title)
    (notEmpty : draft.content.title ≠ "") :
    pushContent ids steps draft = .ok (push ids steps draft.kind) := by
  have titleTrimmed : (Text.trim draft.content.title).isEmpty = false := by
    rw [Bool.eq_false_iff, ne_eq, String.isEmpty_iff, ← String.toList_inj, Text.toList_trim,
      ← titleClean, Text.toList_clean]
    intro trimmed
    have empty := Text.trimChars_cleanChars_eq_nil_iff.mp trimmed
    rw [← Text.toList_clean, titleClean] at empty
    exact notEmpty (String.toList_inj.mp empty)
  rw [pushContent, titleTrimmed, if_neg Bool.false_ne_true]

/-- The step that is recovered from the command that makes content. -/
def contentDraft (created : CreatedContent) (body status : String) : Draft :=
  { type := created.type
    content := {
      title := created.title
      body := clean body
      status := Compile.orElse (clean status) "publish"
      image := none } }

/-- A command that makes content adds a step that makes it, however the content is written. -/
theorem readInstruction_createContent (ids : Ids) (steps : List Step) {created : CreatedContent}
    (titleClean : clean created.title = created.title) (notEmpty : created.title ≠ "")
    (body status : String) :
    readInstruction ids steps (Compile.createContent created body status).instruction =
      .ok (push ids steps (contentDraft created body status).kind) := by
  have pushed := pushContent_of_clean ids steps (contentDraft created body status) titleClean
    notEmpty
  rw [readInstruction_command, Compile.createContent_eq]
  split
  · have drafted : Draft.ofCode (Php.Program.insertPost created.type
        (Compile.orElse (clean status) "publish") created.title (clean body)).source =
          .ok (contentDraft created body status) :=
      ofCode_insertPost created.type (Compile.clean_status status) titleClean
        (Text.clean_clean body)
    simp only [Command.request, readRequest, ofCode?_source (.insertPost _ _ _ _) rfl, effect?,
      readContentCode, drafted, bind, Except.bind, pushed]
  · simp only [Command.request, readRequest, ofFlags_creation]
    exact pushed

/-! ## Images -/

theorem replaceLast?_append_singleton {α : Type} {replacement? : α → Option α} {a b : α}
    (replaced : replacement? a = some b) (list : List α) :
    replaceLast? replacement? (list ++ [a]) = some (list ++ [b]) := by
  induction list with
  | nil => rw [List.nil_append, replaceLast?, replaceLast?, replaced]; rfl
  | cons c list inductionHypothesis =>
      rw [List.cons_append, replaceLast?, inductionHypothesis]
      rfl

/-- The draft with an image. -/
def withImage (draft : Draft) (image : String) : Draft :=
  { draft with content := { draft.content with image := some image } }

/-- An image goes to the content added last. -/
theorem attachImage_push (ids : Ids) (steps : List Step) {draft : Draft}
    (noImage : draft.content.image = none) (image : String) :
    attachImage (push ids steps draft.kind) image =
      .ok (push ids steps (withImage draft image).kind) := by
  obtain ⟨type, details⟩ := draft
  have found : (push ids steps (Draft.kind ⟨type, details⟩)).reverse.findSome? content? =
      some details := by
    cases type <;> simp [push, Draft.kind, List.findSome?_cons, content?]
  have changed : withImage? image ⟨ids steps.length, Draft.kind ⟨type, details⟩⟩ =
      some ⟨ids steps.length, (withImage ⟨type, details⟩ image).kind⟩ := by
    cases type <;> rfl
  have replaced : replaceLast? (withImage? image) (push ids steps (Draft.kind ⟨type, details⟩)) =
      some (push ids steps (withImage ⟨type, details⟩ image).kind) :=
    replaceLast?_append_singleton changed steps
  have imageMissing : details.image.isSome = false := by
    rw [show details.image = none from noImage]
    rfl
  rw [attachImage, found]
  simp only [imageMissing, replaced, Bool.false_eq_true, if_false]

theorem readInstruction_importMedia (ids : Ids) (steps : List Step) (image : String) :
    readInstruction ids steps (Command.importMedia image).instruction =
      attachImage steps image := by
  rw [readInstruction_command]
  rfl

/-- The program that gives a stored file to content says nothing more. -/
theorem readInstruction_attachImage (ids : Ids) (steps : List Step) (created : CreatedContent) :
    readInstruction ids steps (Command.run (.attachImage created)).instruction = .ok steps := by
  rw [readInstruction_command]
  simp only [Command.request, readRequest, ofCode?_source (.attachImage created) rfl, effect?]

/-! ## Selections of existing pages -/

/-- The program that selects an existing page is not understood. -/
theorem readInstruction_select (ids : Ids) (steps : List Step) (role : Compile.PageRole)
    (target : CreatedContent) :
    readInstruction ids steps (Command.run (role.select target)).instruction =
      .error (.unknownCommand (Command.run (role.select target)).line) := by
  have noRole : (role.select target).addsRole = false := by
    cases role <;> rfl
  have noEffect : effect? (role.select target) = none := by
    cases role <;> rfl
  rw [readInstruction_command]
  simp only [Command.request, readRequest, ofCode?_source (role.select target) noRole, noEffect]

/-! ## Menus -/

/-- A step that makes a menu. -/
def menuStep (id : String) (menu : Menu) : Step :=
  { id, kind := .createMenu menu }

theorem readInstruction_createMenu (ids : Ids) (steps : List Step) {name : String}
    (isClean : clean name = name) (notEmpty : name ≠ "") :
    readInstruction ids steps (Command.createMenu name).instruction =
      .ok (steps ++ [menuStep (ids steps.length) (.named name)]) := by
  have notBlank : name.isEmpty = false := by
    rw [Bool.eq_false_iff, ne_eq, String.isEmpty_iff]
    exact notEmpty
  rw [readInstruction_command]
  simp only [Command.request, readRequest, isClean, notBlank, Bool.false_eq_true, if_false]
  rfl

/-- A change of a menu goes to the menu made last, if it has the right name. -/
theorem changeMenu_append (steps : List Step) (id : String) {menu : Menu}
    (isClean : clean menu.name = menu.name) (change : Menu → Menu) :
    changeMenu (steps ++ [menuStep id menu]) menu.name change =
      .ok (steps ++ [menuStep id (change menu)]) := by
  have replaced : withMenu? (clean menu.name) change (menuStep id menu) =
      some (menuStep id (change menu)) := by
    rw [isClean, menuStep, withMenu?]
    simp [menuStep]
  rw [changeMenu, replaceLast?_append_singleton replaced]

theorem readInstruction_addMenuItem (ids : Ids) (steps : List Step) (id : String) {menu : Menu}
    (isClean : clean menu.name = menu.name) (title url : String) :
    readInstruction ids (steps ++ [menuStep id menu])
      (Command.addMenuItem menu.name title url).instruction =
        .ok (steps ++ [menuStep id
          (addItem { kind := .custom, pageId := none, title, url } menu)]) := by
  rw [readInstruction_command]
  exact changeMenu_append steps id isClean _

theorem readInstruction_assignMenu (ids : Ids) (steps : List Step) (id : String) {menu : Menu}
    (isClean : clean menu.name = menu.name) (location : String) :
    readInstruction ids (steps ++ [menuStep id menu])
      (Command.assignMenu menu.name location).instruction =
        .ok (steps ++ [menuStep id (setLocation location menu)]) := by
  rw [readInstruction_command]
  exact changeMenu_append steps id isClean _

/-- A menu item that leads to a page refers to the first step that makes a page of that
title. -/
theorem readInstruction_addPageItem (ids : Ids) (steps : List Step) (id : String) {menu : Menu}
    (isClean : clean menu.name = menu.name) {target : CreatedContent}
    (titleClean : clean target.title = target.title) {page : Step}
    (isPage : steps.find? (createsTitled target.title) = some page) :
    readInstruction ids (steps ++ [menuStep id menu])
      (Command.run (.addMenuItem menu.name target)).instruction =
        .ok (steps ++ [menuStep id
          (addItem { kind := .page, pageId := some page.id, title := "", url := "" } menu)]) := by
  rw [readInstruction_command]
  simp only [Command.request, readRequest, ofCode?_source (.addMenuItem menu.name target) rfl,
    effect?, addPageItem, lookupText_menu isClean, lookupText_title titleClean, titleClean,
    bind, Except.bind, List.find?_append, isPage, Option.some_or]
  exact changeMenu_append steps id isClean _

end SiteScript.Recovery

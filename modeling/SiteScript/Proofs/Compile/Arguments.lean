import SiteScript.Proofs.Compile.Emission
import SiteScript.Proofs.Php.Payloads

/-!
# The arguments of compiled commands

Splitting a command of a script gives back the arguments that its step asks for, with the
texts of the step cleaned and otherwise as they are.  A text never becomes more or fewer
arguments, and none becomes a part of a program but as a payload.
-/

namespace SiteScript

open Text (clean cleanOrEmpty)

/-! ## Programs -/

/-- The programs that a step may run, with the clean texts of the step and of the page or post that
it refers to. -/
inductive Runs (steps : List Step) : StepKind → Php.Program → Prop
  | insert {kind : StepKind} {type : PostType} {details : Content}
      (isContent : Compile.contentOf? kind = some (type, details)) :
    Runs steps kind (.insertPost type (Compile.orElse (clean details.status) "publish")
      (clean details.title) (clean details.body))
  | attachImage {kind : StepKind} {type : PostType} {details : Content}
      (isContent : Compile.contentOf? kind = some (type, details)) :
    Runs steps kind (.attachImage ⟨type, clean details.title⟩)
  | insertPage {kind : StepKind} {role : Compile.PageRole} {selection : PageSelection}
      (isSelection : Compile.selectionOf? kind = some (role, selection))
      (creates : selection.mode = .create) :
    Runs steps kind (.insertPost .page "publish" (clean selection.title) (clean selection.body))
  | select {kind : StepKind} {role : Compile.PageRole} {selection : PageSelection}
      {target : CreatedContent}
      (isSelection : Compile.selectionOf? kind = some (role, selection))
      (isTarget : Compile.target? steps selection.pageId = some target) :
    Runs steps kind (role.select target)
  | addRole (role : Role) :
    Runs steps (.addRole role) (.addRole (clean role.name) (Compile.cleanCapabilities role))
  | addMenuItem (menu : Menu) {item : MenuItem} {target : CreatedContent}
      (inMenu : item ∈ menu.items)
      (isTarget : Compile.target? steps item.pageId = some target) :
    Runs steps (.createMenu menu) (.addMenuItem (clean menu.name) target)

/-- Clean capabilities hold no forbidden characters when they are joined. -/
theorem Compile.packable_cleanCapabilities (role : Role) :
    Link.packable (",".intercalate (cleanCapabilities role)) =
      ",".intercalate (cleanCapabilities role) := by
  have notForbidden : ∀ capability ∈ cleanCapabilities role, ∀ c ∈ capability.toList,
      ¬ Text.isForbidden c := by
    intro capability isCapability c member isForbidden
    obtain ⟨text, -, rfl⟩ := List.mem_map.mp (List.mem_filter.mp isCapability).1
    rw [Text.toList_clean] at member
    exact Text.not_isControl_of_clean (Text.cleanChars_cleanChars text.toList) member
      (Text.isControl_of_isForbidden isForbidden)
  apply Link.packable_of_noneForbidden
  rw [String.toList_intercalate]
  cases capabilities : cleanCapabilities role with
  | nil => exact List.forall_mem_nil _
  | cons first later =>
      obtain ⟨ofFirst, ofLater⟩ := List.forall_mem_cons.mp (capabilities ▸ notForbidden)
      have comma : ",".toList = [','] := by decide
      rw [List.map_cons, comma, Text.intercalate_eq_append_flatMap, List.flatMap_map]
      intro c member
      rcases List.mem_append.mp member with inFirst | inLater
      · exact ofFirst c inFirst
      · obtain ⟨capability, isCapability, inCapability⟩ := List.mem_flatMap.mp inLater
        rcases List.mem_cons.mp inCapability with rfl | inCapability
        · decide
        · exact ofLater capability isCapability c inCapability

/-- The texts of a program that a step runs are packed as they are. -/
theorem Runs.packable_eq {steps : List Step} {kind : StepKind} {program : Php.Program}
    (runs : Runs steps kind program) :
    ∀ text, .text text ∈ program.payloads → Link.packable text = text := by
  have ofClean : ∀ texts : List String, (∀ text ∈ texts, clean text = text) →
      ∀ text, Php.Payload.text text ∈ texts.map .text → Link.packable text = text := by
    intro texts areClean text member
    obtain ⟨other, isText, equal⟩ := List.mem_map.mp member
    cases equal
    exact Link.packable_of_clean (areClean text isText)
  have publishClean : clean "publish" = "publish" := by decide
  cases runs with
  | @insert _ _ details =>
      exact ofClean [_, _, _] (by simp [Compile.clean_status, Text.clean_clean])
  | attachImage => exact ofClean [_] (by simp [Text.clean_clean])
  | insertPage => exact ofClean [_, _, _] (by simp [publishClean, Text.clean_clean])
  | @select _ role _ target isSelection isTarget =>
      have titleClean := Compile.clean_title_of_target? isTarget
      cases role <;> exact ofClean [_] (by simp [titleClean])
  | addRole role =>
      intro text member
      simp only [Php.Program.payloads, List.mem_cons, reduceCtorEq, false_or,
        Php.Payload.text.injEq, List.not_mem_nil, or_false] at member
      rcases member with rfl | rfl
      · exact Link.packable_of_clean (Text.clean_clean role.name)
      · exact Compile.packable_cleanCapabilities role
  | addMenuItem menu inMenu isTarget =>
      have titleClean := Compile.clean_title_of_target? isTarget
      exact ofClean [_, _] (by simp [titleClean, Text.clean_clean])

/-! ## Arguments -/

/-- The arguments with which a step may call the command-line tool. -/
inductive Invokes (steps : List Step) : StepKind → List String → Prop
  | page (details : Content) :
    Invokes steps (.addPage details) (Command.creationArguments .page
      (Compile.orElse (clean details.status) "publish") (clean details.title)
      (clean details.body))
  | post (details : Content) :
    Invokes steps (.addPost details) (Command.creationArguments .post
      (Compile.orElse (clean details.status) "publish") (clean details.title)
      (clean details.body))
  | homepage (selection : PageSelection) (creates : selection.mode = .create) :
    Invokes steps (.setHomepage selection)
      (Command.creationArguments .page "publish" (clean selection.title) (clean selection.body))
  | postsPage (selection : PageSelection) (creates : selection.mode = .create) :
    Invokes steps (.setPostsPage selection)
      (Command.creationArguments .page "publish" (clean selection.title) (clean selection.body))
  | pageImage (details : Content) {url : String} (hasImage : details.image = some url) :
    Invokes steps (.addPage details) ["wp", "media", "import", clean url]
  | postImage (details : Content) {url : String} (hasImage : details.image = some url) :
    Invokes steps (.addPost details) ["wp", "media", "import", clean url]
  | menu (menu : Menu) :
    Invokes steps (.createMenu menu) ["wp", "menu", "create", clean menu.name]
  | menuItem (menu : Menu) {item : MenuItem} (inMenu : item ∈ menu.items)
      (isCustom : item.kind = .custom) :
    Invokes steps (.createMenu menu)
      ["wp", "menu", "item", "add-custom", clean menu.name, clean item.title, clean item.url]
  | menuLocation (menu : Menu) {location : String} (hasLocation : menu.location = some location) :
    Invokes steps (.createMenu menu)
      ["wp", "menu", "location", "assign", clean menu.name, clean location]
  /-- A program that is printable and needs no escapes between single quotes.  Without its payloads
  it is one of a few fixed texts, and its payloads are the texts that the step has for it: in
  Base64, and the identifier of a role in letters, digits and underscores. -/
  | program {kind : StepKind} {program : Php.Program} {code : String}
      (runs : Runs steps kind program) (plain : ∀ c ∈ code.toList, Php.isPlainChar c)
      (framed : Php.strip code ∈ Php.frames)
      (filled : Php.Fills (Php.strip code).toList program.payloads code.toList) :
    Invokes steps kind ["wp", "eval", code]

namespace Compile

variable {steps : List Step} {kind : StepKind}

/-- A program that a step runs has its texts as payloads. -/
theorem invokes_run {program : Php.Program} (runs : Runs steps kind program) :
    Invokes steps kind (Command.run program).arguments := by
  rw [Command.arguments_eq]
  exact .program runs (fun _ => Php.isPlainChar_of_mem_source) (Php.strip_source_mem_frames program)
    (Php.fills_source runs.packable_eq)

/-- The command that makes content has its texts as arguments or runs a program. -/
theorem invokes_createContent {created : CreatedContent} {body status : String}
    (invokes : Invokes steps kind (Command.creationArguments created.type
      (orElse (clean status) "publish") created.title (clean body)))
    (runs : Runs steps kind (.insertPost created.type (orElse (clean status) "publish")
      created.title (clean body))) :
    Invokes steps kind (createContent created body status).arguments := by
  rw [createContent_eq]
  split
  · exact invokes_run runs
  · rw [Command.arguments_eq]
    exact invokes

/-- A command of a block is a command instruction. -/
theorem line_of_instruction {command : Command} {line : String}
    (equal : Instruction.command line = command.instruction) :
    Shell.split line = command.arguments := by
  cases equal
  exact command.split_line

theorem invokes_of_contentOf? {type : PostType} {details : Content}
    (isContent : contentOf? kind = some (type, details)) :
    Invokes steps kind (Command.creationArguments type (orElse (clean details.status) "publish")
      (clean details.title) (clean details.body)) := by
  cases kind with
  | addPage details =>
      cases isContent
      exact .page details
  | addPost details =>
      cases isContent
      exact .post details
  | _ => cases isContent

theorem invokes_of_selectionOf? {role : PageRole} {selection : PageSelection}
    (isSelection : selectionOf? kind = some (role, selection))
    (creates : selection.mode = .create) :
    Invokes steps kind (Command.creationArguments .page "publish" (clean selection.title)
      (clean selection.body)) := by
  cases kind with
  | setHomepage selection =>
      cases isSelection
      exact .homepage selection creates
  | setPostsPage selection =>
      cases isSelection
      exact .postsPage selection creates
  | _ => cases isSelection

theorem invokes_image {type : PostType} {details : Content} {url : String}
    (isContent : contentOf? kind = some (type, details)) (hasImage : details.image = some url) :
    Invokes steps kind ["wp", "media", "import", clean url] := by
  cases kind with
  | addPage details =>
      cases isContent
      exact .pageImage details hasImage
  | addPost details =>
      cases isContent
      exact .postImage details hasImage
  | _ => cases isContent

/-- The commands of a step have the arguments that the step asks for. -/
theorem invokes_of_emits {settings : Settings} {position : Nat} {line : String}
    (emits : Emits settings steps position kind (.command line)) :
    Invokes steps kind (Shell.split line) := by
  generalize equal : Instruction.command line = instruction at emits
  cases emits with
  | createContent isContent titled =>
      rw [line_of_instruction equal, eq_of_titled? titled]
      exact invokes_createContent (invokes_of_contentOf? isContent) (.insert isContent)
  | importImage isContent hasImage =>
      rw [line_of_instruction equal, Command.arguments_eq]
      exact invokes_image isContent hasImage
  | attachImage isContent titled =>
      rw [line_of_instruction equal, eq_of_titled? titled]
      exact invokes_run (.attachImage isContent)
  | createPage isSelection creates titled =>
      have published : orElse (clean "publish") "publish" = "publish" := by decide
      rw [line_of_instruction equal, eq_of_titled? titled]
      apply invokes_createContent
      · rw [published]
        exact invokes_of_selectionOf? isSelection creates
      · rw [published]
        exact .insertPage isSelection creates
  | pin isSelection =>
      rename_i role _
      cases role <;> cases equal
  | select isSelection isTarget =>
      rw [line_of_instruction equal]
      exact invokes_run (.select isSelection isTarget)
  | addRole role =>
      rw [line_of_instruction equal]
      exact invokes_run (.addRole role)
  | createMenu menu =>
      rw [line_of_instruction equal, Command.arguments_eq]
      exact .menu menu
  | addPageItem menu inMenu isTarget =>
      rw [line_of_instruction equal]
      exact invokes_run (.addMenuItem menu inMenu isTarget)
  | addCustomItem menu inMenu isCustom =>
      rw [line_of_instruction equal, Command.arguments_eq]
      exact .menuItem menu inMenu isCustom
  | assignMenu menu hasLocation =>
      rw [line_of_instruction equal, Command.arguments_eq]
      exact .menuLocation menu hasLocation
  | _ => cases equal

end Compile

/-- Every command of a script is split into arguments that one of the plan's steps asks for. -/
theorem invokes_of_mem_entries {settings : Settings} {plan : Plan} {line : String}
    (member : .known (.command line) ∈ (plan.compile settings).entries) :
    ∃ step ∈ plan.steps, Invokes plan.steps step.kind (Shell.split line) := by
  rcases Compile.known_mem_entries.mp member with inPreamble | ⟨position, step, isStep, inBlock⟩
  · rw [Compile.preamble, Compile.titleOption] at inPreamble
    split at inPreamble <;> simp [Instruction.options] at inPreamble
  · exact ⟨step, List.mem_of_getElem? isStep,
      Compile.invokes_of_emits (Compile.emits_of_mem_block inBlock)⟩

/-- A plan whose page has quotes, a backslash and what looks like a flag in its texts, and whose role
has a name that looks like the rest of a program. -/
def quotingPlan : Plan :=
  { title := ""
    landing := .admin
    landingUrl := none
    steps := [
      { id := "quotes", kind := .addPage {
        title := "It's", body := "' --user=\\", status := "", image := none } },
      { id := "role", kind := .addRole { name := "\", die('", capabilities := ["read"] } }] }

/-- The command that makes the page of `quotingPlan`. -/
def quotingLine : String :=
  "wp post create --post_type=page --post_status='publish' --post_title='It\\'s' " ++
    "--post_content='\\' --user=\\\\'"

/-- The command that adds the role of `quotingPlan`. -/
def quotingRoleLine : String :=
  "wp eval 'add_role(\"die\", base64_decode(\"IiwgZGllKCc=\"), " ++
    "array_fill_keys(explode(\",\", base64_decode(\"cmVhZA==\")), true));'"

theorem invokes_of_mem_entries_quotingPlan :
    (.known (.command quotingLine) ∈ (quotingPlan.compile .default).entries ∧
      ∃ step ∈ quotingPlan.steps, Invokes quotingPlan.steps step.kind (Shell.split quotingLine)) ∧
    .known (.command quotingRoleLine) ∈ (quotingPlan.compile .default).entries ∧
      ∃ step ∈ quotingPlan.steps,
        Invokes quotingPlan.steps step.kind (Shell.split quotingRoleLine) := by
  have isEntry : .known (.command quotingLine) ∈ (quotingPlan.compile .default).entries := by
    decide +kernel
  have isRoleEntry : .known (.command quotingRoleLine) ∈ (quotingPlan.compile .default).entries := by
    decide +kernel
  exact ⟨⟨isEntry, invokes_of_mem_entries isEntry⟩, isRoleEntry, invokes_of_mem_entries isRoleEntry⟩

end SiteScript

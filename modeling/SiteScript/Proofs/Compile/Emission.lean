import SiteScript.Compile
import SiteScript.Proofs.Json.Strings

/-!
# What a plan emits

The instructions of a script come from its preamble and from the steps of the plan, in
order.
-/

namespace SiteScript

namespace Compile

open Text (clean cleanOrEmpty)

/-- An instruction with the step that asks for it, if a step does. -/
abbrev Emission := Option Step × Instruction

/-- Instructions that all come from the same step, or from none. -/
def emissionsOf (origin : Option Step) (instructions : List Instruction) : List Emission :=
  instructions.map (origin, ·)

/-- What some steps of a plan emit, the first of which has the given position. -/
def emittedFrom (settings : Settings) (steps : List Step) (position : Nat) (part : List Step) :
    List Emission :=
  (part.zipIdx position).flatMap fun (step, position) =>
    emissionsOf (some step) (block settings steps position step.kind)

/-- What a plan emits; its preamble is asked for by no step. -/
def emitted (settings : Settings) (plan : Plan) : List Emission :=
  emissionsOf none (preamble settings plan.title) ++ emittedFrom settings plan.steps 0 plan.steps

theorem emittedFrom_cons (settings : Settings) (steps : List Step) (position : Nat) (step : Step)
    (rest : List Step) :
    emittedFrom settings steps position (step :: rest) =
      emissionsOf (some step) (block settings steps position step.kind) ++
        emittedFrom settings steps (position + 1) rest := by
  simp [emittedFrom, List.zipIdx_cons]

/-- The script of a plan has what the plan emits. -/
theorem entries_compile (settings : Settings) (plan : Plan) :
    (plan.compile settings).entries =
      (emitted settings plan).map fun emission => .known emission.2 := by
  simp [Plan.compile, emitted, emittedFrom, emissionsOf, blocks, List.flatMap, List.map_flatten,
    Function.comp_def]

/-- An instruction of a script is in its preamble or in the block of a step. -/
theorem known_mem_entries {settings : Settings} {plan : Plan} {instruction : Instruction} :
    .known instruction ∈ (plan.compile settings).entries ↔
      instruction ∈ preamble settings plan.title ∨
        ∃ position step, plan.steps[position]? = some step ∧
          instruction ∈ block settings plan.steps position step.kind := by
  simp only [Plan.compile, blocks, List.mem_map, List.mem_append, List.mem_flatten,
    Entry.known.injEq, exists_eq_right]
  refine or_congr_right ?_
  constructor
  · rintro ⟨_, ⟨⟨step, position⟩, isStep, rfl⟩, member⟩
    exact ⟨position, step, List.mem_zipIdx_iff_getElem?.mp isStep, member⟩
  · rintro ⟨position, step, isStep, member⟩
    exact ⟨_, ⟨(step, position), List.mem_zipIdx_iff_getElem?.mpr isStep, rfl⟩, member⟩

/-- Every entry of a script is an instruction. -/
theorem exists_known_of_mem_entries {settings : Settings} {plan : Plan} {entry : Entry}
    (isEntry : entry ∈ (plan.compile settings).entries) :
    ∃ instruction, entry = .known instruction := by
  rw [entries_compile] at isEntry
  obtain ⟨emission, -, equal⟩ := List.mem_map.mp isEntry
  exact ⟨emission.2, equal.symm⟩

/-! ## Blocks one after the other -/

/-- The instructions of some steps of a plan, the first of which has the given position. -/
def blocksFrom (settings : Settings) (steps : List Step) (position : Nat) (part : List Step) :
    List Instruction :=
  (part.zipIdx position).flatMap fun (step, position) => block settings steps position step.kind

@[simp]
theorem blocksFrom_nil (settings : Settings) (steps : List Step) (position : Nat) :
    blocksFrom settings steps position [] = [] :=
  rfl

@[simp]
theorem blocksFrom_cons (settings : Settings) (steps : List Step) (position : Nat) (step : Step)
    (rest : List Step) :
    blocksFrom settings steps position (step :: rest) =
      block settings steps position step.kind ++
        blocksFrom settings steps (position + 1) rest := by
  simp [blocksFrom, List.zipIdx_cons]

theorem blocksFrom_append (settings : Settings) (steps : List Step) (position : Nat)
    (first second : List Step) :
    blocksFrom settings steps position (first ++ second) =
      blocksFrom settings steps position first ++
        blocksFrom settings steps (position + first.length) second := by
  simp [blocksFrom, List.zipIdx_append]

/-- The instructions of a script. -/
theorem instructions_compile (settings : Settings) (plan : Plan) :
    (plan.compile settings).instructions =
      preamble settings plan.title ++ blocksFrom settings plan.steps 0 plan.steps := by
  simp [Document.instructions, Plan.compile, blocks, blocksFrom, List.flatMap,
    List.filterMap_map, Function.comp_def, Entry.instruction?]

/-- A script has nothing but instructions. -/
theorem entries_eq_map_instructions (settings : Settings) (plan : Plan) :
    (plan.compile settings).entries = (plan.compile settings).instructions.map .known := by
  rw [instructions_compile]
  simp [Plan.compile, blocks, blocksFrom, List.flatMap]

/-! ## Clean texts -/

/-- The command that makes a page or post, by its clean texts. -/
theorem createContent_eq (created : CreatedContent) (body status : String) :
    createContent created body status =
      if Text.contains (clean body) blockMarkup then
        .run (.insertPost created.type (orElse (clean status) "publish") created.title (clean body))
      else
        .createPost created.type (orElse (clean status) "publish") created.title (clean body) :=
  rfl

theorem cleanOrEmpty_some (text : String) : cleanOrEmpty (some text) = clean text :=
  rfl

@[simp]
theorem clean_cleanOrEmpty (text : Option String) :
    clean (cleanOrEmpty text) = cleanOrEmpty text := by
  cases text with
  | none => decide
  | some text => exact Text.clean_clean text

theorem clean_orElse {text other : String} (textClean : clean text = text)
    (otherClean : clean other = other) : clean (orElse text other) = orElse text other := by
  rw [orElse]
  split
  · exact otherClean
  · exact textClean

/-- The status that content gets is clean. -/
theorem clean_status (status : String) :
    clean (orElse (clean status) "publish") = orElse (clean status) "publish" := by
  have publishClean : clean "publish" = "publish" := by
    decide
  exact clean_orElse (Text.clean_clean status) publishClean

/-- What has been put in place of an empty text is put there again. -/
@[simp]
theorem orElse_orElse (text other : String) :
    orElse (orElse text other) other = orElse text other := by
  by_cases isEmpty : text.isEmpty = true
  · rw [orElse, orElse, if_pos isEmpty, ite_self]
  · rw [orElse, orElse, if_neg isEmpty, if_neg isEmpty]

/-- Titled content is of the given type and has the clean title. -/
theorem eq_of_titled? {type : PostType} {title : String} {created : CreatedContent}
    (titled : CreatedContent.titled? type title = some created) :
    created = { type, title := clean title } := by
  rw [CreatedContent.titled?] at titled
  split at titled
  · cases titled
  · exact (Option.some.inj titled).symm

theorem clean_title_of_titled? {type : PostType} {title : String} {created : CreatedContent}
    (titled : CreatedContent.titled? type title = some created) :
    clean created.title = created.title := by
  rw [eq_of_titled? titled]
  exact Text.clean_clean title

theorem title_ne_empty_of_titled? {type : PostType} {title : String} {created : CreatedContent}
    (titled : CreatedContent.titled? type title = some created) : created.title ≠ "" := by
  rw [CreatedContent.titled?] at titled
  split at titled
  · cases titled
  · rename_i notEmpty
    rw [← Option.some.inj titled, ne_eq, ← String.isEmpty_iff]
    exact notEmpty

/-- Content keeps its type and title when it is titled again. -/
theorem titled?_title {type : PostType} {title : String} {created : CreatedContent}
    (titled : CreatedContent.titled? type title = some created) :
    CreatedContent.titled? created.type created.title = some created := by
  have notEmpty := title_ne_empty_of_titled? titled
  rw [ne_eq, ← String.isEmpty_iff] at notEmpty
  rw [CreatedContent.titled?, clean_title_of_titled? titled, if_neg notEmpty]

/-- Posts are made by the steps that add them, and everything else that is made is a page. -/
theorem post_or_page_of_created? {kind : StepKind} {created : CreatedContent}
    (creates : kind.created? = some created) :
    (∃ details, kind = .addPost details ∧
        created = { type := .post, title := clean details.title }) ∨
      ∃ title, created = { type := .page, title := clean title } := by
  cases kind with
  | addPage details => exact Or.inr ⟨details.title, eq_of_titled? creates⟩
  | addPost details => exact Or.inl ⟨details, rfl, eq_of_titled? creates⟩
  | setHomepage selection =>
      rw [StepKind.created?] at creates
      split at creates
      · exact Or.inr ⟨selection.title, eq_of_titled? creates⟩
      · cases creates
  | setPostsPage selection =>
      rw [StepKind.created?] at creates
      split at creates
      · exact Or.inr ⟨selection.title, eq_of_titled? creates⟩
      · cases creates
  | _ => cases creates

/-- What a step makes has a clean title. -/
theorem clean_title_of_created? {kind : StepKind} {created : CreatedContent}
    (creates : kind.created? = some created) : clean created.title = created.title := by
  rcases post_or_page_of_created? creates with ⟨details, -, rfl⟩ | ⟨title, rfl⟩
  · exact Text.clean_clean details.title
  · exact Text.clean_clean title

theorem clean_title_of_target? {steps : List Step} {pageId : Option String}
    {target : CreatedContent} (isTarget : target? steps pageId = some target) :
    clean target.title = target.title := by
  obtain ⟨_, -, isTarget⟩ := Option.bind_eq_some_iff.mp isTarget
  obtain ⟨_, -, creates⟩ := Option.bind_eq_some_iff.mp isTarget
  exact clean_title_of_created? creates

/-- The options that select the page with a number. -/
def pinned (role : PageRole) (number : Nat) : Members Json :=
  match role with
  | .homepage => [("show_on_front", .str "page"), ("page_on_front", .nat number)]
  | .postsPage => [("page_for_posts", .nat number)]

theorem pin_eq (role : PageRole) (number : Nat) :
    role.pin number = .setSiteOptions (pinned role number) := by
  cases role <;> rfl

/-- The options that select a page are clean. -/
theorem cleanMembers_pinned (role : PageRole) (number : Nat) :
    Json.CleanMembers (pinned role number) := by
  have namesClean : ∀ name ∈ ["show_on_front", "page_on_front", "page_for_posts", "page"],
      clean name = name := by
    decide +kernel
  simp only [List.forall_mem_cons] at namesClean
  obtain ⟨shownClean, frontClean, postsClean, pageClean, -⟩ := namesClean
  cases role with
  | homepage =>
      simp [pinned, Json.CleanMembers, Json.deepClean, Json.nat, shownClean, frontClean,
        pageClean]
  | postsPage => simp [pinned, Json.CleanMembers, Json.deepClean, Json.nat, postsClean]

/-- Constants that are defined have clean names and values. -/
theorem cleanMembers_cleanConstants (constants : Members Json) :
    Json.CleanMembers (cleanConstants constants) := by
  apply Json.CleanMembers.ofPairs
  intro member isMember
  obtain ⟨constant, -, rfl⟩ := List.mem_map.mp (List.mem_filter.mp isMember).1
  exact ⟨Text.clean_clean constant.1, Json.deepClean_deepClean constant.2⟩

/-- Constants that have been cleaned stay as they are. -/
@[simp]
theorem cleanConstants_cleanConstants (constants : Members Json) :
    cleanConstants (cleanConstants constants) = cleanConstants constants := by
  have named : ∀ constant ∈ cleanConstants constants, !constant.1.isEmpty := fun constant member =>
    (List.mem_filter.mp (Members.mem_of_mem_ofPairs member)).2
  conv => lhs; rw [cleanConstants]
  rw [(cleanMembers_cleanConstants constants).map_eq, List.filter_eq_self.mpr named]
  exact Members.ofPairs_ofPairs _

/-! ## What a step can emit -/

/-- The type and the details of a step that makes a page or post by itself. -/
def contentOf? : StepKind → Option (PostType × Content)
  | .addPage details => some (.page, details)
  | .addPost details => some (.post, details)
  | _ => none

/-- The kind of a step that selects a page for a role. -/
def PageRole.kind : PageRole → PageSelection → StepKind
  | .homepage => .setHomepage
  | .postsPage => .setPostsPage

theorem block_kind (settings : Settings) (steps : List Step) (position : Nat) (role : PageRole)
    (selection : PageSelection) :
    block settings steps position (role.kind selection) =
      pageSelection steps position role (role.kind selection).created? selection := by
  cases role <;> rfl

/-- The role and the choice of a step that selects a page. -/
def selectionOf? : StepKind → Option (PageRole × PageSelection)
  | .setHomepage selection => some (.homepage, selection)
  | .setPostsPage selection => some (.postsPage, selection)
  | _ => none

theorem eq_of_selectionOf? {kind : StepKind} {role : PageRole} {selection : PageSelection}
    (isSelection : selectionOf? kind = some (role, selection)) : kind = role.kind selection := by
  cases kind <;> cases isSelection <;> rfl

theorem created?_of_contentOf? {kind : StepKind} {type : PostType} {details : Content}
    (isContent : contentOf? kind = some (type, details)) :
    kind.created? = CreatedContent.titled? type details.title := by
  cases kind <;> cases isContent <;> rfl

theorem created?_of_selectionOf? {kind : StepKind} {role : PageRole} {selection : PageSelection}
    (isSelection : selectionOf? kind = some (role, selection))
    (creates : selection.mode = .create) :
    kind.created? = CreatedContent.titled? .page selection.title := by
  cases kind <;> cases isSelection <;> simp only [StepKind.created?, creates]

/-- The instructions that a step at a position can emit, each with what the step must have
for it. -/
inductive Emits (settings : Settings) (steps : List Step) (position : Nat) :
    StepKind → Instruction → Prop
  | createContent {kind : StepKind} {type : PostType} {details : Content}
      {created : CreatedContent} (isContent : contentOf? kind = some (type, details))
      (titled : CreatedContent.titled? type details.title = some created) :
    Emits settings steps position kind
      (createContent created details.body details.status).instruction
  | importImage {kind : StepKind} {type : PostType} {details : Content} {url : String}
      (isContent : contentOf? kind = some (type, details)) (hasImage : details.image = some url) :
    Emits settings steps position kind (Command.importMedia (clean url)).instruction
  | attachImage {kind : StepKind} {type : PostType} {details : Content}
      {created : CreatedContent} (isContent : contentOf? kind = some (type, details))
      (titled : CreatedContent.titled? type details.title = some created) :
    Emits settings steps position kind (Command.run (.attachImage created)).instruction
  | createPage {kind : StepKind} {role : PageRole} {selection : PageSelection}
      {created : CreatedContent} (isSelection : selectionOf? kind = some (role, selection))
      (creates : selection.mode = .create)
      (titled : CreatedContent.titled? .page selection.title = some created) :
    Emits settings steps position kind
      (createContent created selection.body "publish").instruction
  | pin {kind : StepKind} {role : PageRole} {selection : PageSelection}
      (isSelection : selectionOf? kind = some (role, selection)) :
    Emits settings steps position kind (role.pin (Numbering.createdAt position steps))
  | select {kind : StepKind} {role : PageRole} {selection : PageSelection}
      {target : CreatedContent} (isSelection : selectionOf? kind = some (role, selection))
      (isTarget : target? steps selection.pageId = some target) :
    Emits settings steps position kind (Command.run (role.select target)).instruction
  | installPlugin (details : Installation) (source : Resource) (activate : Bool) :
    Emits settings steps position (.installPlugin details)
      (.installPlugin source.cleaned activate)
  | installTheme (details : Installation) (source : Resource) (activate : Bool) :
    Emits settings steps position (.installTheme details)
      (.installTheme source.cleaned activate)
  | setSiteOption (option : SiteOption) :
    Emits settings steps position (.setSiteOption option)
      (.options [(clean option.name, option.value.deepClean)])
  | defineConstants (constants : Members Json) :
    Emits settings steps position (.defineConstants constants)
      (.defineConstants (cleanConstants constants))
  | login (credentials : Credentials) :
    Emits settings steps position (.login credentials)
      (.login (orElse (cleanOrEmpty credentials.username) settings.adminUsername)
        (orElse (cleanOrEmpty credentials.password) settings.adminPassword))
  | importContent (url : String) :
    Emits settings steps position (.importContent url) (.importContent (.address (clean url)))
  | addRole (role : Role) :
    Emits settings steps position (.addRole role)
      (Command.run (.addRole (clean role.name) (cleanCapabilities role))).instruction
  | createMenu (menu : Menu) :
    Emits settings steps position (.createMenu menu)
      (Command.createMenu (clean menu.name)).instruction
  | addPageItem (menu : Menu) {item : MenuItem} {target : CreatedContent}
      (inMenu : item ∈ menu.items) (isTarget : target? steps item.pageId = some target) :
    Emits settings steps position (.createMenu menu)
      (Command.run (.addMenuItem (clean menu.name) target)).instruction
  | addCustomItem (menu : Menu) {item : MenuItem} (inMenu : item ∈ menu.items)
      (isCustom : item.kind = .custom) :
    Emits settings steps position (.createMenu menu)
      (Command.addMenuItem (clean menu.name) (clean item.title) (clean item.url)).instruction
  | assignMenu (menu : Menu) {location : String} (hasLocation : menu.location = some location) :
    Emits settings steps position (.createMenu menu)
      (Command.assignMenu (clean menu.name) (clean location)).instruction

section

variable {settings : Settings} {steps : List Step} {position : Nat} {kind : StepKind}
variable {instruction : Instruction}

theorem exists_clean_eq_of_cleanOrEmpty {text : Option String}
    (notEmpty : (cleanOrEmpty text).isEmpty = false) :
    ∃ value, text = some value ∧ cleanOrEmpty text = clean value := by
  cases text with
  | none => simp [cleanOrEmpty] at notEmpty
  | some value => exact ⟨value, rfl, rfl⟩

theorem emits_of_mem_content {type : PostType} {details : Content}
    (isContent : contentOf? kind = some (type, details))
    (member : instruction ∈ content kind.created? details) :
    Emits settings steps position kind instruction := by
  rw [created?_of_contentOf? isContent] at member
  unfold content at member
  split at member
  · cases member
  · rename_i created titled
    rw [List.map_cons] at member
    rcases List.mem_cons.mp member with rfl | inImage
    · exact .createContent isContent titled
    · obtain ⟨command, isCommand, rfl⟩ := List.mem_map.mp inImage
      rw [featuredImage] at isCommand
      split at isCommand
      · cases isCommand
      · rename_i notEmpty
        rw [Bool.not_eq_true] at notEmpty
        obtain ⟨url, hasImage, cleanUrl⟩ := exists_clean_eq_of_cleanOrEmpty notEmpty
        rw [cleanUrl] at isCommand
        rcases List.mem_cons.mp isCommand with rfl | isAttach
        · exact .importImage isContent hasImage
        · rw [List.mem_singleton.mp isAttach]
          exact .attachImage isContent titled

theorem emits_of_mem_pageSelection {role : PageRole} {selection : PageSelection}
    (isSelection : selectionOf? kind = some (role, selection))
    (member : instruction ∈ pageSelection steps position role kind.created? selection) :
    Emits settings steps position kind instruction := by
  unfold pageSelection at member
  split at member
  · rename_i creates
    rw [created?_of_selectionOf? isSelection creates] at member
    split at member
    · cases member
    · rename_i created titled
      rcases List.mem_cons.mp member with rfl | isPin
      · exact .createPage isSelection creates titled
      · rw [List.mem_singleton.mp isPin]
        exact .pin isSelection
  · split at member
    · cases member
    · rename_i target isTarget
      rw [List.mem_singleton.mp member]
      exact .select isSelection isTarget

theorem exists_of_mem_installation {provides : Resource → Bool}
    {install : Resource → Bool → Instruction} {details : Installation}
    (member : instruction ∈ installation provides install details) :
    ∃ source activate, instruction = install (Resource.cleaned source) activate := by
  rw [installation] at member
  split at member
  · cases member
  · split at member
    · exact ⟨_, _, List.mem_singleton.mp member⟩
    · cases member

theorem emits_of_mem_menuCommands {menu : Menu} {command : Command}
    (member : command ∈ menuCommands steps menu) :
    Emits settings steps position (.createMenu menu) command.instruction := by
  rw [menuCommands] at member
  split at member
  · cases member
  rw [List.cons_append, List.mem_cons, List.mem_append, List.mem_flatMap] at member
  rcases member with rfl | ⟨item, inMenu, isItem⟩ | isLocation
  · exact .createMenu menu
  · rw [menuItem] at isItem
    split at isItem
    · split at isItem
      · cases isItem
      · rename_i target isTarget
        rw [List.mem_singleton.mp isItem]
        exact .addPageItem menu inMenu isTarget
    · rename_i isCustom
      split at isItem
      · cases isItem
      · rw [List.mem_singleton.mp isItem]
        exact .addCustomItem menu inMenu isCustom
  · rw [menuLocation] at isLocation
    split at isLocation
    · cases isLocation
    · rename_i notEmpty
      rw [Bool.not_eq_true] at notEmpty
      obtain ⟨location, hasLocation, cleanLocation⟩ := exists_clean_eq_of_cleanOrEmpty notEmpty
      rw [List.mem_singleton.mp isLocation, cleanLocation]
      exact .assignMenu menu hasLocation

/-- A block has no instructions but those that its step can emit. -/
theorem emits_of_mem_block (member : instruction ∈ block settings steps position kind) :
    Emits settings steps position kind instruction := by
  cases kind with
  | addPage details => exact emits_of_mem_content rfl member
  | addPost details => exact emits_of_mem_content rfl member
  | installPlugin details =>
      rw [block] at member
      obtain ⟨source, activate, rfl⟩ := exists_of_mem_installation member
      exact .installPlugin details source activate
  | installTheme details =>
      rw [block] at member
      obtain ⟨source, activate, rfl⟩ := exists_of_mem_installation member
      exact .installTheme details source activate
  | setSiteOption option =>
      rw [block, siteOption] at member
      rw [List.mem_singleton.mp (List.mem_ite_nil_left.mp member).2]
      exact .setSiteOption option
  | defineConstants constants =>
      rw [block, defineConstants] at member
      rw [List.mem_singleton.mp (List.mem_ite_nil_left.mp member).2]
      exact .defineConstants constants
  | login credentials =>
      rw [List.mem_singleton.mp member]
      exact .login credentials
  | importContent url =>
      rw [block, importContent] at member
      rw [List.mem_singleton.mp (List.mem_ite_nil_left.mp member).2]
      exact .importContent url
  | addRole role =>
      rw [block, addRole] at member
      rw [List.mem_singleton.mp (List.mem_ite_nil_left.mp member).2]
      exact .addRole role
  | setHomepage selection => exact emits_of_mem_pageSelection rfl member
  | setPostsPage selection => exact emits_of_mem_pageSelection rfl member
  | createMenu menu =>
      rw [block] at member
      obtain ⟨command, isCommand, rfl⟩ := List.mem_map.mp member
      exact emits_of_mem_menuCommands isCommand
  | setLanding landing => cases member
  | unknown kind data => cases member

end

end Compile

end SiteScript

import SiteScript.Proofs.Compile.Numbering
import SiteScript.Proofs.Compile.Renaming
import SiteScript.Proofs.Compile.Reordering
import SiteScript.Proofs.Php.Sources

/-!
# Runtime lookups

What a step refers to by identifier is looked up by its title when the script runs.  References
may lead to any step of the plan, but the blocks of the steps stand in the script in one forward
pass: so whatever is looked up is made somewhere in the script, and it has been made before exactly
if a step up to the one that asks for the lookup makes it.
-/

namespace SiteScript

open Text (clean)

/-- The name of a type tells the type. -/
theorem PostType.eq_of_name_eq {first second : PostType} (same : first.name = second.name) :
    first = second := by
  cases first <;> cases second <;> first | rfl | exact absurd same (by decide)

/-! ## Lookups and what they look up -/

namespace Instruction

/-- An instruction that runs a program which looks up the given page or post. -/
inductive LooksUp (target : CreatedContent) : Instruction → Prop
  | program {line : String} (program : Php.Program)
      (split : Shell.split line = ["wp", "eval", program.source])
      (isLookup : program.lookedUp? = some target) :
    LooksUp target (.command line)

/-- What makes a page or post looks up nothing. -/
theorem Makes.not_looksUp {created target : CreatedContent} {instruction : Instruction}
    (makes : instruction.Makes created) : ¬ instruction.LooksUp target := by
  rintro ⟨program, split, isLookup⟩
  obtain ⟨status, body, splitMakes⟩ | ⟨status, body, splitMakes⟩ := makes
  · rw [split] at splitMakes
    simp [Command.creationArguments] at splitMakes
  · rw [split] at splitMakes
    have sameSource := (List.cons.inj (List.cons.inj (List.cons.inj splitMakes).2).2).1
    rw [Php.lookedUp?_congr sameSource] at isLookup
    cases isLookup

end Instruction

namespace Command

/-- The page or post that a command makes. -/
def made? : Command → Option CreatedContent
  | .createPost type _ title _ => some { type, title }
  | .run program => program.made?
  | _ => none

/-- The page or post that a command looks up. -/
def lookedUp? : Command → Option CreatedContent
  | .run program => program.lookedUp?
  | _ => none

variable {command : Command} {target : CreatedContent}

theorem source_eq_of_arguments_eq {program : Php.Program} {text : String}
    (same : (Command.run program).arguments = ["wp", "eval", text]) : program.source = text := by
  rw [arguments_eq] at same
  exact (List.cons.inj (List.cons.inj (List.cons.inj same).2).2).1

/-- The line of a command tells what the command looks up. -/
theorem lookedUp?_of_looksUp (looksUp : command.instruction.LooksUp target) :
    command.lookedUp? = some target := by
  obtain ⟨program, split, isLookup⟩ := looksUp
  rw [split_line] at split
  cases command with
  | run other =>
      rw [← isLookup]
      exact Php.lookedUp?_congr (source_eq_of_arguments_eq split)
  | _ =>
      rw [arguments_eq] at split
      simp [creationArguments] at split

theorem looksUp_run {program : Php.Program} (isLookup : program.lookedUp? = some target) :
    (Command.run program).instruction.LooksUp target := by
  refine .program program ?_ isLookup
  rw [split_line, arguments_eq]

/-- The line of a command tells what the command makes. -/
theorem made?_of_makes (makes : command.instruction.Makes target)
    (titleClean : clean target.title = target.title) : command.made? = some target := by
  obtain ⟨status, body, split⟩ | ⟨status, body, split⟩ := makes
  · rw [split_line, arguments_eq] at split
    cases command with
    | createPost type otherStatus title otherBody =>
        simp only [creationArguments, List.cons.injEq, String.append_right_inj, true_and,
          and_true] at split
        obtain ⟨sameType, -, sameTitle, -⟩ := split
        rw [made?, PostType.eq_of_name_eq sameType, sameTitle]
    | _ => simp [creationArguments] at split
  · rw [split_line] at split
    cases command with
    | run program =>
        rw [made?, Php.made?_congr (source_eq_of_arguments_eq split), Php.Program.made?,
          Link.packable_of_clean titleClean]
    | _ =>
        rw [arguments_eq] at split
        simp [creationArguments] at split

end Command

namespace Compile

variable {settings : Settings} {plan : Plan} {steps : List Step} {position : Nat}
variable {kind : StepKind} {instruction : Instruction} {target : CreatedContent}

/-! ## What steps make -/

theorem made?_createContent {created : CreatedContent} {body status : String}
    (titleClean : clean created.title = created.title) :
    (createContent created body status).made? = some created := by
  rw [createContent_eq]
  split
  · rw [Command.made?, Php.Program.made?, Link.packable_of_clean titleClean]
  · rfl

theorem lookedUp?_createContent (created : CreatedContent) (body status : String) :
    (createContent created body status).lookedUp? = none := by
  rw [createContent_eq]
  split <;> rfl

/-- An instruction of a step makes only what the step makes. -/
theorem created?_of_makes (titleClean : clean target.title = target.title)
    (member : instruction ∈ block settings steps position kind)
    (makes : instruction.Makes target) : kind.created? = some target := by
  cases emits_of_mem_block member with
  | @createContent kind type details created isContent titled =>
      have made := Command.made?_of_makes makes titleClean
      rw [made?_createContent (clean_title_of_titled? titled)] at made
      rw [created?_of_contentOf? isContent, titled, made]
  | @createPage kind role selection created isSelection creates titled =>
      have made := Command.made?_of_makes makes titleClean
      rw [made?_createContent (clean_title_of_titled? titled)] at made
      rw [created?_of_selectionOf? isSelection creates, titled, made]
  | @pin kind role =>
      rw [pin_eq] at makes
      cases makes
  | @select kind role =>
      have made := Command.made?_of_makes makes titleClean
      cases role <;> cases made
  | installPlugin | installTheme | setSiteOption | defineConstants | login | importContent =>
      cases makes
  | _ => cases Command.made?_of_makes makes titleClean

/-- A step makes a page or post exactly if an instruction of it does. -/
theorem exists_makes_iff (settings : Settings) (steps : List Step) (position : Nat)
    (titleClean : clean target.title = target.title) :
    (∃ instruction ∈ block settings steps position kind, instruction.Makes target) ↔
      kind.created? = some target := by
  constructor
  · rintro ⟨instruction, member, makes⟩
    exact created?_of_makes titleClean member makes
  · intro creates
    obtain ⟨first, rest, equal, -, makes, -⟩ := makesFirst_block settings steps position creates
    exact ⟨first, by rw [equal]; exact List.mem_cons_self, makes⟩

/-- There are no commands in a preamble. -/
theorem ne_command_of_mem_preamble {title : String}
    (member : instruction ∈ preamble settings title) (line : String) :
    instruction ≠ .command line := by
  rw [preamble, titleOption, List.mem_append, List.mem_singleton] at member
  rcases member with isTitle | rfl
  · rw [List.mem_singleton.mp (List.mem_ite_nil_left.mp isTitle).2]
    exact Instruction.noConfusion
  · exact Instruction.noConfusion

/-- Up to the block of a step, a page or post is made exactly if an earlier step makes it. -/
theorem exists_makes_before_iff (settings : Settings) (plan : Plan) (position : Nat)
    (titleClean : clean target.title = target.title) :
    (∃ instruction ∈ before settings plan position, instruction.Makes target) ↔
      ∃ maker ∈ plan.steps.take position, maker.kind.created? = some target := by
  simp only [before, List.mem_append, blocksFrom, List.mem_flatMap]
  constructor
  · rintro ⟨instruction, inPreamble | ⟨⟨maker, place⟩, isMaker, inBlock⟩, makes⟩
    · cases makes <;> exact absurd rfl (ne_command_of_mem_preamble inPreamble _)
    · exact ⟨maker, List.fst_mem_of_mem_zipIdx isMaker,
        created?_of_makes titleClean inBlock makes⟩
  · rintro ⟨maker, isMaker, creates⟩
    obtain ⟨place, isPlace⟩ := List.mem_iff_getElem?.mp isMaker
    obtain ⟨instruction, inBlock, makes⟩ :=
      (exists_makes_iff settings plan.steps place titleClean).mpr creates
    exact ⟨instruction,
      Or.inr ⟨(maker, place), List.mem_zipIdx_iff_getElem?.mpr isPlace, inBlock⟩, makes⟩

/-! ## What steps look up -/

/-- A page or post to which a step refers: the content of the first step with one of the
identifiers that the step names. -/
def RefersTo (steps : List Step) (kind : StepKind) (target : CreatedContent) : Prop :=
  ∃ id ∈ kind.references, target? steps (some id) = some target

theorem exists_id_of_target? {pageId : Option String}
    (isTarget : target? steps pageId = some target) :
    ∃ id ∈ pageId, target? steps (some id) = some target := by
  cases pageId with
  | none => cases isTarget
  | some id => exact ⟨id, rfl, isTarget⟩

/-- The block of a page or post looks up only what it makes. -/
theorem created?_of_looksUp_content {details : Content}
    (member : instruction ∈ content kind.created? details)
    (looksUp : instruction.LooksUp target) : kind.created? = some target := by
  unfold content at member
  split at member
  · cases member
  · rename_i created creates
    obtain ⟨command, isCommand, rfl⟩ := List.mem_map.mp member
    have isLookup := Command.lookedUp?_of_looksUp looksUp
    rcases List.mem_cons.mp isCommand with isCreation | inImage
    · rw [isCreation, lookedUp?_createContent] at isLookup
      cases isLookup
    · rw [featuredImage] at inImage
      have isImage := (List.mem_ite_nil_left.mp inImage).2
      rcases List.mem_cons.mp isImage with rfl | isAttach
      · cases isLookup
      · rw [List.mem_singleton.mp isAttach, Command.lookedUp?, Php.Program.lookedUp?,
          Link.packable_of_clean (clean_title_of_created? creates)] at isLookup
        rw [creates, isLookup]

/-- The block of a page selection looks up only the page that is named. -/
theorem target?_of_looksUp_pageSelection {role : PageRole} {selection : PageSelection}
    {created? : Option CreatedContent}
    (member : instruction ∈ pageSelection steps position role created? selection)
    (looksUp : instruction.LooksUp target) : target? steps selection.pageId = some target := by
  unfold pageSelection at member
  split at member
  · split at member
    · cases member
    · rcases List.mem_cons.mp member with rfl | isPin
      · have isLookup := Command.lookedUp?_of_looksUp looksUp
        rw [lookedUp?_createContent] at isLookup
        cases isLookup
      · rw [List.mem_singleton.mp isPin, pin_eq] at looksUp
        cases looksUp
  · split at member
    · cases member
    · rename_i found isTarget
      rw [List.mem_singleton.mp member] at looksUp
      have isLookup := Command.lookedUp?_of_looksUp looksUp
      have isFound : (Command.run (role.select found)).lookedUp? = some found := by
        cases role <;>
          rw [PageRole.select, Command.lookedUp?, Php.Program.lookedUp?,
            Link.packable_of_clean (clean_title_of_target? isTarget)]
      rw [isTarget, ← isFound, isLookup]

/-- The commands of a menu look up only the pages of its items. -/
theorem exists_target?_of_looksUp_menuCommands {menu : Menu} {command : Command}
    (member : command ∈ menuCommands steps menu)
    (looksUp : command.instruction.LooksUp target) :
    ∃ item ∈ menu.items, target? steps item.pageId = some target := by
  have isLookup := Command.lookedUp?_of_looksUp looksUp
  rw [menuCommands] at member
  split at member
  · cases member
  rw [List.cons_append, List.mem_cons, List.mem_append, List.mem_flatMap] at member
  rcases member with rfl | ⟨item, inMenu, isItem⟩ | isLocation
  · cases isLookup
  · rw [menuItem] at isItem
    split at isItem
    · split at isItem
      · cases isItem
      · rename_i found isTarget
        rw [List.mem_singleton.mp isItem, Command.lookedUp?, Php.Program.lookedUp?,
          Link.packable_of_clean (clean_title_of_target? isTarget)] at isLookup
        exact ⟨item, inMenu, by rw [isTarget, isLookup]⟩
    · rw [List.mem_singleton.mp (List.mem_ite_nil_left.mp isItem).2] at isLookup
      cases isLookup
  · rw [List.mem_singleton.mp (List.mem_ite_nil_left.mp isLocation).2] at isLookup
    cases isLookup

/-- A step looks up only what it makes itself, or what it refers to. -/
theorem creates_or_refersTo (member : instruction ∈ block settings steps position kind)
    (looksUp : instruction.LooksUp target) :
    kind.created? = some target ∨ RefersTo steps kind target := by
  cases kind with
  | addPage details | addPost details =>
      rw [block] at member
      exact Or.inl (created?_of_looksUp_content member looksUp)
  | setHomepage selection | setPostsPage selection =>
      obtain ⟨id, named, isTarget⟩ :=
        exists_id_of_target? (target?_of_looksUp_pageSelection member looksUp)
      exact Or.inr ⟨id, Option.mem_toList.mpr named, isTarget⟩
  | createMenu menu =>
      obtain ⟨command, isCommand, rfl⟩ := List.mem_map.mp member
      obtain ⟨item, inMenu, isItemTarget⟩ :=
        exists_target?_of_looksUp_menuCommands isCommand looksUp
      obtain ⟨id, named, isTarget⟩ := exists_id_of_target? isItemTarget
      exact Or.inr ⟨id, List.mem_filterMap.mpr ⟨item, inMenu, named⟩, isTarget⟩
  | addRole role =>
      rw [block, addRole] at member
      rw [List.mem_singleton.mp (List.mem_ite_nil_left.mp member).2] at looksUp
      cases Command.lookedUp?_of_looksUp looksUp
  | installPlugin details | installTheme details =>
      rw [block] at member
      obtain ⟨source, activate, rfl⟩ := exists_of_mem_installation member
      cases looksUp
  | setSiteOption | defineConstants | importContent =>
      rw [List.mem_singleton.mp (List.mem_ite_nil_left.mp member).2] at looksUp
      cases looksUp
  | login credentials =>
      rw [List.mem_singleton.mp member] at looksUp
      cases looksUp
  | setLanding | unknown => cases member

/-! ## The order of lookups -/

/-- Whether a page or post has been made in front of a place of a script. -/
def IsMadeBefore (instructions : List Instruction) (index : Nat) (target : CreatedContent) : Prop :=
  ∃ earlier ∈ instructions.take index, earlier.Makes target

/-- Everything that the script of a plan looks up has been made before. -/
def LooksUpInOrder (settings : Settings) (plan : Plan) : Prop :=
  ∀ (index : Nat) (instruction : Instruction) (target : CreatedContent),
    (plan.compile settings).instructions[index]? = some instruction →
    instruction.LooksUp target →
    IsMadeBefore (plan.compile settings).instructions index target

/-- A plan that selects a page as the home page in front of the step that adds the page. -/
def advancePlan : Plan :=
  { title := ""
    landing := .frontPage
    landingUrl := none
    steps := [
      { id := "home", kind := .setHomepage {
        mode := .existing, title := "", body := "", pageId := some "about" } },
      { id := "about", kind := .addPage { Content.empty with title := "About us" } }] }

/-- A page that is selected in front of its step is looked up before it is made. -/
theorem not_looksUpInOrder_advancePlan : ¬ LooksUpInOrder .default advancePlan := by
  have titleClean : clean "About us" = "About us" := by
    decide +kernel
  have titled : CreatedContent.titled? .page "About us" =
      some { type := .page, title := "About us" } := by
    rw [CreatedContent.titled?, titleClean]
    rfl
  have preamble_eq : preamble .default "" = [.login "admin" "password"] := by
    decide
  have instructions_eq : (advancePlan.compile .default).instructions =
      [.login "admin" "password",
        (Command.run (.setHomepage { type := .page, title := "About us" })).instruction,
        (createContent { type := .page, title := "About us" } "" "").instruction] := by
    simp [instructions_compile, advancePlan, Content.empty, preamble_eq, block, pageSelection,
      target?, StepKind.created?, titled, PageRole.select, content, featuredImage,
      Text.cleanOrEmpty]
  have looksUp : (Command.run (.setHomepage
      { type := .page, title := "About us" })).instruction.LooksUp
        { type := .page, title := "About us" } := by
    apply Command.looksUp_run
    rw [Php.Program.lookedUp?, Link.packable_of_clean titleClean]
  intro inOrder
  obtain ⟨earlier, isEarlier, makes⟩ :=
    inOrder 1 _ _ (by rw [instructions_eq]; rfl) looksUp
  rw [instructions_eq, List.take_succ_cons, List.take_zero, List.mem_singleton] at isEarlier
  rw [isEarlier] at makes
  cases makes

/-- No step refers to itself or to a step behind it. -/
def RefersBack (steps : List Step) : Prop :=
  ∀ position step, steps[position]? = some step → ∀ id ∈ step.kind.references,
    ∀ found, steps.findIdx? (fun other => other.id == id) = some found → found < position

/-- The script of a plan looks up what its steps refer to, and it is made by the script. -/
structure ResolvesLookups (settings : Settings) (plan : Plan) : Prop where
  /-- A lookup stands in the block of a step, which makes what is looked up or refers to it. -/
  isAskedFor : ∀ (index : Nat) (instruction : Instruction) (target : CreatedContent),
    (plan.compile settings).instructions[index]? = some instruction →
    instruction.LooksUp target →
    ∃ position step offset, plan.steps[position]? = some step ∧
      (block settings plan.steps position step.kind)[offset]? = some instruction ∧
      index = place settings plan position + offset ∧
      (step.kind.created? = some target ∨ RefersTo plan.steps step.kind target)
  /-- What is looked up is made by an instruction of the script. -/
  isMade : ∀ (index : Nat) (instruction : Instruction) (target : CreatedContent),
    (plan.compile settings).instructions[index]? = some instruction →
    instruction.LooksUp target →
    ∃ maker ∈ (plan.compile settings).instructions, maker.Makes target
  /-- What a step looks up has been made before exactly if a step up to that one makes it. -/
  isMadeBefore_iff : ∀ (position : Nat) (step : Step) (offset : Nat) (instruction : Instruction)
    (target : CreatedContent),
    plan.steps[position]? = some step →
    (block settings plan.steps position step.kind)[offset]? = some instruction →
    instruction.LooksUp target →
    (IsMadeBefore (plan.compile settings).instructions (place settings plan position + offset)
        target ↔
      ∃ maker ∈ plan.steps.take (position + 1), maker.kind.created? = some target)
  /-- If steps refer only to steps in front of them, everything has been made before. -/
  inOrder : RefersBack plan.steps → LooksUpInOrder settings plan

theorem exists_step_of_refersTo (refers : RefersTo steps kind target) :
    ∃ id ∈ kind.references, ∃ found maker,
      steps.findIdx? (fun other => other.id == id) = some found ∧ steps[found]? = some maker ∧
        maker.kind.created? = some target := by
  obtain ⟨id, isReference, isTarget⟩ := refers
  rw [target?, Option.bind_some] at isTarget
  obtain ⟨maker, isFirst, creates⟩ := Option.bind_eq_some_iff.mp isTarget
  obtain ⟨named, found, inBounds, equal, noneBefore⟩ :=
    List.find?_eq_some_iff_getElem.mp isFirst
  refine ⟨id, isReference, found, maker, ?_, List.getElem?_eq_some_iff.mpr ⟨inBounds, equal⟩,
    creates⟩
  rw [List.findIdx?_eq_some_iff_getElem]
  exact ⟨inBounds, by rw [equal]; exact named, fun earlier isEarlier => by
    simpa using noneBefore earlier isEarlier⟩

theorem clean_title_of_askedFor
    (asks : kind.created? = some target ∨ RefersTo steps kind target) :
    clean target.title = target.title := by
  rcases asks with creates | ⟨id, -, isTarget⟩
  · exact clean_title_of_created? creates
  · exact clean_title_of_target? isTarget

/-- What a script makes up to a lookup is what the steps up to that one make. -/
theorem isMadeBefore_place_iff {step : Step} (isStep : plan.steps[position]? = some step)
    {offset : Nat}
    (isEmitted : (block settings plan.steps position step.kind)[offset]? = some instruction)
    (looksUp : instruction.LooksUp target) :
    IsMadeBefore (plan.compile settings).instructions (place settings plan position + offset)
        target ↔
      ∃ maker ∈ plan.steps.take (position + 1), maker.kind.created? = some target := by
  have titleClean : clean target.title = target.title :=
    clean_title_of_askedFor (creates_or_refersTo (List.mem_of_getElem? isEmitted) looksUp)
  obtain ⟨inBounds, -⟩ := List.getElem?_eq_some_iff.mp isEmitted
  obtain ⟨after, instructions_eq⟩ := exists_instructions_eq settings isStep
  have taken : (plan.compile settings).instructions.take (place settings plan position + offset) =
      before settings plan position ++
        (block settings plan.steps position step.kind).take offset := by
    rw [instructions_eq, place, List.take_length_add_append,
      List.take_append_of_le_length (Nat.le_of_lt inBounds)]
  have ofBlock : (∃ earlier ∈ (block settings plan.steps position step.kind).take offset,
      earlier.Makes target) ↔ step.kind.created? = some target := by
    constructor
    · rintro ⟨earlier, isEarlier, makes⟩
      exact created?_of_makes titleClean (List.mem_of_mem_take isEarlier) makes
    · intro creates
      obtain ⟨first, rest, equal, -, makes, -⟩ :=
        makesFirst_block settings plan.steps position creates
      rw [equal] at isEmitted ⊢
      cases offset with
      | zero =>
          obtain rfl := Option.some.inj isEmitted
          exact absurd looksUp makes.not_looksUp
      | succ offset => exact ⟨first, List.mem_cons_self, makes⟩
  simp only [IsMadeBefore, taken, List.mem_append, or_and_right, exists_or, ofBlock,
    exists_makes_before_iff settings plan position titleClean, List.take_add_one, isStep,
    Option.toList_some, List.mem_singleton, exists_eq_left]

theorem exists_askedFor {index : Nat}
    (isEmitted : (plan.compile settings).instructions[index]? = some instruction)
    (looksUp : instruction.LooksUp target) :
    ∃ position step offset, plan.steps[position]? = some step ∧
      (block settings plan.steps position step.kind)[offset]? = some instruction ∧
      index = place settings plan position + offset ∧
      (step.kind.created? = some target ∨ RefersTo plan.steps step.kind target) := by
  rcases exists_place_eq isEmitted with
    inPreamble | ⟨position, step, offset, isStep, inBlock, isPlace⟩
  · cases looksUp
    exact absurd rfl (ne_command_of_mem_preamble inPreamble _)
  · exact ⟨position, step, offset, isStep, inBlock, isPlace,
      creates_or_refersTo (List.mem_of_getElem? inBlock) looksUp⟩

/-- Every script resolves its lookups. -/
theorem resolvesLookups (settings : Settings) (plan : Plan) : ResolvesLookups settings plan where
  isAskedFor := fun index instruction target isEmitted looksUp => exists_askedFor isEmitted looksUp
  isMade := by
    intro index instruction target isEmitted looksUp
    obtain ⟨position, step, offset, isStep, -, -, asks⟩ := exists_askedFor isEmitted looksUp
    have isCreated : ∃ maker ∈ plan.steps.take plan.steps.length,
        maker.kind.created? = some target := by
      rw [List.take_length]
      rcases asks with creates | refers
      · exact ⟨step, List.mem_of_getElem? isStep, creates⟩
      · obtain ⟨_, -, _, maker, -, isMaker, creates⟩ := exists_step_of_refersTo refers
        exact ⟨maker, List.mem_of_getElem? isMaker, creates⟩
    rw [← exists_makes_before_iff settings plan _ (clean_title_of_askedFor asks),
      before_length] at isCreated
    exact isCreated
  isMadeBefore_iff := fun position step offset instruction target isStep isEmitted looksUp =>
    isMadeBefore_place_iff isStep isEmitted looksUp
  inOrder := by
    intro refersBack index instruction target isEmitted looksUp
    obtain ⟨position, step, offset, isStep, inBlock, rfl, asks⟩ :=
      exists_askedFor isEmitted looksUp
    rw [isMadeBefore_place_iff isStep inBlock looksUp]
    rcases asks with creates | refers
    · exact ⟨step, by rw [List.take_add_one, isStep]; simp, creates⟩
    · obtain ⟨id, isReference, found, maker, isFirst, isMaker, creates⟩ :=
        exists_step_of_refersTo refers
      have isBefore := refersBack position step isStep id isReference found isFirst
      have isTaken : (plan.steps.take (position + 1))[found]? = some maker := by
        rw [List.getElem?_take_of_lt (Nat.lt_succ_of_lt isBefore), isMaker]
      exact ⟨maker, List.mem_of_getElem? isTaken, creates⟩

end Compile

end SiteScript

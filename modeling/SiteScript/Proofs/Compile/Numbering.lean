import Mathlib.Data.List.Forall2
import SiteScript.Proofs.Compile.Emission
import SiteScript.Proofs.Shell.Commands

/-!
# Predicted numbers

The numbers of pages and posts are predicted by counting steps, while the runtime counts
the instructions that make content.  Both counts agree, since a step that makes content
begins its block with one such instruction and no other instruction looks like one.
-/

namespace SiteScript

open Text (clean)

/-! ## Instructions that make content -/

/-- How the commands begin that make a page or post. -/
def creationStarts : List String :=
  ["wp post create ", "wp eval 'wp_insert_post("]

namespace Instruction

/-- Whether an instruction makes a page or post. -/
def makesContent : Instruction → Bool
  | .command line => creationStarts.any fun start => start.toList.isPrefixOf line.toList
  | _ => false

/-- An instruction that makes the given page or post: by its arguments, or by a program. -/
inductive Makes (created : CreatedContent) : Instruction → Prop
  | arguments {line : String} (status body : String)
      (split : Shell.split line =
        Command.creationArguments created.type status created.title body) :
    Makes created (.command line)
  | program {line : String} (status body : String)
      (split : Shell.split line =
        ["wp", "eval", (Php.Program.insertPost created.type status created.title body).source]) :
    Makes created (.command line)

end Instruction

namespace Command

/-- Whether a command makes a page or post. -/
def makesContent : Command → Bool
  | .createPost .. => true
  | .run (.insertPost ..) => true
  | _ => false

theorem makesContent_run (program : Php.Program) :
    (run program).instruction.makesContent = (run program).makesContent := by
  have begins : (run program).instruction.makesContent =
      "wp_insert_post(".toList.isPrefixOf program.source.toList := by
    have noQuote : '\'' ∉ "wp_insert_post(".toList := by decide
    rw [← Text.isPrefixOf_append_cons noQuote _ []]
    simp only [instruction, line, Instruction.makesContent, creationStarts, Shell.line,
      String.toList_ofList, words, plain, quoted, Shell.Segment.chars, List.map_cons,
      List.map_nil, List.flatMap_cons, List.flatMap_nil, List.append_nil,
      List.intercalate_cons_cons, List.intercalate_singleton, quoteChars_source, List.any_cons,
      List.any_nil]
    simp [List.isPrefixOf]
  rw [begins, Php.Program.source, String.toList_ofList]
  cases program <;>
    simp only [Php.Program.parts, Php.Part.source, List.cons_append, List.flatMap_cons,
      String.toList_append, List.append_assoc, makesContent] <;>
    -- The first literals tell; turned into lists, they are compared character by character.
    rw [String.toList_ofList, String.toList_ofList] <;>
    rfl

/-- The line of a command tells whether the command makes content. -/
theorem makesContent_instruction (command : Command) :
    command.instruction.makesContent = command.makesContent := by
  cases command with
  | run program => exact makesContent_run program
  | _ =>
      simp [instruction, line, Instruction.makesContent, creationStarts, Shell.line, words, plain,
        quoted, flag, Shell.Segment.chars, List.intercalate_cons_cons, makesContent,
        List.isPrefixOf]

end Command

namespace Compile

/-! ## Blocks -/

theorem makesContent_createContent (created : CreatedContent) (body status : String) :
    (createContent created body status).instruction.makesContent := by
  rw [Command.makesContent_instruction, createContent_eq]
  split
  · rfl
  · rfl

theorem makes_createContent (created : CreatedContent) (body status : String) :
    (createContent created body status).instruction.Makes created := by
  rw [createContent_eq]
  split
  · refine .program (orElse (clean status) "publish") (clean body) ?_
    rw [Command.split_line, Command.arguments_eq]
  · refine .arguments (orElse (clean status) "publish") (clean body) ?_
    rw [Command.split_line, Command.arguments_eq]

theorem not_makesContent_pin (role : PageRole) (number : Nat) :
    (role.pin number).makesContent = false := by
  cases role <;> rfl

/-- A block whose first instruction, and no other one, makes the given page or post. -/
def MakesFirst (created : CreatedContent) (block : List Instruction) : Prop :=
  ∃ first rest, block = first :: rest ∧ first.makesContent ∧ first.Makes created ∧
    ∀ instruction ∈ rest, instruction.makesContent = false

theorem makesFirst_content (created : CreatedContent) (details : Content) :
    MakesFirst created (content (some created) details) := by
  refine ⟨_, _, rfl, makesContent_createContent created details.body details.status,
    makes_createContent created details.body details.status, ?_⟩
  intro instruction member
  obtain ⟨command, inImage, rfl⟩ := List.mem_map.mp member
  rw [Command.makesContent_instruction]
  rw [featuredImage] at inImage
  split at inImage
  · cases inImage
  · simp only [List.mem_cons, List.not_mem_nil, or_false] at inImage
    rcases inImage with rfl | rfl <;> rfl

/-- The block of a selection that makes a page pins it behind making it. -/
theorem pageSelection_create (steps : List Step) (position : Nat) (role : PageRole)
    (created : CreatedContent) {selection : PageSelection} (creates : selection.mode = .create) :
    pageSelection steps position role (some created) selection =
      [(createContent created selection.body "publish").instruction,
        role.pin (Numbering.createdAt position steps)] := by
  simp only [pageSelection, creates]

theorem makesFirst_pageSelection (steps : List Step) (position : Nat) (role : PageRole)
    (created : CreatedContent) {selection : PageSelection} (creates : selection.mode = .create) :
    MakesFirst created (pageSelection steps position role (some created) selection) := by
  refine ⟨_, _, pageSelection_create steps position role created creates,
    makesContent_createContent created selection.body "publish",
    makes_createContent created selection.body "publish", ?_⟩
  intro instruction member
  rw [List.mem_singleton.mp member]
  exact not_makesContent_pin role _

/-- A selection makes content only in the mode that says so. -/
theorem mode_of_created? {selection : PageSelection} {created : CreatedContent}
    (creates : (StepKind.setHomepage selection).created? = some created) :
    selection.mode = .create := by
  cases mode : selection.mode with
  | create => rfl
  | existing => simp [StepKind.created?, mode] at creates

/-- A step that makes content does so with the first instruction of its block. -/
theorem makesFirst_block (settings : Settings) (steps : List Step) (position : Nat)
    {kind : StepKind} {created : CreatedContent} (creates : kind.created? = some created) :
    MakesFirst created (block settings steps position kind) := by
  cases kind with
  | addPage details =>
      rw [block, creates]
      exact makesFirst_content created details
  | addPost details =>
      rw [block, creates]
      exact makesFirst_content created details
  | setHomepage selection =>
      rw [block, creates]
      exact makesFirst_pageSelection steps position .homepage created (mode_of_created? creates)
  | setPostsPage selection =>
      rw [block, creates]
      exact makesFirst_pageSelection steps position .postsPage created (mode_of_created? creates)
  | _ => cases creates

/-- A step that makes no content emits no instruction that does. -/
theorem not_makesContent_of_emits {settings : Settings} {steps : List Step} {position : Nat}
    {kind : StepKind} (createsNone : kind.created? = none) {instruction : Instruction}
    (emits : Emits settings steps position kind instruction) :
    instruction.makesContent = false := by
  cases emits with
  | createContent isContent titled =>
      rw [created?_of_contentOf? isContent, titled] at createsNone
      cases createsNone
  | createPage isSelection creates titled =>
      rw [created?_of_selectionOf? isSelection creates, titled] at createsNone
      cases createsNone
  | pin isSelection => exact not_makesContent_pin _ _
  | @select kind role selection target isSelection isTarget =>
      rw [Command.makesContent_instruction]
      cases role <;> rfl
  | installPlugin | installTheme | setSiteOption | defineConstants | login | importContent => rfl
  | _ =>
      rw [Command.makesContent_instruction]
      rfl

/-! ## Counting -/

theorem MakesFirst.filter_eq {created : CreatedContent} {block : List Instruction}
    (makesFirst : MakesFirst created block) :
    ∃ first, block.filter Instruction.makesContent = [first] ∧ first.Makes created := by
  obtain ⟨first, rest, rfl, making, makes, restMakesNone⟩ := makesFirst
  have noneLeft : rest.filter Instruction.makesContent = [] := by
    rw [List.filter_eq_nil_iff]
    intro instruction member
    rw [restMakesNone instruction member]
    exact Bool.false_ne_true
  exact ⟨first, by rw [List.filter_cons_of_pos making, noneLeft], makes⟩

theorem filter_block_of_createsNone {settings : Settings} {steps : List Step} {position : Nat}
    {kind : StepKind} (createsNone : kind.created? = none) :
    (block settings steps position kind).filter Instruction.makesContent = [] := by
  rw [List.filter_eq_nil_iff]
  intro instruction member
  rw [not_makesContent_of_emits createsNone (emits_of_mem_block member)]
  exact Bool.false_ne_true

/-- The blocks of some steps make what the steps make, in order. -/
theorem forall₂_makes_blocksFrom (settings : Settings) (steps : List Step) (position : Nat)
    (part : List Step) :
    List.Forall₂ Instruction.Makes (part.filterMap fun step => step.kind.created?)
      ((blocksFrom settings steps position part).filter Instruction.makesContent) := by
  induction part generalizing position with
  | nil => exact .nil
  | cons step rest inductionHypothesis =>
      rw [blocksFrom_cons, List.filter_append]
      cases creates : step.kind.created? with
      | none =>
          rw [filter_block_of_createsNone creates, List.nil_append]
          simp only [List.filterMap_cons, creates]
          exact inductionHypothesis (position + 1)
      | some created =>
          obtain ⟨first, filtered, makes⟩ :=
            (makesFirst_block settings steps position creates).filter_eq
          rw [filtered, List.singleton_append]
          simp only [List.filterMap_cons, creates]
          exact .cons makes (inductionHypothesis (position + 1))

/-- The blocks of some steps make as many pages and posts as are counted. -/
theorem countP_blocksFrom (settings : Settings) (steps : List Step) (position : Nat)
    (part : List Step) :
    (blocksFrom settings steps position part).countP Instruction.makesContent =
      Numbering.createdCount part := by
  have sameLength := (forall₂_makes_blocksFrom settings steps position part).length_eq
  rw [List.countP_eq_length_filter, ← sameLength, Numbering.createdCount,
    List.length_filterMap_eq_countP]
  rfl

theorem filter_preamble (settings : Settings) (title : String) :
    (preamble settings title).filter Instruction.makesContent = [] := by
  rw [preamble, titleOption]
  split
  · rfl
  · rfl

/-! ## Places -/

/-- What comes before the block of the step at a position. -/
def before (settings : Settings) (plan : Plan) (position : Nat) : List Instruction :=
  preamble settings plan.title ++
    blocksFrom settings plan.steps 0 (plan.steps.take position)

/-- The place at which the block of the step at a position begins. -/
def place (settings : Settings) (plan : Plan) (position : Nat) : Nat :=
  (before settings plan position).length

/-- A script around the block of a step. -/
theorem exists_instructions_eq (settings : Settings) {plan : Plan} {position : Nat} {step : Step}
    (isStep : plan.steps[position]? = some step) :
    ∃ after, (plan.compile settings).instructions =
      before settings plan position ++
        (block settings plan.steps position step.kind ++ after) := by
  obtain ⟨inBounds, equal⟩ := List.getElem?_eq_some_iff.mp isStep
  have around : plan.steps =
      plan.steps.take position ++ step :: plan.steps.drop (position + 1) := by
    rw [← equal, List.getElem_cons_drop, List.take_append_drop]
  have lengthBefore : (plan.steps.take position).length = position := by
    rw [List.length_take]
    omega
  refine ⟨blocksFrom settings plan.steps (position + 1) (plan.steps.drop (position + 1)), ?_⟩
  have split : blocksFrom settings plan.steps 0 plan.steps =
      blocksFrom settings plan.steps 0
        (plan.steps.take position ++ step :: plan.steps.drop (position + 1)) :=
    congrArg _ around
  rw [instructions_compile, before, split, blocksFrom_append, blocksFrom_cons, lengthBefore,
    Nat.zero_add, List.append_assoc]

/-- The instructions of a block stand in the script from the place of the block on. -/
theorem getElem?_place {settings : Settings} {plan : Plan} {position : Nat} {step : Step}
    (isStep : plan.steps[position]? = some step) {index : Nat} {instruction : Instruction}
    (isEmitted : (block settings plan.steps position step.kind)[index]? = some instruction) :
    (plan.compile settings).entries[place settings plan position + index]? =
      some (.known instruction) := by
  obtain ⟨after, instructions_eq⟩ := exists_instructions_eq settings isStep
  obtain ⟨inBounds, -⟩ := List.getElem?_eq_some_iff.mp isEmitted
  rw [entries_eq_map_instructions, List.getElem?_map, instructions_eq, place,
    List.getElem?_append_right (Nat.le_add_right _ _), Nat.add_sub_cancel_left,
    List.getElem?_append_left inBounds, isEmitted]
  rfl

/-- Behind the block of a step comes that of the next one. -/
theorem before_succ (settings : Settings) {plan : Plan} {position : Nat} {step : Step}
    (isStep : plan.steps[position]? = some step) :
    before settings plan (position + 1) =
      before settings plan position ++ block settings plan.steps position step.kind := by
  obtain ⟨inBounds, -⟩ := List.getElem?_eq_some_iff.mp isStep
  have lengthBefore : (plan.steps.take position).length = position :=
    List.length_take_of_le (Nat.le_of_lt inBounds)
  rw [before, before, List.take_add_one, isStep, Option.toList_some, blocksFrom_append,
    lengthBefore, Nat.zero_add, blocksFrom_cons, blocksFrom_nil, List.append_nil,
    List.append_assoc]

/-- Behind the last step nothing comes. -/
theorem before_succ_of_none (settings : Settings) {plan : Plan} {position : Nat}
    (isBehind : plan.steps[position]? = none) :
    before settings plan (position + 1) = before settings plan position := by
  rw [before, before, List.take_add_one, isBehind, Option.toList_none, List.append_nil]

theorem before_length (settings : Settings) (plan : Plan) :
    before settings plan plan.steps.length = (plan.compile settings).instructions := by
  rw [before, List.take_length, instructions_compile]

/-- An instruction of a script is in its preamble, or at a place of the block of a step. -/
theorem exists_place_eq {settings : Settings} {plan : Plan} {index : Nat}
    {instruction : Instruction}
    (isEmitted : (plan.compile settings).instructions[index]? = some instruction) :
    instruction ∈ preamble settings plan.title ∨
      ∃ position step offset, plan.steps[position]? = some step ∧
        (block settings plan.steps position step.kind)[offset]? = some instruction ∧
        index = place settings plan position + offset := by
  have upTo : ∀ count, (before settings plan count)[index]? = some instruction →
      instruction ∈ preamble settings plan.title ∨
        ∃ position step offset, plan.steps[position]? = some step ∧
          (block settings plan.steps position step.kind)[offset]? = some instruction ∧
          index = place settings plan position + offset := by
    intro count isBefore
    induction count with
    | zero =>
        rw [before, List.take_zero, blocksFrom_nil, List.append_nil] at isBefore
        exact Or.inl (List.mem_of_getElem? isBefore)
    | succ count inductionHypothesis =>
        cases isStep : plan.steps[count]? with
        | none =>
            rw [before_succ_of_none settings isStep] at isBefore
            exact inductionHypothesis isBefore
        | some step =>
            rw [before_succ settings isStep, List.getElem?_append] at isBefore
            split at isBefore
            · exact inductionHypothesis isBefore
            · rename_i isBehind
              refine Or.inr ⟨count, step, _, isStep, isBefore, ?_⟩
              rw [place]
              omega
  rw [← before_length] at isEmitted
  exact upTo plan.steps.length isEmitted

/-- The number of the page or post that is made at a place of a script, if the runtime counts
what has been made before. -/
def numberAt (instructions : List Instruction) (place : Nat) : Nat :=
  Numbering.firstCreated + (instructions.take place).countP Instruction.makesContent

/-- The number that is predicted for a step is that of the instruction at its place. -/
theorem numberAt_place (settings : Settings) {plan : Plan} {position : Nat} {step : Step}
    (isStep : plan.steps[position]? = some step) :
    numberAt (plan.compile settings).instructions (place settings plan position) =
      Numbering.createdAt position plan.steps := by
  obtain ⟨after, equal⟩ := exists_instructions_eq settings isStep
  have noneInPreamble : (preamble settings plan.title).countP Instruction.makesContent = 0 := by
    rw [List.countP_eq_length_filter, filter_preamble]
    rfl
  rw [numberAt, equal, place, List.take_left, before, List.countP_append, noneInPreamble,
    countP_blocksFrom, Nat.zero_add, Numbering.createdAt]

/-- The numbers that are predicted for the steps of a plan are those that the runtime gives to
what the script of the plan makes. -/
structure PredictsNumbers (settings : Settings) (plan : Plan) : Prop where
  /-- A script has nothing but instructions. -/
  entries_eq : (plan.compile settings).entries =
    (plan.compile settings).instructions.map .known
  /-- The instructions that make content make what the steps ask for, in the same order. -/
  inOrder : List.Forall₂ Instruction.Makes (plan.steps.filterMap fun step => step.kind.created?)
    ((plan.compile settings).instructions.filter Instruction.makesContent)
  /-- The instruction that makes the content of a step gets the number predicted for the
  position of the step. -/
  atPlace : ∀ position step created, plan.steps[position]? = some step →
    step.kind.created? = some created →
    ∃ instruction, (plan.compile settings).instructions[place settings plan position]? =
        some instruction ∧
      instruction.makesContent ∧ instruction.Makes created ∧
      numberAt (plan.compile settings).instructions (place settings plan position) =
        Numbering.createdAt position plan.steps
  /-- Behind making a home page, exactly its number is pinned as that of the page on the front. -/
  homepagePinned : ∀ position step selection, plan.steps[position]? = some step →
    step.kind = .setHomepage selection → selection.mode = .create →
    block settings plan.steps position step.kind ≠ [] →
    (plan.compile settings).instructions[place settings plan position + 1]? =
      some (.setSiteOptions [("show_on_front", .str "page"), ("page_on_front",
        .nat (numberAt (plan.compile settings).instructions (place settings plan position)))])
  /-- Behind making a posts page, exactly its number is pinned as that of the page for posts. -/
  postsPagePinned : ∀ position step selection, plan.steps[position]? = some step →
    step.kind = .setPostsPage selection → selection.mode = .create →
    block settings plan.steps position step.kind ≠ [] →
    (plan.compile settings).instructions[place settings plan position + 1]? =
      some (.setSiteOptions [("page_for_posts",
        .nat (numberAt (plan.compile settings).instructions (place settings plan position)))])
  /-- If identifiers do not repeat, they tell the same numbers. -/
  byId : (plan.steps.map Step.id).Nodup → ∀ position step, plan.steps[position]? = some step →
    step.kind.creates →
    Numbering.createdBy? step.id plan.steps =
      some (numberAt (plan.compile settings).instructions (place settings plan position))

/-- The first step with the identifier of a step is that step, if identifiers do not repeat. -/
theorem findIdx?_id_eq {steps : List Step} (nodup : (steps.map Step.id).Nodup) {position : Nat}
    {step : Step} (isStep : steps[position]? = some step) :
    steps.findIdx? (fun other => other.id == step.id) = some position := by
  obtain ⟨inBounds, equal⟩ := List.getElem?_eq_some_iff.mp isStep
  rw [List.findIdx?_eq_some_iff_getElem]
  refine ⟨inBounds, by simp [equal], ?_⟩
  intro earlier isEarlier sameId
  have inBoundsEarlier : earlier < steps.length := Nat.lt_trans isEarlier inBounds
  have sameEntry : (steps.map Step.id)[earlier]? = (steps.map Step.id)[position]? := by
    simpa [isStep, inBoundsEarlier] using sameId
  have samePlace : earlier = position :=
    (List.getElem?_inj (by simpa using inBoundsEarlier) nodup).mp sameEntry
  exact absurd samePlace (Nat.ne_of_lt isEarlier)

/-- Behind making a page for a role, its number is pinned. -/
theorem getElem?_place_succ {settings : Settings} {plan : Plan} {position : Nat} {step : Step}
    (isStep : plan.steps[position]? = some step) {role : PageRole} {selection : PageSelection}
    (isRole : step.kind = role.kind selection) (creates : selection.mode = .create)
    (notEmpty : block settings plan.steps position step.kind ≠ []) :
    (plan.compile settings).instructions[place settings plan position + 1]? =
      some (.setSiteOptions (pinned role
        (numberAt (plan.compile settings).instructions (place settings plan position)))) := by
  obtain ⟨after, instructions⟩ := exists_instructions_eq settings isStep
  rw [numberAt_place settings isStep, ← pin_eq, instructions, place,
    List.getElem?_append_right (Nat.le_add_right _ 1), Nat.add_sub_cancel_left]
  rw [isRole, block_kind] at notEmpty ⊢
  cases created? : (role.kind selection).created? with
  | none => simp [pageSelection, creates, created?] at notEmpty
  | some created =>
      rw [pageSelection_create plan.steps position role created creates]
      rfl

/-- The prediction of numbers agrees with the script, for every plan. -/
theorem predictsNumbers (settings : Settings) (plan : Plan) : PredictsNumbers settings plan := by
  constructor
  · exact entries_eq_map_instructions settings plan
  · rw [instructions_compile, List.filter_append, filter_preamble, List.nil_append]
    exact forall₂_makes_blocksFrom settings plan.steps 0 plan.steps
  · intro position step created isStep creates
    obtain ⟨first, rest, equal, making, makes, -⟩ :=
      makesFirst_block settings plan.steps position creates
    obtain ⟨after, instructions⟩ := exists_instructions_eq settings isStep
    refine ⟨first, ?_, making, makes, numberAt_place settings isStep⟩
    rw [instructions, equal, place, List.getElem?_append_right (Nat.le_refl _), Nat.sub_self]
    rfl
  · intro position step selection isStep isHomepage creates notEmpty
    exact @getElem?_place_succ _ _ _ _ isStep .homepage selection isHomepage creates notEmpty
  · intro position step selection isStep isPostsPage creates notEmpty
    exact @getElem?_place_succ _ _ _ _ isStep .postsPage selection isPostsPage creates notEmpty
  · intro nodup position step isStep creates
    rw [Numbering.createdBy?, findIdx?_id_eq nodup isStep, numberAt_place settings isStep]
    rfl

end Compile

end SiteScript

import SiteScript.Proofs.Compile.Numbering
import SiteScript.Proofs.Recovery.Accounting
import SiteScript.Proofs.Recovery.Blocks

/-!
# Recovered content

A step that makes content is made by an entry that nothing can drop, and it is changed in nothing
that tells its content.  So the content that the recovered steps make can be read off the entries,
and for the script of a plan it is what the steps of the plan make, whatever is dropped.
-/

namespace SiteScript

open Recovery

/-- The content that is made by the steps that an entry adds. -/
def Entry.creates (entry : Entry) : List CreatedContent :=
  entry.addedKinds.filterMap StepKind.created?

namespace Recovery

open Compile (Emits block blocksFrom)
open Text (clean)

variable {ids : Ids} {steps later : List Step} {entry : Entry}

/-! ## Content of entries -/

/-- An entry that is dropped would not have added any step. -/
theorem addedKinds_of_error {reason : Reason} (fails : readEntry ids steps entry = .error reason) :
    entry.addedKinds = [] := by
  rw [readEntry_eq] at fails
  rw [Entry.addedKinds]
  cases asks : entry.demand with
  | error reason => rfl
  | ok demand =>
      rw [asks] at fails
      cases demand with
      | add kinds => cases fails
      | _ => rfl

/-- Accepted entries add all that there is to add. -/
theorem flatMap_addedKinds_accepted (ids : Ids) (entries : List Entry) :
    (accepted ids entries).flatMap Entry.addedKinds = entries.flatMap Entry.addedKinds := by
  refine run_induction
    (motive := fun entries accepted _ =>
      accepted.flatMap Entry.addedKinds = entries.flatMap Entry.addedKinds) rfl ?_ ?_ entries
  · intro entries entry later sameKinds _
    rw [List.flatMap_append, List.flatMap_append, sameKinds]
  · intro entries entry reason sameKinds fails
    rw [List.flatMap_append, sameKinds, List.flatMap_singleton, addedKinds_of_error fails,
      List.append_nil]

theorem created?_bare (kind : StepKind) : (bare kind).created? = kind.created? := by
  cases kind <;> rfl

theorem made_eq (steps : List Step) :
    made steps = (bareKinds steps).filterMap StepKind.created? := by
  rw [made, bareKinds, List.filterMap_map]
  simp only [Function.comp_def, created?_bare]

/-- The recovered steps make what the entries make. -/
theorem made_ofEntries (ids : Ids) (entries : List Entry) :
    made (ofEntries ids entries).steps = entries.flatMap Entry.creates := by
  rw [made_eq, bareKinds_ofEntries, flatMap_addedKinds_accepted, List.filterMap_flatMap]
  rfl

/-- The steps after an entry that is read make what it makes, too. -/
theorem made_of_readEntry (reads : readEntry ids steps entry = .ok later) :
    made later = made steps ++ entry.creates := by
  obtain ⟨demand, asks, change⟩ := exists_change_of_readEntry reads
  have adds : entry.addedKinds = demand.kinds := by
    rw [Entry.addedKinds, asks]
  rw [made_eq, change.bareKinds_eq (brings_of_demand asks).isFresh, List.filterMap_append,
    ← made_eq, Entry.creates, adds]

/-! ## Content of instructions -/

/-- The content that instructions make. -/
def madeBy (instructions : List Instruction) : List CreatedContent :=
  instructions.flatMap fun instruction => (Entry.known instruction).creates

theorem madeBy_append (first second : List Instruction) :
    madeBy (first ++ second) = madeBy first ++ madeBy second :=
  List.flatMap_append

theorem madeBy_eq (instructions : List Instruction) :
    (instructions.map Entry.known).flatMap Entry.creates = madeBy instructions := by
  rw [List.flatMap_map]
  rfl

theorem made_of_foldlM {instructions : List Instruction}
    (reads : instructions.foldlM (readInstruction ids) steps = .ok later) :
    made later = made steps ++ madeBy instructions := by
  induction instructions generalizing steps with
  | nil =>
      cases reads
      exact (List.append_nil _).symm
  | cons instruction rest inductionHypothesis =>
      rw [List.foldlM_cons] at reads
      cases readsFirst : readInstruction ids steps instruction with
      | error reason =>
          rw [readsFirst] at reads
          cases reads
      | ok between =>
          rw [readsFirst] at reads
          have afterFirst : made between = made steps ++ (Entry.known instruction).creates :=
            made_of_readEntry readsFirst
          rw [inductionHypothesis reads, afterFirst, List.append_assoc, madeBy, madeBy,
            List.flatMap_cons]

/-- Instructions that return make what the steps make that they add. -/
theorem Returns.madeBy_eq {settings : Settings} {instructions : List Instruction}
    {created : List CreatedContent} {added : List Step}
    (returns : Returns settings ids steps instructions created added) :
    madeBy instructions = created := by
  have sameMade := made_of_foldlM returns.reads
  rw [made_append, returns.made_eq] at sameMade
  exact (List.append_cancel_left sameMade).symm

theorem demand_instruction (command : Command) :
    command.instruction.demand = command.request.demand command.line := by
  rw [Command.instruction, Instruction.demand, demandOfCommand, Command.split_line,
    Command.ofWords?_arguments]

theorem yield_instruction (command : Command) :
    command.instruction.yield = command.request.yield := by
  rw [Command.instruction, Instruction.yield, Command.split_line, Command.ofWords?_arguments]

/-- What brings no steps makes nothing. -/
theorem creates_of_stepCount (addsNone : entry.yield.stepCount = 0) : entry.creates = [] := by
  rw [Entry.creates, Entry.addedKinds]
  cases asks : entry.demand with
  | error reason => rfl
  | ok demand =>
      rw [← (brings_of_demand asks).yield_eq] at addsNone
      cases demand with
      | add kinds =>
          rw [List.length_eq_zero_iff.mp addsNone]
          rfl
      | _ => rfl

theorem creates_of_request {command : Command} (addsNone : command.request.yield.stepCount = 0) :
    (Entry.known command.instruction).creates = [] := by
  apply creates_of_stepCount
  rw [Entry.yield, yield_instruction]
  exact addsNone

/-- A program makes nothing if it does not look as if it did. -/
theorem creates_of_program {program : Php.Program} (noRole : program.addsRole = false)
    (noInsert : effect? program ≠ some .insertPost) :
    (Entry.known (Command.run program).instruction).creates = [] := by
  apply creates_of_request
  rw [Command.request, Request.yield, ofCode?_source program noRole]
  cases does : effect? program with
  | none => rfl
  | some effect =>
      cases effect with
      | insertPost => exact absurd does noInsert
      | _ => rfl

/-- A program that adds a role makes nothing, even if it looks as if it did. -/
theorem creates_addRole (name : String) (capabilities : List String) :
    (Entry.known (Command.run (.addRole name capabilities)).instruction).creates = [] := by
  have noTitle : demandOfContent (Php.Program.addRole name capabilities).source =
      .error .noTitle := by
    rw [demandOfContent, Draft.ofCode, Php.fields_addRole]
    rfl
  cases does : Effect.ofCode? (Php.Program.addRole name capabilities).source with
  | none =>
      apply creates_of_request
      rw [Command.request, Request.yield, does]
      rfl
  | some effect =>
      cases effect with
      | insertPost =>
          rw [Entry.creates, Entry.addedKinds, Entry.demand, demand_instruction, Command.request,
            Request.demand, does]
          simp only [noTitle]
          rfl
      | _ =>
          apply creates_of_request
          rw [Command.request, Request.yield, does]
          rfl

/-- An entry that asks for steps that make nothing, if it does not fail, makes nothing. -/
theorem creates_of_guarded {fails : Prop} [Decidable fails] {reason : Reason}
    {kinds : List StepKind}
    (asks : entry.demand = if fails then .error reason else .ok (.add kinds))
    (makeNone : ∀ kind ∈ kinds, kind.created? = none) : entry.creates = [] := by
  rw [Entry.creates, Entry.addedKinds, asks]
  by_cases isFailure : fails
  · rw [if_pos isFailure]
    rfl
  · rw [if_neg isFailure]
    exact List.filterMap_eq_nil_iff.mpr makeNone

theorem creates_setSiteOptions (options : Members Json) :
    (Entry.known (.setSiteOptions options)).creates = [] :=
  creates_of_guarded rfl (List.forall_mem_map.mpr fun _ _ => rfl)

theorem creates_createMenu (name : String) :
    (Entry.known (Command.createMenu name).instruction).creates = [] := by
  have asks : (Entry.known (Command.createMenu name).instruction).demand =
      if (clean name).isEmpty then .error .noMenuName
      else .ok (.add [.createMenu (.named (clean name))]) := by
    rw [Entry.demand, demand_instruction, Command.request, Request.demand]
  exact creates_of_guarded asks (List.forall_mem_singleton.mpr rfl)

/-- A step that makes nothing emits no instruction that makes anything. -/
theorem creates_of_emits {settings : Settings} {plan : List Step} {position : Nat} {kind : StepKind}
    (createsNone : kind.created? = none) {instruction : Instruction}
    (emits : Emits settings plan position kind instruction) :
    (Entry.known instruction).creates = [] := by
  cases emits with
  | createContent isContent titled =>
      rw [Compile.created?_of_contentOf? isContent, titled] at createsNone
      cases createsNone
  | createPage isSelection creates titled =>
      rw [Compile.created?_of_selectionOf? isSelection creates, titled] at createsNone
      cases createsNone
  | importImage isContent hasImage => exact creates_of_request rfl
  | attachImage isContent => exact creates_of_program rfl nofun
  | @pin kind role selection isSelection =>
      rw [Compile.pin_eq]
      exact creates_setSiteOptions _
  | @select kind role selection target isSelection isTarget =>
      cases role <;> exact creates_of_program rfl nofun
  | setSiteOption option => exact creates_setSiteOptions _
  | defineConstants constants =>
      exact creates_of_guarded rfl (List.forall_mem_singleton.mpr rfl)
  | importContent url => exact creates_of_guarded rfl (List.forall_mem_singleton.mpr rfl)
  | addRole role => exact creates_addRole _ _
  | createMenu menu => exact creates_createMenu _
  | addPageItem menu target => exact creates_of_program rfl nofun
  | addCustomItem menu inMenu isCustom => exact creates_of_request rfl
  | assignMenu menu hasLocation => exact creates_of_request rfl
  | installPlugin | installTheme | login => rfl

/-! ## Content of plans -/

section

variable (settings : Settings) (plan : List Step)

/-- The block of a step that makes content returns. -/
theorem exists_returns_of_created? (position : Nat) {kind : StepKind} {created : CreatedContent}
    (creates : kind.created? = some created) :
    ∃ added, Returns settings ids steps (block settings plan position kind) [created] added := by
  have isMade : kind.created?.toList = [created] := by
    rw [creates]
    rfl
  rw [← isMade]
  cases kind with
  | addPage details => exact exists_returns_titledContent .page details
  | addPost details => exact exists_returns_titledContent .post details
  | setHomepage selection =>
      have isMode : selection.mode = .create := Compile.mode_of_created? creates
      rw [block, Compile.created?_of_selectionOf? rfl isMode]
      exact exists_returns_newPage plan position .homepage isMode
  | setPostsPage selection =>
      have isMode : selection.mode = .create := Compile.mode_of_created? creates
      rw [block, Compile.created?_of_selectionOf? rfl isMode]
      exact exists_returns_newPage plan position .postsPage isMode
  | _ => cases creates

/-- The block of a step makes what the step makes. -/
theorem madeBy_block (position : Nat) (kind : StepKind) :
    madeBy (block settings plan position kind) = kind.created?.toList := by
  cases creates : kind.created? with
  | none =>
      apply List.flatMap_eq_nil_iff.mpr
      exact fun instruction member =>
        creates_of_emits creates (Compile.emits_of_mem_block member)
  | some created =>
      have returns : ∃ added, Returns settings (fun _ => "") [] (block settings plan position kind)
          [created] added := exists_returns_of_created? settings plan position creates
      obtain ⟨added, returns⟩ := returns
      exact returns.madeBy_eq

/-- The blocks of some steps make what the steps make. -/
theorem madeBy_blocksFrom (position : Nat) (part : List Step) :
    madeBy (blocksFrom settings plan position part) = made part := by
  induction part generalizing position with
  | nil => rfl
  | cons step rest inductionHypothesis =>
      rw [Compile.blocksFrom_cons, madeBy_append, madeBy_block, inductionHypothesis,
        ← made_singleton, ← made_append, List.singleton_append]

theorem madeBy_preamble (title : String) : madeBy (Compile.preamble settings title) = [] := by
  rw [Compile.preamble, Compile.titleOption, madeBy_append]
  split
  · rfl
  · rw [madeBy, List.flatMap_singleton, Instruction.options, creates_setSiteOptions]
    rfl

/-- What comes before the block of a step makes what the steps before it make. -/
theorem madeBy_before (plan : Plan) (position : Nat) :
    madeBy (Compile.before settings plan position) = made (plan.steps.take position) := by
  rw [Compile.before, madeBy_append, madeBy_preamble, madeBy_blocksFrom, List.nil_append]

end

end Recovery

end SiteScript

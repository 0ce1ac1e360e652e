import SiteScript.Proofs.Recovery.Reading

/-!
# Instructions that return

Instructions return if they can be read back, and the steps that reading adds emit them
again.  Only options come back differently: every one of them is set by a step, and so by
an instruction, of its own.  The steps that are added may refer to each other and to the
steps before them, so what they emit is told for every plan that goes on from there.
-/

namespace SiteScript.Recovery

open Compile (blocksFrom)
open Text (clean cleanOrEmpty)

/-- An instruction with its options set one at a time. -/
def separate : Instruction → List Instruction
  | .setSiteOptions options => options.map fun option => .setSiteOptions [option]
  | instruction => [instruction]

/-- Commands have no options to set one at a time. -/
theorem flatMap_separate_commands (commands : List Command) :
    (commands.map Command.instruction).flatMap separate = commands.map Command.instruction := by
  induction commands with
  | nil => rfl
  | cons command rest inductionHypothesis =>
      rw [List.map_cons, List.flatMap_cons, inductionHypothesis]
      rfl

/-- A text that there is only if it is not empty. -/
def unlessEmpty (text : String) : Option String :=
  if text.isEmpty then none else some text

@[simp]
theorem cleanOrEmpty_unlessEmpty {text : String} (isClean : clean text = text) :
    cleanOrEmpty (unlessEmpty text) = text := by
  rw [unlessEmpty]
  split
  · rename_i isEmpty
    exact (String.isEmpty_iff.mp isEmpty).symm
  · exact isClean

/-- The content that steps make. -/
def made (steps : List Step) : List CreatedContent :=
  steps.filterMap fun step => step.kind.created?

theorem made_append (first second : List Step) :
    made (first ++ second) = made first ++ made second :=
  List.filterMap_append

/-- What one step makes. -/
theorem made_singleton (step : Step) : made [step] = step.kind.created?.toList := by
  rw [made]
  cases creates : step.kind.created? with
  | none => simp [creates]
  | some created => simp [creates]

/-- Reading instructions behind some steps adds steps, which make the given content and emit
the instructions again. -/
structure Returns (settings : Settings) (ids : Ids) (steps : List Step)
    (instructions : List Instruction) (created : List CreatedContent) (added : List Step) :
    Prop where
  /-- Every instruction is read. -/
  reads : instructions.foldlM (readInstruction ids) steps = .ok (steps ++ added)
  made_eq : made added = created
  noLanding : ∀ step ∈ added, Compile.landingOf? step = none
  /-- In every plan that begins with the steps, and in which no identifier repeats, the added
  ones emit the instructions. -/
  emits : ∀ plan, steps ++ added <+: plan → (plan.map Step.id).Nodup → ∀ position,
    blocksFrom settings plan position added = instructions.flatMap separate

section

variable {settings : Settings} {ids : Ids} {steps : List Step}

theorem Returns.nil : Returns settings ids steps [] [] [] where
  reads := by rw [List.append_nil]; rfl
  made_eq := rfl
  noLanding := by simp
  emits := by simp

/-- Instructions return one after the other. -/
theorem Returns.append {first second : List Instruction} {created later : List CreatedContent}
    {added more : List Step} (firstReturns : Returns settings ids steps first created added)
    (secondReturns : Returns settings ids (steps ++ added) second later more) :
    Returns settings ids steps (first ++ second) (created ++ later) (added ++ more) where
  reads := by
    rw [List.foldlM_append, firstReturns.reads, ← List.append_assoc]
    exact secondReturns.reads
  made_eq := by
    rw [made_append, firstReturns.made_eq, secondReturns.made_eq]
  noLanding := by
    intro step member
    rcases List.mem_append.mp member with inFirst | inSecond
    · exact firstReturns.noLanding step inFirst
    · exact secondReturns.noLanding step inSecond
  emits := by
    intro plan isPrefix nodup position
    rw [← List.append_assoc] at isPrefix
    rw [Compile.blocksFrom_append, List.flatMap_append,
      firstReturns.emits plan ((List.prefix_append _ _).trans isPrefix) nodup,
      secondReturns.emits plan isPrefix nodup]

/-- Instructions return that are read as one step with them as its block in every plan that
goes on from there. -/
theorem exists_returns_step {instructions : List Instruction} {created : List CreatedContent}
    (kind : StepKind) (created_eq : kind.created?.toList = created)
    (noLanding : ∀ id, Compile.landingOf? { id, kind } = none)
    (reads : instructions.foldlM (readInstruction ids) steps = .ok (push ids steps kind))
    (emits : ∀ plan, push ids steps kind <+: plan → (plan.map Step.id).Nodup → ∀ position,
      Compile.block settings plan position kind = instructions.flatMap separate) :
    ∃ added, Returns settings ids steps instructions created added := by
  refine ⟨[{ id := ids steps.length, kind }], ?_⟩
  constructor
  · exact reads
  · rw [made_singleton, created_eq]
  · intro step member
    rw [List.mem_singleton.mp member]
    exact noLanding _
  · intro plan isPrefix nodup position
    rw [Compile.blocksFrom_cons, Compile.blocksFrom_nil, List.append_nil,
      emits plan isPrefix nodup]

/-- Instructions return that are read as one step with them as its block. -/
theorem exists_returns_push {instructions : List Instruction} {created : List CreatedContent}
    (kind : StepKind) (created_eq : kind.created?.toList = created)
    (noLanding : ∀ id, Compile.landingOf? { id, kind } = none)
    (reads : instructions.foldlM (readInstruction ids) steps = .ok (push ids steps kind))
    (emits : ∀ plan position,
      Compile.block settings plan position kind = instructions.flatMap separate) :
    ∃ added, Returns settings ids steps instructions created added :=
  exists_returns_step kind created_eq noLanding reads fun plan _ _ => emits plan

/-! ## Settings -/

/-- The steps that options add make nothing and emit the options one at a time. -/
theorem exists_pushAll_eq (settings : Settings) (ids : Ids) (steps : List Step)
    {options : Members Json} (areClean : Json.CleanMembers options)
    (named : ∀ option ∈ options, option.1 ≠ "") :
    ∃ added, pushAll ids steps (options.map fun option =>
        .setSiteOption { name := option.1, value := option.2 }) = steps ++ added ∧
      (∀ step ∈ added, step.kind.created? = none ∧ Compile.landingOf? step = none) ∧
      ∀ plan position, blocksFrom settings plan position added =
        options.map fun option => .setSiteOptions [option] := by
  induction options generalizing steps with
  | nil => exact ⟨[], by simp [pushAll], by simp, by simp⟩
  | cons option rest inductionHypothesis =>
      obtain ⟨⟨nameClean, valueClean⟩, restClean⟩ := List.forall_mem_cons.mp areClean
      obtain ⟨nameNotEmpty, restNamed⟩ := List.forall_mem_cons.mp named
      obtain ⟨added, pushed, quiet, emits⟩ := inductionHypothesis
        (push ids steps (.setSiteOption { name := option.1, value := option.2 }))
        restClean restNamed
      refine ⟨⟨ids steps.length, .setSiteOption { name := option.1, value := option.2 }⟩ :: added,
        ?_, ?_, ?_⟩
      · rw [pushAll, List.map_cons, List.foldl_cons, ← pushAll, pushed, push,
          List.append_assoc, List.singleton_append]
      · exact List.forall_mem_cons.mpr ⟨⟨rfl, rfl⟩, quiet⟩
      · intro plan position
        have emitted : Compile.block settings plan position (.setSiteOption
            { name := option.1, value := option.2 }) = [.setSiteOptions [option]] := by
          rw [Compile.block, Compile.siteOption]
          simp only
          rw [nameClean, valueClean, if_neg (by simpa using nameNotEmpty)]
          rfl
        rw [Compile.blocksFrom_cons, emitted, emits]
        rfl

/-- Options return one at a time. -/
theorem exists_returns_options {options : Members Json} (notEmpty : options ≠ [])
    (areClean : Json.CleanMembers options) (named : ∀ option ∈ options, option.1 ≠ "") :
    ∃ added, Returns settings ids steps [.setSiteOptions options] [] added := by
  obtain ⟨added, pushed, quiet, emits⟩ :=
    exists_pushAll_eq settings ids steps areClean named
  refine ⟨added, ?_⟩
  constructor
  · have isEmpty : options.isEmpty = false := by simpa using notEmpty
    rw [List.foldlM_cons, readInstruction, isEmpty, if_neg Bool.false_ne_true, pushed]
    rfl
  · exact List.filterMap_eq_nil_iff.mpr fun step member => (quiet step member).1
  · exact fun step member => (quiet step member).2
  · intro plan _ _ position
    rw [emits, List.flatMap_singleton]
    rfl

/-- A single option returns as it is. -/
theorem exists_returns_option {name : String} {value : Json} (nameClean : clean name = name)
    (valueClean : value.deepClean = value) (named : name ≠ "") :
    ∃ added, Returns settings ids steps [.options [(name, value)]] [] added := by
  have options_eq : Members.ofPairs [(name, value)] = [(name, value)] := rfl
  rw [Instruction.options, options_eq]
  apply exists_returns_options
  · exact List.cons_ne_nil _ _
  · exact List.forall_mem_singleton.mpr ⟨nameClean, valueClean⟩
  · exact List.forall_mem_singleton.mpr named

end

end SiteScript.Recovery

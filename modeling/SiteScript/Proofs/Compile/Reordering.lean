import SiteScript.Proofs.Compile.Dependence

/-!
# Reordering plans

The steps of a plan refer to each other by identifier, and the number of a page counts only the
steps that make content.  So every step keeps its block when a plan is reordered, if the steps that
make content keep their order.
-/

namespace SiteScript.Compile

open SiteScript.Numbering (createdAt createdCount firstCreated)

/-- Whether a step makes a landing choice. -/
def makesLanding (step : Step) : Bool :=
  (landingOf? step).isSome

/-- The same steps in an order that keeps that of the steps that make content, and that of the steps
that make landing choices. -/
structure IsReordering (steps reordered : List Step) : Prop where
  perm : reordered.Perm steps
  contentInOrder : (reordered.filter fun step => step.kind.creates) =
    steps.filter fun step => step.kind.creates
  landingInOrder : reordered.filter makesLanding = steps.filter makesLanding

/-- The block of a step that is among the steps of a plan once. -/
def blockOf (settings : Settings) (steps : List Step) (step : Step) : List Instruction :=
  block settings steps (steps.idxOf step) step.kind

/-- A plan with reordered steps compiles to the blocks of its steps in the new order, behind the
same preamble. -/
structure KeepsBlocks (settings : Settings) (plan : Plan) (reordered : List Step) : Prop where
  landingPage_eq : ({ plan with steps := reordered }.compile settings).landingPage =
    (plan.compile settings).landingPage
  versions_eq : ({ plan with steps := reordered }.compile settings).versions =
    (plan.compile settings).versions
  extensionBundles_eq : ({ plan with steps := reordered }.compile settings).extensionBundles =
    (plan.compile settings).extensionBundles
  /-- Each step has the same block at its new position as at its old one. -/
  block_eq : ∀ position newPosition step, plan.steps[position]? = some step →
    reordered[newPosition]? = some step →
    block settings reordered newPosition step.kind = block settings plan.steps position step.kind
  /-- The page or post that a step makes is predicted the same number. -/
  createdAt_eq : ∀ position newPosition step, plan.steps[position]? = some step →
    reordered[newPosition]? = some step → step.kind.creates →
    createdAt newPosition reordered = createdAt position plan.steps
  /-- Every identifier stands for the same content. -/
  target?_eq : target? reordered = target? plan.steps
  /-- The blocks stand in the order of the steps. -/
  entries_eq : (plan.compile settings).entries =
    (preamble settings plan.title ++ plan.steps.flatMap (blockOf settings plan.steps)).map .known
  /-- The same blocks stand in the new order. -/
  entries_reordered : ({ plan with steps := reordered }.compile settings).entries =
    (preamble settings plan.title ++ reordered.flatMap (blockOf settings plan.steps)).map .known

variable {steps reordered : List Step}

/-! ## One plan -/

/-- What an identifier stands for is told by membership, if identifiers do not repeat. -/
theorem target?_eq_some_iff (nodup : (steps.map Step.id).Nodup) {id : String}
    {created : CreatedContent} :
    target? steps (some id) = some created ↔
      ∃ step ∈ steps, step.id = id ∧ step.kind.created? = some created := by
  rw [target?, Option.bind_some, Option.bind_eq_some_iff]
  constructor
  · rintro ⟨step, found, creates⟩
    exact ⟨step, List.mem_of_find?_eq_some found, by simpa using List.find?_some found, creates⟩
  · rintro ⟨step, inSteps, rfl, creates⟩
    exact ⟨step, find?_id_eq nodup inSteps, creates⟩

/-- The number of content is told by its place among the steps that make content. -/
theorem createdAt_eq_idxOf (nodup : (steps.map Step.id).Nodup) {position : Nat} {step : Step}
    (isStep : steps[position]? = some step) (creates : step.kind.creates) :
    createdAt position steps =
      firstCreated + (steps.filter fun other => other.kind.creates).idxOf step := by
  obtain ⟨inBounds, equal⟩ := List.getElem?_eq_some_iff.mp isStep
  have notBefore : step ∉ (steps.take position).filter fun other => other.kind.creates := by
    intro inBefore
    obtain ⟨index, isIndex, equalIndex⟩ :=
      List.mem_take_iff_getElem.mp (List.mem_filter.mp inBefore).1
    have samePosition : index = position :=
      position_eq_of_id_eq nodup isStep
        (by rw [List.getElem?_eq_getElem (by omega), equalIndex]) rfl
    omega
  have around : steps = steps.take position ++ step :: steps.drop (position + 1) := by
    rw [← equal, List.getElem_cons_drop, List.take_append_drop]
  have filtered := congrArg (List.filter fun other => other.kind.creates) around
  rw [List.filter_append,
    List.filter_cons_of_pos (p := fun other : Step => other.kind.creates) creates] at filtered
  rw [filtered, List.idxOf_append_of_notMem notBefore, List.idxOf_cons_self, createdAt,
    createdCount, List.countP_eq_length_filter, Nat.add_zero]

/-- The block at a position is that of the step there, if identifiers do not repeat. -/
theorem blockOf_eq (settings : Settings) (nodup : (steps.map Step.id).Nodup) {position : Nat}
    {step : Step} (isStep : steps[position]? = some step) :
    blockOf settings steps step = block settings steps position step.kind := by
  have isFirst : steps[steps.idxOf step]? = some step :=
    List.getElem?_idxOf (List.mem_of_getElem? isStep)
  rw [blockOf, position_eq_of_id_eq nodup isStep isFirst rfl]

/-- The first landing choice is told by the steps that make one. -/
theorem findSome?_landingOf?_filter (steps : List Step) :
    (steps.filter makesLanding).findSome? landingOf? = steps.findSome? landingOf? := by
  induction steps with
  | nil => rfl
  | cons step rest inductionHypothesis =>
      cases lands : landingOf? step with
      | none =>
          have makesNone : ¬makesLanding step := by
            simp [makesLanding, lands]
          rw [List.filter_cons_of_neg makesNone, List.findSome?_cons, lands]
          exact inductionHypothesis
      | some landing =>
          have makesOne : makesLanding step := by
            rw [makesLanding, lands, Option.isSome_some]
          rw [List.filter_cons_of_pos makesOne, List.findSome?_cons, List.findSome?_cons, lands]

/-! ## Two plans -/

namespace IsReordering

/-- Steps are in an order of their own. -/
theorem refl (steps : List Step) : IsReordering steps steps :=
  ⟨.refl steps, rfl, rfl⟩

section

variable (reordering : IsReordering steps reordered)

include reordering

theorem nodup_reordered (nodup : (steps.map Step.id).Nodup) :
    (reordered.map Step.id).Nodup :=
  (reordering.perm.map Step.id).nodup_iff.mpr nodup

theorem target?_eq (nodup : (steps.map Step.id).Nodup) : target? reordered = target? steps := by
  funext id
  cases id with
  | none => rfl
  | some id =>
      apply Option.ext
      intro created
      rw [target?_eq_some_iff nodup, target?_eq_some_iff (reordering.nodup_reordered nodup)]
      simp only [reordering.perm.mem_iff]

theorem createdAt_eq (nodup : (steps.map Step.id).Nodup) {position newPosition : Nat} {step : Step}
    (isStep : steps[position]? = some step) (isMoved : reordered[newPosition]? = some step)
    (creates : step.kind.creates) : createdAt newPosition reordered = createdAt position steps := by
  rw [createdAt_eq_idxOf nodup isStep creates,
    createdAt_eq_idxOf (reordering.nodup_reordered nodup) isMoved creates,
    reordering.contentInOrder]

theorem block_eq (settings : Settings) (nodup : (steps.map Step.id).Nodup)
    {position newPosition : Nat} {step : Step} (isStep : steps[position]? = some step)
    (isMoved : reordered[newPosition]? = some step) :
    block settings reordered newPosition step.kind = block settings steps position step.kind :=
  block_congr settings (reordering.target?_eq nodup)
    (reordering.createdAt_eq nodup isStep isMoved)

theorem blocks_reordered (settings : Settings) (nodup : (steps.map Step.id).Nodup) :
    blocks settings reordered = reordered.map (blockOf settings steps) := by
  apply List.ext_getElem?
  intro position
  rw [blocks, List.getElem?_map, List.getElem?_zipIdx, List.getElem?_map, Option.map_map,
    Nat.zero_add]
  cases isMoved : reordered[position]? with
  | none => rfl
  | some step =>
      obtain ⟨oldPosition, isStep⟩ := List.mem_iff_getElem?.mp
        (reordering.perm.mem_iff.mp (List.mem_of_getElem? isMoved))
      rw [Option.map_some, Option.map_some, blockOf_eq settings nodup isStep]
      exact congrArg some (reordering.block_eq settings nodup isStep isMoved)

/-- The script of the reordered plan has the same preamble, and the blocks in the new order. -/
theorem entries_compile_reordered (settings : Settings) {plan : Plan}
    (nodup : (steps.map Step.id).Nodup) :
    ({ plan with steps := reordered }.compile settings).entries =
      (preamble settings plan.title ++ reordered.flatMap (blockOf settings steps)).map .known := by
  rw [Plan.compile, reordering.blocks_reordered settings nodup, ← List.flatMap_def]

end

/-- Reordering a plan moves the blocks of its steps and changes none of them. -/
theorem keepsBlocks (settings : Settings) {plan : Plan}
    (nodup : (plan.steps.map Step.id).Nodup) {reordered : List Step}
    (reordering : IsReordering plan.steps reordered) : KeepsBlocks settings plan reordered where
  landingPage_eq := by
    have sameLanding : landingOf { plan with steps := reordered } = landingOf plan := by
      rw [landingOf, landingOf, ← findSome?_landingOf?_filter reordered,
        reordering.landingInOrder, findSome?_landingOf?_filter]
    rw [Plan.compile, Plan.compile, sameLanding]
  versions_eq := rfl
  extensionBundles_eq := rfl
  block_eq := fun position newPosition step => reordering.block_eq settings nodup
  createdAt_eq := fun position newPosition step => reordering.createdAt_eq nodup
  target?_eq := reordering.target?_eq nodup
  entries_eq := (refl plan.steps).entries_compile_reordered settings nodup
  entries_reordered := reordering.entries_compile_reordered settings nodup

end IsReordering

/-- A plan in which a page is selected and linked behind the step that makes it. -/
def visitPlan : Plan :=
  { title := "A visit"
    landing := .admin
    landingUrl := none
    steps := [
      { id := "login", kind := .login { username := none, password := none } },
      { id := "about", kind := .addPage { Content.empty with title := "About us" } },
      { id := "front", kind := .setHomepage {
        mode := .create, title := "Welcome", body := "", pageId := none } },
      { id := "list", kind := .setPostsPage {
        mode := .existing, title := "", body := "", pageId := some "about" } },
      { id := "land", kind := .setLanding { mode := .frontPage, url := none } },
      { id := "menu", kind := .createMenu {
        name := "Main", location := none,
        items := [{ kind := .page, pageId := some "about", title := "", url := "" }] } }] }

/-- The steps of the plan with the page selected and linked before the step that makes it. -/
def visitInAdvance : List Step :=
  ["land", "menu", "list", "about", "login", "front"].filterMap fun id =>
    visitPlan.steps.find? fun step => step.id == id

theorem keepsBlocks_visitInAdvance :
    (visitPlan.steps.map Step.id).Nodup ∧ IsReordering visitPlan.steps visitInAdvance ∧
      KeepsBlocks .default visitPlan visitInAdvance := by
  have nodup : (visitPlan.steps.map Step.id).Nodup := by
    decide
  have reordering : IsReordering visitPlan.steps visitInAdvance := by
    constructor
    · decide +kernel
    · decide +kernel
    · decide +kernel
  exact ⟨nodup, reordering, IsReordering.keepsBlocks .default nodup reordering⟩

end SiteScript.Compile

import SiteScript.Proofs.Compile.Dependence

/-!
# Leaving out incomplete steps

A step that emits nothing makes no content, so it is neither counted nor the target of a reference.
Leaving out any number of such steps moves the others to new positions, and changes nothing in what
they stand for.
-/

namespace SiteScript

open SiteScript.Numbering (createdAt createdCount)

variable {α β : Type}

/-! ## Lists without some elements -/

/-- The elements of a list, the first of which has the given position, without those at removed
positions. -/
def withoutAt (removed : Nat → Bool) : Nat → List α → List α
  | _, [] => []
  | position, a :: rest =>
    if removed position then withoutAt removed (position + 1) rest
    else a :: withoutAt removed (position + 1) rest

variable {removed : Nat → Bool} {position : Nat}

theorem withoutAt_cons_of_removed (isRemoved : removed position = true) (a : α) (rest : List α) :
    withoutAt removed position (a :: rest) = withoutAt removed (position + 1) rest :=
  if_pos isRemoved

theorem withoutAt_cons_of_kept (isKept : removed position = false) (a : α) (rest : List α) :
    withoutAt removed position (a :: rest) = a :: withoutAt removed (position + 1) rest := by
  rw [withoutAt, isKept]
  rfl

theorem withoutAt_append (removed : Nat → Bool) (position : Nat) (first second : List α) :
    withoutAt removed position (first ++ second) =
      withoutAt removed position first ++ withoutAt removed (position + first.length) second := by
  induction first generalizing position with
  | nil => rfl
  | cons a rest inductionHypothesis =>
      have shifted : position + 1 + rest.length = position + (a :: rest).length := by
        rw [List.length_cons]
        omega
      rw [List.cons_append, withoutAt, withoutAt, inductionHypothesis, shifted]
      split <;> rfl

/-- An element that is left was there before, at a position that is not removed. -/
theorem exists_of_mem_withoutAt {list : List α} {a : α}
    (isLeft : a ∈ withoutAt removed position list) :
    ∃ index, list[index]? = some a ∧ removed (position + index) = false := by
  induction list generalizing position with
  | nil => cases isLeft
  | cons first rest inductionHypothesis =>
      cases isRemoved : removed position with
      | true =>
          rw [withoutAt_cons_of_removed isRemoved] at isLeft
          obtain ⟨index, isPlaced, isKept⟩ := inductionHypothesis isLeft
          exact ⟨index + 1, isPlaced, by rwa [← Nat.add_assoc, Nat.add_right_comm]⟩
      | false =>
          rw [withoutAt_cons_of_kept isRemoved] at isLeft
          rcases List.mem_cons.mp isLeft with rfl | isLater
          · exact ⟨0, rfl, isRemoved⟩
          · obtain ⟨index, isPlaced, isKept⟩ := inductionHypothesis isLater
            exact ⟨index + 1, isPlaced, by rwa [← Nat.add_assoc, Nat.add_right_comm]⟩

/-- What brings nothing can be left out. -/
theorem flatMap_withoutAt {bring : α → List β} {list : List α}
    (bringsNothing : ∀ index a, list[index]? = some a → removed (position + index) = true →
      bring a = []) :
    (withoutAt removed position list).flatMap bring = list.flatMap bring := by
  induction list generalizing position with
  | nil => rfl
  | cons first rest inductionHypothesis =>
      have sameRest : (withoutAt removed (position + 1) rest).flatMap bring =
          rest.flatMap bring := by
        apply inductionHypothesis
        intro index a isPlaced isRemoved
        refine bringsNothing (index + 1) a isPlaced ?_
        rwa [← Nat.add_assoc, Nat.add_right_comm]
      cases isRemoved : removed position with
      | true =>
          rw [withoutAt_cons_of_removed isRemoved, List.flatMap_cons,
            bringsNothing 0 first rfl isRemoved, List.nil_append, sameRest]
      | false =>
          rw [withoutAt_cons_of_kept isRemoved, List.flatMap_cons, List.flatMap_cons, sameRest]

theorem filterMap_withoutAt {choose? : α → Option β} {list : List α}
    (choosesNone : ∀ index a, list[index]? = some a → removed (position + index) = true →
      choose? a = none) :
    (withoutAt removed position list).filterMap choose? = list.filterMap choose? := by
  rw [List.filterMap_eq_flatMap_toList, List.filterMap_eq_flatMap_toList]
  apply flatMap_withoutAt
  intro index a isPlaced isRemoved
  rw [choosesNone index a isPlaced isRemoved, Option.toList_none]

/-! ## Plans without some steps -/

/-- A plan without the steps at removed positions. -/
def Plan.without (removed : Nat → Bool) (plan : Plan) : Plan :=
  { plan with steps := withoutAt removed 0 plan.steps }

namespace Compile

/-- A step of a plan that asks for nothing and that nothing refers to: it emits nothing, makes no
landing choice, and no other step has its identifier. -/
structure IsInvisible (settings : Settings) (steps : List Step) (position : Nat) (step : Step) :
    Prop where
  emitsNothing : block settings steps position step.kind = []
  noLanding : landingOf? step = none
  ownId : ∀ otherPosition other, steps[otherPosition]? = some other → other.id = step.id →
    otherPosition = position

/-- The steps at removed positions are invisible. -/
def RemovesInvisible (settings : Settings) (removed : Nat → Bool) (steps : List Step) : Prop :=
  ∀ position step, steps[position]? = some step → removed position = true →
    IsInvisible settings steps position step

/-- A plan says the same without the steps at removed positions. -/
structure LeavesNoTrace (settings : Settings) (removed : Nat → Bool) (plan : Plan) : Prop where
  compile_eq : (plan.without removed).compile settings = plan.compile settings
  /-- Every step that is left has the block that it had among all steps. -/
  blocks_eq : blocks settings (plan.without removed).steps =
    withoutAt removed 0 (blocks settings plan.steps)
  /-- Every identifier stands for the content that it stood for. -/
  target?_eq : target? (plan.without removed).steps = target? plan.steps

variable {settings : Settings} {steps : List Step}

/-- If identifiers do not repeat, every step has its own. -/
theorem IsInvisible.of_nodup (nodup : (steps.map Step.id).Nodup) {step : Step}
    (isStep : steps[position]? = some step)
    (emitsNothing : block settings steps position step.kind = [])
    (noLanding : landingOf? step = none) : IsInvisible settings steps position step := by
  refine ⟨emitsNothing, noLanding, ?_⟩
  intro otherPosition other isOther sameId
  exact position_eq_of_id_eq nodup isStep isOther sameId

/-- A step that emits nothing makes no content. -/
theorem created?_of_block_eq_nil {kind : StepKind}
    (emitsNothing : block settings steps position kind = []) : kind.created? = none := by
  cases creates : kind.created? with
  | none => rfl
  | some created =>
      obtain ⟨first, rest, equal, -⟩ := makesFirst_block settings steps position creates
      rw [emitsNothing] at equal
      cases equal

namespace RemovesInvisible

section

variable (invisible : RemovesInvisible settings removed steps)

include invisible

theorem created?_eq_none {step : Step} (isStep : steps[position]? = some step)
    (isRemoved : removed position = true) : step.kind.created? = none :=
  created?_of_block_eq_nil (invisible position step isStep isRemoved).emitsNothing

theorem findSome?_landingOf? :
    (withoutAt removed 0 steps).findSome? landingOf? = steps.findSome? landingOf? := by
  rw [← List.head?_filterMap, ← List.head?_filterMap, filterMap_withoutAt]
  intro index step isStep isRemoved
  rw [Nat.zero_add] at isRemoved
  exact (invisible index step isStep isRemoved).noLanding

/-- Removed steps are not counted, in any first part of the plan. -/
theorem createdCount_withoutAt {first rest : List Step} (equal : steps = first ++ rest) :
    createdCount (withoutAt removed 0 first) = createdCount first := by
  have sameContent : (withoutAt removed 0 first).filterMap (fun step => step.kind.created?) =
      first.filterMap fun step => step.kind.created? := by
    apply filterMap_withoutAt
    intro index step isStep isRemoved
    rw [Nat.zero_add] at isRemoved
    obtain ⟨inBounds, -⟩ := List.getElem?_eq_some_iff.mp isStep
    have inSteps : steps[index]? = some step := by
      rw [equal, List.getElem?_append_left inBounds, isStep]
    exact invisible.created?_eq_none inSteps isRemoved
  have sameLength := congrArg List.length sameContent
  rwa [List.length_filterMap_eq_countP, List.length_filterMap_eq_countP] at sameLength

/-- Removed steps are the target of no reference, and hide no other step from one. -/
theorem target?_withoutAt : target? (withoutAt removed 0 steps) = target? steps := by
  funext id
  cases id with
  | none => rfl
  | some id =>
      rw [target?, target?, Option.bind_some, Option.bind_some]
      by_cases isAffected : ∃ position step, steps[position]? = some step ∧
        removed position = true ∧ step.id = id
      · obtain ⟨position, step, isStep, isRemoved, rfl⟩ := isAffected
        have ownId := (invisible position step isStep isRemoved).ownId
        have noneBefore : (steps.find? fun other => other.id == step.id).bind
            (fun other => other.kind.created?) = none := by
          rw [Option.bind_eq_none_iff]
          intro other found
          obtain ⟨index, isOther⟩ := List.mem_iff_getElem?.mp (List.mem_of_find?_eq_some found)
          have samePosition := ownId index other isOther (by simpa using List.find?_some found)
          rw [samePosition] at isOther
          exact invisible.created?_eq_none isOther isRemoved
        have notFound : (withoutAt removed 0 steps).find? (fun other => other.id == step.id) =
            none := by
          rw [List.find?_eq_none]
          intro other isLeft sameId
          obtain ⟨index, isOther, isKept⟩ := exists_of_mem_withoutAt isLeft
          rw [Nat.zero_add, ownId index other isOther (by simpa using sameId), isRemoved] at isKept
          cases isKept
        rw [noneBefore, notFound, Option.bind_none]
      · have sameFound : (withoutAt removed 0 steps).find? (fun step => step.id == id) =
            steps.find? fun step => step.id == id := by
          rw [List.find?_eq_findSome?_guard, List.find?_eq_findSome?_guard,
            ← List.head?_filterMap, ← List.head?_filterMap, filterMap_withoutAt]
          intro index step isStep isRemoved
          rw [Nat.zero_add] at isRemoved
          have otherId : step.id ≠ id := by
            intro sameId
            exact isAffected ⟨index, step, isStep, isRemoved, sameId⟩
          simpa [Option.guard] using otherId
        rw [sameFound]

/-- A step behind a first part of the plan has its block behind what is left of that part. -/
theorem block_withoutAt {first rest : List Step} {step : Step}
    (equal : steps = first ++ step :: rest) :
    block settings (withoutAt removed 0 steps) (withoutAt removed 0 first).length step.kind =
      block settings steps first.length step.kind := by
  apply block_congr settings invisible.target?_withoutAt
  intro
  have leftBefore : (withoutAt removed 0 steps).take (withoutAt removed 0 first).length =
      withoutAt removed 0 first := by
    rw [equal, withoutAt_append, List.take_left]
  have before : steps.take first.length = first := by
    rw [equal, List.take_left]
  rw [createdAt, createdAt, leftBefore, before, invisible.createdCount_withoutAt equal]

/-- The steps behind a first part of the plan have their blocks behind what is left of it. -/
theorem blocks_withoutAt_append {first rest : List Step} (equal : steps = first ++ rest) :
    ((withoutAt removed first.length rest).zipIdx (withoutAt removed 0 first).length).map
        (fun (step, position) => block settings (withoutAt removed 0 steps) position step.kind) =
      withoutAt removed first.length ((rest.zipIdx first.length).map
        fun (step, position) => block settings steps position step.kind) := by
  induction rest generalizing first with
  | nil => rfl
  | cons step rest inductionHypothesis =>
      have laterBlocks := @inductionHypothesis (first ++ [step]) (by rw [equal]; simp)
      rw [List.length_append, List.length_singleton, withoutAt_append, Nat.zero_add] at laterBlocks
      cases isRemoved : removed first.length with
      | true =>
          rw [withoutAt_cons_of_removed isRemoved, withoutAt, List.append_nil] at laterBlocks
          rw [withoutAt_cons_of_removed isRemoved, List.zipIdx_cons, List.map_cons,
            withoutAt_cons_of_removed isRemoved]
          exact laterBlocks
      | false =>
          rw [withoutAt_cons_of_kept isRemoved, withoutAt, List.length_append,
            List.length_singleton] at laterBlocks
          rw [withoutAt_cons_of_kept isRemoved, List.zipIdx_cons, List.map_cons, List.zipIdx_cons,
            List.map_cons, withoutAt_cons_of_kept isRemoved, laterBlocks]
          exact congrArg (· :: _) (invisible.block_withoutAt equal)

theorem blocks_withoutAt :
    blocks settings (withoutAt removed 0 steps) = withoutAt removed 0 (blocks settings steps) :=
  invisible.blocks_withoutAt_append (List.nil_append steps).symm

/-- The blocks of removed steps are empty. -/
theorem flatten_blocks_withoutAt :
    (blocks settings (withoutAt removed 0 steps)).flatten = (blocks settings steps).flatten := by
  rw [invisible.blocks_withoutAt, ← List.flatMap_id, ← List.flatMap_id, flatMap_withoutAt]
  intro index emitted isBlock isRemoved
  rw [Nat.zero_add] at isRemoved
  rw [blocks, List.getElem?_map, List.getElem?_zipIdx, Option.map_map, Nat.zero_add] at isBlock
  obtain ⟨step, isStep, rfl⟩ := Option.map_eq_some_iff.mp isBlock
  exact (invisible index step isStep isRemoved).emitsNothing

end

/-- Steps that are invisible can be left out, any number of them at once. -/
theorem leavesNoTrace {plan : Plan} (invisible : RemovesInvisible settings removed plan.steps) :
    LeavesNoTrace settings removed plan := by
  constructor
  · have sameLanding : landingOf (plan.without removed) = landingOf plan := by
      rw [landingOf, landingOf, Plan.without, invisible.findSome?_landingOf?]
    rw [Plan.compile, Plan.compile, sameLanding, Plan.without,
      invisible.flatten_blocks_withoutAt]
  · exact invisible.blocks_withoutAt
  · exact invisible.target?_withoutAt

end RemovesInvisible

/-- A plan with a page and an item that are not complete, and a menu that is empty, between steps
that refer to each other. -/
def draftPlan : Plan :=
  { title := "A draft"
    landing := .frontPage
    landingUrl := none
    steps := [
      { id := "blank", kind := .addPage .empty },
      { id := "about", kind := .addPage { Content.empty with title := "About us" } },
      { id := "empty", kind := .createMenu (.named "Main") },
      { id := "front", kind := .setHomepage {
        mode := .create, title := "Welcome", body := "", pageId := none } },
      { id := "lost", kind := .setPostsPage {
        mode := .existing, title := "", body := "", pageId := some "blank" } },
      { id := "menu", kind := .createMenu {
        name := "Main", location := none,
        items := [{ kind := .page, pageId := some "about", title := "", url := "" },
          { kind := .page, pageId := some "blank", title := "", url := "" }] } }] }

theorem leavesNoTrace_draftPlan :
    RemovesInvisible .default (fun position => position % 2 == 0) draftPlan.steps ∧
      (draftPlan.without fun position => position % 2 == 0).steps.map Step.id =
        ["about", "front", "menu"] ∧
      LeavesNoTrace .default (fun position => position % 2 == 0) draftPlan := by
  have invisible : RemovesInvisible .default (fun position => position % 2 == 0)
      draftPlan.steps := by
    have nodup : (draftPlan.steps.map Step.id).Nodup := by
      decide
    intro position step isStep isRemoved
    match position, isStep, isRemoved with
    | 0, rfl, _ | 2, rfl, _ | 4, rfl, _ => exact .of_nodup nodup rfl (by decide) rfl
    | 1, _, isRemoved | 3, _, isRemoved | 5, _, isRemoved => cases isRemoved
    | position + 6, isStep, _ => cases isStep
  exact ⟨invisible, rfl, RemovesInvisible.leavesNoTrace invisible⟩

end Compile

end SiteScript

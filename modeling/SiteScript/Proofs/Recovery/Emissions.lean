import SiteScript.Proofs.Recovery.Blocks
import SiteScript.Proofs.Recovery.Menus

/-!
# Recovering what a plan emits

A script is read instruction by instruction.  The instructions that select existing pages are
dropped, and all others return, so what is recovered can be told emission by emission.
-/

namespace SiteScript.Recovery

open Compile (Emission emissionsOf)
open Text (clean)

/-- Every block returns that adds no role and selects no page, if the pages of a menu are found
and the menu gets an item. -/
theorem exists_returns_block {settings : Settings} {ids : Ids} {plan steps : List Step}
    (usernameClean : clean settings.adminUsername = settings.adminUsername)
    (passwordClean : clean settings.adminPassword = settings.adminPassword) (position : Nat)
    {kind : StepKind} (noRole : ∀ role, kind ≠ .addRole role)
    (noSelection : Compile.selectionOf? kind = none)
    (finds : ∀ menu, kind = .createMenu menu → ∀ item ∈ menu.items, FindsPages plan steps item)
    (hasItem : ∀ menu, kind = .createMenu menu →
      .createMenu (clean menu.name) ∈ Compile.menuCommands plan menu →
        ∃ item ∈ menu.items, Compile.menuItem plan (clean menu.name) item ≠ []) :
    ∃ added, Returns settings ids steps (Compile.block settings plan position kind)
      kind.created?.toList added := by
  cases kind with
  | addPage details => exact exists_returns_titledContent .page details
  | addPost details => exact exists_returns_titledContent .post details
  | installPlugin details => exact exists_returns_installPlugin details
  | installTheme details => exact exists_returns_installTheme details
  | setSiteOption option => exact exists_returns_siteOption option
  | defineConstants constants => exact exists_returns_constants constants
  | login credentials => exact exists_returns_login usernameClean passwordClean credentials
  | importContent url => exact exists_returns_importContent url
  | addRole role => exact absurd rfl (noRole role)
  | setHomepage selection => cases noSelection
  | setPostsPage selection => cases noSelection
  | createMenu menu =>
      rw [Compile.block]
      exact exists_returns_menu (finds menu rfl) (hasItem menu rfl)
  | setLanding landing => exact ⟨[], .nil⟩
  | unknown kind data => exact ⟨[], .nil⟩

/-! ## Emissions that are dropped -/

/-- Whether a step selects an existing page. -/
def selectsExisting (step : Step) : Bool :=
  (Compile.selectionOf? step.kind).any fun (_, selection) => selection.mode == .existing

/-- Whether an instruction was emitted for the selection of an existing page. -/
def isSelection (emission : Emission) : Bool :=
  emission.1.any selectsExisting

/-- The instructions that were not emitted for the selection of an existing page. -/
def kept (emissions : List Emission) : List Instruction :=
  (emissions.filter fun emission => !isSelection emission).map Prod.snd

/-- The places of the instructions that were emitted for the selection of an existing page,
if the first one has the given place. -/
def selectionPlaces (index : Nat) (emissions : List Emission) : List Nat :=
  ((emissions.zipIdx index).filter fun place => isSelection place.1).map Prod.snd

theorem kept_append (first second : List Emission) :
    kept (first ++ second) = kept first ++ kept second := by
  rw [kept, List.filter_append, List.map_append]
  rfl

theorem selectionPlaces_append (index : Nat) (first second : List Emission) :
    selectionPlaces index (first ++ second) =
      selectionPlaces index first ++ selectionPlaces (index + first.length) second := by
  rw [selectionPlaces, List.zipIdx_append, List.filter_append, List.map_append]
  rfl

section

variable {origin : Option Step}

theorem kept_emissionsOf (notSelecting : origin.any selectsExisting = false)
    (instructions : List Instruction) : kept (emissionsOf origin instructions) = instructions := by
  simp [kept, emissionsOf, List.filter_map, Function.comp_def, isSelection, notSelecting]

theorem selectionPlaces_emissionsOf (notSelecting : origin.any selectsExisting = false)
    (index : Nat) (instructions : List Instruction) :
    selectionPlaces index (emissionsOf origin instructions) = [] := by
  simp [selectionPlaces, emissionsOf, List.zipIdx_map, List.filter_map, Function.comp_def,
    isSelection, notSelecting]

theorem kept_emissionsOf_selecting {step : Step} (selecting : selectsExisting step = true)
    (instructions : List Instruction) : kept (emissionsOf (some step) instructions) = [] := by
  simp [kept, emissionsOf, List.filter_map, Function.comp_def, isSelection, selecting]

end

/-! ## Reading emissions -/

/-- Reads emissions, the first of which has the given place in the script. -/
def readFrom (ids : Ids) (index : Nat) (recovery : Recovery) (emissions : List Emission) :
    Recovery :=
  ((emissions.map fun emission => Entry.known emission.2).zipIdx index).foldl (read ids) recovery

theorem readFrom_append (ids : Ids) (index : Nat) (recovery : Recovery)
    (first second : List Emission) :
    readFrom ids index recovery (first ++ second) =
      readFrom ids (index + first.length) (readFrom ids index recovery first) second := by
  rw [readFrom, List.map_append, List.zipIdx_append, List.foldl_append, List.length_map]
  rfl

/-- Reading instructions drops none of them if every one of them can be read. -/
theorem readFrom_of_foldlM {ids : Ids} {origin : Option Step} {instructions : List Instruction}
    {index : Nat} {recovery : Recovery} {steps : List Step}
    (reads : instructions.foldlM (readInstruction ids) recovery.steps = .ok steps) :
    readFrom ids index recovery (emissionsOf origin instructions) = { recovery with steps } := by
  induction instructions generalizing index recovery with
  | nil =>
      cases reads
      rfl
  | cons instruction rest inductionHypothesis =>
      rw [List.foldlM_cons] at reads
      cases readsFirst : readInstruction ids recovery.steps instruction with
      | error reason =>
          rw [readsFirst] at reads
          cases reads
      | ok between =>
          rw [readsFirst] at reads
          have first : read ids recovery (.known instruction, index) =
              { recovery with steps := between } := by
            rw [read_eq, readEntry, readsFirst]
          have readsRest : readFrom ids (index + 1) { recovery with steps := between }
              (emissionsOf origin rest) = { recovery with steps } :=
            inductionHypothesis reads
          rw [← readsRest, ← first]
          rfl

/-- What reading emissions adds to what has been recovered before: steps that make the given
content and emit the instructions again, but for those that select an existing page, which are
dropped. -/
def Recovers (settings : Settings) (ids : Ids) (recovery : Recovery) (index : Nat)
    (emissions : List Emission) (created : List CreatedContent) : Prop :=
  ∃ added dropped,
    readFrom ids index recovery emissions =
        { steps := recovery.steps ++ added, dropped := recovery.dropped ++ dropped } ∧
      Returns settings ids recovery.steps (kept emissions) created added ∧
      dropped.map Drop.index = selectionPlaces index emissions

section

variable {settings : Settings} {ids : Ids} {recovery : Recovery} {index : Nat}

theorem Recovers.nil : Recovers settings ids recovery index [] [] := by
  refine ⟨[], [], ?_, .nil, rfl⟩
  simp [readFrom]

/-- Emissions are recovered one after the other. -/
theorem Recovers.append {first second : List Emission} {created later : List CreatedContent}
    (firstRecovers : Recovers settings ids recovery index first created)
    (secondRecovers : ∀ between : Recovery,
      made between.steps = made recovery.steps ++ created →
        Recovers settings ids between (index + first.length) second later) :
    Recovers settings ids recovery index (first ++ second) (created ++ later) := by
  obtain ⟨added, dropped, reads, returns, places⟩ := firstRecovers
  have madeBetween : made (recovery.steps ++ added) = made recovery.steps ++ created := by
    rw [made_append, returns.made_eq]
  obtain ⟨more, moreDropped, readsMore, returnsMore, morePlaces⟩ := secondRecovers
    { steps := recovery.steps ++ added, dropped := recovery.dropped ++ dropped } madeBetween
  refine ⟨added ++ more, dropped ++ moreDropped, ?_, ?_, ?_⟩
  · rw [readFrom_append, reads, readsMore, List.append_assoc, List.append_assoc]
  · rw [kept_append]
    exact returns.append returnsMore
  · rw [List.map_append, places, morePlaces, selectionPlaces_append]

/-- Instructions that return are recovered, if they do not come from the selection of an existing
page. -/
theorem recovers_of_returns {origin : Option Step} {instructions : List Instruction}
    {created : List CreatedContent} (notSelecting : origin.any selectsExisting = false)
    (returns : ∃ added, Returns settings ids recovery.steps instructions created added) :
    Recovers settings ids recovery index (emissionsOf origin instructions) created := by
  obtain ⟨added, returns⟩ := returns
  refine ⟨added, [], ?_, ?_, ?_⟩
  · rw [readFrom_of_foldlM returns.reads, List.append_nil]
  · rw [kept_emissionsOf notSelecting]
    exact returns
  · rw [selectionPlaces_emissionsOf notSelecting]
    rfl

/-- The selection of an existing page is dropped. -/
theorem recovers_select {step : Step} (selecting : selectsExisting step = true)
    (role : Compile.PageRole) (target : CreatedContent) :
    Recovers settings ids recovery index
      (emissionsOf (some step) [(Command.run (role.select target)).instruction]) [] := by
  refine ⟨[], [{ index
                 kind := (Command.run (role.select target)).instruction.kindName
                 reason := .unknownCommand (Command.run (role.select target)).line }], ?_, ?_, ?_⟩
  · have readsNone := readInstruction_select ids recovery.steps role target
    rw [List.append_nil]
    simp only [readFrom, emissionsOf, List.map_cons, List.map_nil, List.zipIdx_cons,
      List.zipIdx_nil, List.foldl_cons, List.foldl_nil, read_eq, readEntry, readsNone, Entry.kindName]
  · rw [kept_emissionsOf_selecting selecting]
    exact .nil
  · simp [selectionPlaces, emissionsOf, isSelection, selecting]

end

end SiteScript.Recovery

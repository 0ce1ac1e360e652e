import SiteScript.Proofs.Php.Roles
import SiteScript.Proofs.Recovery.Items
import SiteScript.Proofs.Recovery.Made
import SiteScript.Proofs.Recovery.RoundTrip

/-!
# Reporting what is lost

No step comes back from the instructions that add roles and from those that select existing pages.
What a program does is told by words in it, though, and the identifier of a role stands in the
program that adds it.  So a role may be called in a way that its program is taken for the one that
attaches an image, of which nothing is recovered and nothing is reported.
-/

namespace SiteScript

open Recovery
open Text (clean)

namespace Recovery

variable {ids : Ids} {entries : List Entry} {entry : Entry} {place : Nat} {reason : Reason}

/-! ## Dropped entries -/

/-- An entry that asks for nothing that can be had is reported. -/
theorem mem_dropped_of_demand (isEntry : entries[place]? = some entry)
    (fails : entry.demand = .error reason) :
    { index := place, kind := entry.kindName, reason } ∈ (ofEntries ids entries).dropped := by
  apply mem_dropped_of_error isEntry
  rw [readEntry_eq, fails]
  rfl

/-- An entry that asks for nothing at all is not dropped. -/
theorem isAcceptedAt_of_demand (isEntry : entries[place]? = some entry)
    (asks : entry.demand = .ok .nothing) :
    isAcceptedAt (ofEntries ids entries).dropped place = true := by
  have reads : readEntry ids (stepsAfter ids entries place) entry =
      .ok (stepsAfter ids entries place) := by
    rw [readEntry_eq, asks]
    rfl
  exact isAcceptedAt_of_read isEntry reads

/-! ## Programs that add roles -/

/-- What a program that adds a role is taken for depends on the identifier of the role. -/
theorem ofCode?_addRole (name : String) (capabilities : List String) :
    Effect.ofCode? (Php.Program.addRole name capabilities).source =
      Effect.ofCode? (Php.slug name) := by
  have notFixed : ∀ part ∈ ["wp_insert_post", "wp_update_nav_menu_item", "set_post_thumbnail"],
      (Php.Program.addRole "" []).woven.chunks.any (Text.occursIn part.toList) = false := by
    decide +kernel
  have inIdentifier : ∀ part ∈ ["wp_insert_post", "wp_update_nav_menu_item", "set_post_thumbnail"],
      '"' ∉ part.toList → '_' ∈ part.toList →
        Text.contains (Php.Program.addRole name capabilities).source part =
          Text.contains (Php.slug name) part := by
    intro part isPart noQuote inPart
    rw [Php.contains_addRole name capabilities noQuote inPart (by decide), notFixed part isPart,
      Bool.false_or]
  simp only [List.forall_mem_cons] at inIdentifier
  obtain ⟨insert, item, image, -⟩ := inIdentifier
  rw [Effect.ofCode?, Effect.ofCode?, insert (by decide) (by decide),
    item (by decide) (by decide), image (by decide) (by decide)]

/-- A program that adds a role is accepted only when it is taken for one that attaches an
image. -/
theorem demand_addRole (name : String) (capabilities : List String) :
    (Effect.ofCode? (Php.slug name) = some .attachImage ∧
        (Command.run (.addRole name capabilities)).instruction.demand = .ok .nothing) ∨
      Effect.ofCode? (Php.slug name) ≠ some .attachImage ∧ ∃ reason,
        (Command.run (.addRole name capabilities)).instruction.demand = .error reason := by
  rw [demand_instruction, Command.request, Request.demand, ofCode?_addRole]
  cases does : Effect.ofCode? (Php.slug name) with
  | none => exact Or.inr ⟨(Option.some_ne_none _).symm, _, rfl⟩
  | some effect =>
      cases effect with
      | insertPost =>
          refine Or.inr ⟨by decide, .noTitle, ?_⟩
          simp only [demandOfContent, Draft.ofCode, Php.fields_addRole]
          rfl
      | addMenuItem =>
          refine Or.inr ⟨by decide, .noMenuLookup, ?_⟩
          simp only [demandOfItem, Php.leftmost?_menuLookup?_addRole]
          rfl
      | attachImage => exact Or.inl ⟨rfl, rfl⟩

/-- The program that selects an existing page asks for nothing that can be had. -/
theorem demand_select (role : Compile.PageRole) (target : CreatedContent) :
    (Command.run (role.select target)).instruction.demand =
      .error (.unknownCommand (Command.run (role.select target)).line) := by
  have noEffect : effect? (role.select target) = none ∧ (role.select target).addsRole = false := by
    cases role <;> exact ⟨rfl, rfl⟩
  rw [demand_instruction, Command.request, Request.demand, ofCode?_source _ noEffect.2, noEffect.1]

end Recovery

/-- Whether a step emits instructions from which no step comes back: it adds a role, or selects an
existing page. -/
def Step.hasNoInverse (step : Step) : Bool :=
  match step.kind with
  | .addRole _ => true
  | _ => selectsExisting step

/-- Whether the program that adds a role is taken for one that attaches an image. -/
def Role.looksLikeImage (role : Role) : Bool :=
  Effect.ofCode? (Php.slug (clean role.name)) == some .attachImage

namespace Compile

variable {settings : Settings} {plan : Plan} {position : Nat} {step : Step}
variable {instruction : Instruction}

theorem exists_select_of_mem {steps : List Step} {role : PageRole}
    {created? : Option CreatedContent} {selection : PageSelection}
    (isExisting : selection.mode = .existing)
    (emitted : instruction ∈ pageSelection steps position role created? selection) :
    ∃ target, instruction = (Command.run (role.select target)).instruction := by
  unfold pageSelection at emitted
  split at emitted
  · rename_i isCreate
    rw [isExisting] at isCreate
    cases isCreate
  · split at emitted
    · cases emitted
    · exact ⟨_, List.mem_singleton.mp emitted⟩

/-- A step without an inverse emits a program that adds a role or selects an existing page. -/
theorem exists_of_hasNoInverse (hasNone : step.hasNoInverse = true)
    (emitted : instruction ∈ block settings plan.steps position step.kind) :
    (∃ role, step.kind = .addRole role ∧ instruction =
        (Command.run (.addRole (clean role.name) (cleanCapabilities role))).instruction) ∨
      (∀ role, step.kind ≠ .addRole role) ∧ ∃ (role : PageRole) (target : CreatedContent),
        instruction = (Command.run (role.select target)).instruction := by
  obtain ⟨id, kind⟩ := step
  cases kind with
  | addRole role =>
      rw [block, addRole] at emitted
      exact Or.inl ⟨role, rfl, List.mem_singleton.mp (List.mem_ite_nil_left.mp emitted).2⟩
  | setHomepage selection =>
      have noRole : ∀ role, StepKind.setHomepage selection ≠ .addRole role := by
        intro role isRole
        cases isRole
      have isExisting : selection.mode = .existing := by
        simpa [Step.hasNoInverse, selectsExisting, selectionOf?] using hasNone
      exact Or.inr ⟨noRole, .homepage, exists_select_of_mem isExisting emitted⟩
  | setPostsPage selection =>
      have noRole : ∀ role, StepKind.setPostsPage selection ≠ .addRole role := by
        intro role isRole
        cases isRole
      have isExisting : selection.mode = .existing := by
        simpa [Step.hasNoInverse, selectsExisting, selectionOf?] using hasNone
      exact Or.inr ⟨noRole, .postsPage, exists_select_of_mem isExisting emitted⟩
  | _ => cases hasNone

end Compile

/-- Every instruction of a step without an inverse is reported at its place in the script. -/
def Plan.ReportsLosses (settings : Settings) (ids : Recovery.Ids) (plan : Plan) : Prop :=
  ∀ position step index instruction, plan.steps[position]? = some step →
    step.hasNoInverse = true →
    (Compile.block settings plan.steps position step.kind)[index]? = some instruction →
    ∃ reason, { index := Compile.place settings plan position + index,
                kind := instruction.kindName, reason } ∈
      ((plan.compile settings).recover ids).dropped

section

variable {settings : Settings} {ids : Recovery.Ids} {plan : Plan}

/-- A role whose program is taken for one that attaches an image is not reported. -/
theorem Plan.ReportsLosses.looksLikeImage_eq_false (reports : plan.ReportsLosses settings ids)
    {position : Nat} {id : String} {role : Role}
    (isStep : plan.steps[position]? = some { id, kind := .addRole role })
    (emits : Compile.addRole role ≠ []) : role.looksLikeImage = false := by
  have isBlock : Compile.block settings plan.steps position (.addRole role) = [(Command.run
      (.addRole (clean role.name) (Compile.cleanCapabilities role))).instruction] := by
    rw [Compile.block, Compile.addRole, if_neg]
    intro isIncomplete
    exact emits (if_pos isIncomplete)
  have isEmitted := congrArg (fun block => block[0]?) isBlock
  obtain ⟨reason, isDropped⟩ := reports position _ 0 _ isStep rfl isEmitted
  rcases demand_addRole (clean role.name) (Compile.cleanCapabilities role) with
    ⟨-, asks⟩ | ⟨differs, -⟩
  · have isAccepted : isAcceptedAt ((plan.compile settings).recover ids).dropped
        (Compile.place settings plan position + 0) = true :=
      isAcceptedAt_of_demand (Compile.getElem?_place isStep isEmitted) asks
    rw [isAcceptedAt, decide_eq_true_iff] at isAccepted
    exact absurd (List.mem_map_of_mem isDropped) isAccepted
  · simpa [Role.looksLikeImage] using differs

/-- Without such roles all losses are reported. -/
theorem Plan.reportsLosses_of_forall
    (noneLooks : ∀ step ∈ plan.steps, ∀ role, step.kind = .addRole role →
      Compile.addRole role ≠ [] → role.looksLikeImage = false) :
    plan.ReportsLosses settings ids := by
  intro position step index instruction isStep hasNone isEmitted
  have isEntry := Compile.getElem?_place isStep isEmitted
  have emitted := List.mem_of_getElem? isEmitted
  have fails : ∃ reason, instruction.demand = .error reason := by
    rcases Compile.exists_of_hasNoInverse hasNone emitted with
      ⟨role, isRole, rfl⟩ | ⟨-, role, target, rfl⟩
    · have emits : Compile.addRole role ≠ [] := by
        rw [isRole] at emitted
        exact List.ne_nil_of_mem emitted
      have notImage := noneLooks step (List.mem_of_getElem? isStep) role isRole emits
      rcases demand_addRole (clean role.name) (Compile.cleanCapabilities role) with
        ⟨isImage, -⟩ | ⟨-, fails⟩
      · rw [Role.looksLikeImage, isImage] at notImage
        cases notImage
      · exact fails
    · exact ⟨_, demand_select role target⟩
  obtain ⟨reason, fails⟩ := fails
  exact ⟨reason, mem_dropped_of_demand isEntry fails⟩

end

/-- All losses are reported exactly for the plans in which no role is added whose identifier makes
its program look like one that attaches an image. -/
theorem Plan.reportsLosses_iff (settings : Settings) (ids : Recovery.Ids) (plan : Plan) :
    plan.ReportsLosses settings ids ↔
      ∀ step ∈ plan.steps, ∀ role, step.kind = .addRole role → Compile.addRole role ≠ [] →
        role.looksLikeImage = false := by
  constructor
  · rintro reports ⟨id, kind⟩ inSteps role rfl emits
    obtain ⟨position, isStep⟩ := List.mem_iff_getElem?.mp inSteps
    exact reports.looksLikeImage_eq_false isStep emits
  · exact Plan.reportsLosses_of_forall

/-- A plan that adds a role whose identifier is the name of a function. -/
def thumbnailPlan : Plan :=
  { title := ""
    landing := .frontPage
    landingUrl := none
    steps := [{ id := "role", kind := .addRole {
      name := "Set Post Thumbnail", capabilities := ["read"] } }] }

theorem not_reportsLosses_thumbnailPlan : ¬ thumbnailPlan.ReportsLosses .default tally := by
  intro reports
  have isStep : thumbnailPlan.steps[0]? = some _ := rfl
  have notImage := reports.looksLikeImage_eq_false isStep (by decide)
  have isImage : Role.looksLikeImage { name := "Set Post Thumbnail", capabilities := ["read"] } =
      true := by
    decide +kernel
  rw [isImage] at notImage
  cases notImage

end SiteScript

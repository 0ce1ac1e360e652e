import SiteScript.Proofs.Recovery.Emissions
import SiteScript.Proofs.Recovery.Identifiers

/-!
# Recovered plans emit the same instructions

A script that was compiled from a plan is recovered as another plan, which in turn compiles to
the same script, apart from two things: the administrator logs in once more, and options are
set one at a time.  Selections of existing pages are lost, as no step is recovered from the
program that selects one.

Not every plan allows this.  Roles cannot be recovered.  A menu item is told by the title of its
page, so no post may have that title, and the page must have been made before the menu.  And
a menu that is made with no item is recovered as a menu that is not complete enough to be made.
-/

namespace SiteScript

open Compile (Emission block emitted emittedFrom emissionsOf menuCommands menuItem)
open Recovery (separate selectsExisting isSelection kept selectionPlaces)
open Text (clean)

/-- A plan whose script tells all of it but the selections of existing pages. -/
structure Plan.Returnable (plan : Plan) : Prop where
  noRoles : ∀ step ∈ plan.steps, ∀ role, step.kind ≠ .addRole role
  /-- No step that adds a post has the clean title of a page that is made. -/
  postsApart : ∀ step ∈ plan.steps, ∀ details, step.kind = .addPost details →
    ∀ other ∈ plan.steps, ∀ page, other.kind.created? = some page → page.type = .page →
      clean details.title ≠ page.title
  /-- Every menu item that leads to content, made by the first step with the identifier that the
  item has, stands behind that step. -/
  pagesFirst : ∀ position step menu, plan.steps[position]? = some step →
    step.kind = .createMenu menu → ∀ item ∈ menu.items, item.kind = .page →
      ∀ id, item.pageId = some id → ∀ index target,
        plan.steps.findIdx? (fun other => other.id == id) = some index →
        plan.steps[index]? = some target → target.kind.creates → index < position
  /-- Every menu that is made gets an item. -/
  menusHaveItems : ∀ step ∈ plan.steps, ∀ menu, step.kind = .createMenu menu →
    .createMenu (clean menu.name) ∈ menuCommands plan.steps menu →
      ∃ item ∈ menu.items, menuItem plan.steps (clean menu.name) item ≠ []

namespace Recovery

/-! ## Pages that are found -/

theorem clean_title_of_mem_made {steps : List Step} {created : CreatedContent}
    (isMade : created ∈ made steps) : clean created.title = created.title := by
  obtain ⟨step, -, creates⟩ := List.mem_filterMap.mp isMade
  exact Compile.clean_title_of_created? creates

/-- Content is found by its title if no other content has that title. -/
theorem isFound_of_mem_made {steps : List Step} {target : CreatedContent}
    (isMade : target ∈ made steps)
    (onlyOne : ∀ other ∈ made steps, other.title = target.title → other = target) :
    IsFound steps target := by
  obtain ⟨step, inSteps, creates⟩ := List.mem_filterMap.mp isMade
  have titled : createsTitled target.title step = true := by
    rw [createsTitled, creates]
    exact beq_self_eq_true target.title
  have isSome : (steps.find? (createsTitled target.title)).isSome := by
    rw [List.find?_isSome]
    exact ⟨step, inSteps, titled⟩
  obtain ⟨page, found⟩ := Option.isSome_iff_exists.mp isSome
  have pageTitled := List.find?_some found
  rw [createsTitled, Option.any_eq_true] at pageTitled
  obtain ⟨other, pageCreates, sameTitle⟩ := pageTitled
  have otherMade : other ∈ made steps :=
    List.mem_filterMap.mpr ⟨page, List.mem_of_find?_eq_some found, pageCreates⟩
  rw [onlyOne other otherMade (beq_iff_eq.mp sameTitle)] at pageCreates
  exact ⟨page, found, pageCreates⟩

section

variable {plan : Plan}

/-- Content of a returnable plan is told by its title. -/
theorem eq_of_title_eq (returnable : plan.Returnable) {first second : CreatedContent}
    (firstMade : first ∈ made plan.steps) (secondMade : second ∈ made plan.steps)
    (sameTitle : first.title = second.title) : first = second := by
  obtain ⟨step, inSteps, creates⟩ := List.mem_filterMap.mp firstMade
  obtain ⟨other, otherInSteps, otherCreates⟩ := List.mem_filterMap.mp secondMade
  rcases Compile.post_or_page_of_created? creates with ⟨details, isPost, rfl⟩ | ⟨title, rfl⟩
  · rcases Compile.post_or_page_of_created? otherCreates with ⟨later, -, rfl⟩ | ⟨title, rfl⟩
    · simpa using sameTitle
    · exact absurd sameTitle (returnable.postsApart step inSteps details isPost other
        otherInSteps _ otherCreates rfl)
  · rcases Compile.post_or_page_of_created? otherCreates with ⟨later, isPost, rfl⟩ | ⟨later, rfl⟩
    · exact absurd sameTitle.symm (returnable.postsApart other otherInSteps later isPost step
        inSteps _ creates rfl)
    · simpa using sameTitle

/-- The content to which a menu item leads is made by a step before the menu. -/
theorem mem_made_take (returnable : plan.Returnable) {position : Nat} {step : Step} {menu : Menu}
    (isStep : plan.steps[position]? = some step) (isMenu : step.kind = .createMenu menu)
    {item : MenuItem} (inMenu : item ∈ menu.items) (isPage : item.kind = .page)
    {target : CreatedContent} (isTarget : Compile.target? plan.steps item.pageId = some target) :
    target ∈ made (plan.steps.take position) := by
  rw [Compile.target?] at isTarget
  obtain ⟨id, hasId, isTarget⟩ := Option.bind_eq_some_iff.mp isTarget
  obtain ⟨page, found, creates⟩ := Option.bind_eq_some_iff.mp isTarget
  obtain ⟨sameId, index, inBounds, isPageStep, isFirst⟩ := List.find?_eq_some_iff_getElem.mp found
  have first : plan.steps.findIdx? (fun other => other.id == id) = some index := by
    rw [List.findIdx?_eq_some_iff_getElem]
    refine ⟨inBounds, by rw [isPageStep]; exact sameId, ?_⟩
    intro earlier isEarlier
    simpa using isFirst earlier isEarlier
  have isPlace : plan.steps[index]? = some page :=
    List.getElem?_eq_some_iff.mpr ⟨inBounds, isPageStep⟩
  have isBefore : index < position :=
    returnable.pagesFirst position step menu isStep isMenu item inMenu isPage id hasId index page
      first isPlace (by rw [StepKind.creates, creates]; rfl)
  apply List.mem_filterMap.mpr
  refine ⟨page, ?_, creates⟩
  rw [List.mem_iff_getElem?]
  exact ⟨index, by rw [List.getElem?_take_of_lt isBefore, isPlace]⟩

/-- The pages of a menu are found among recovered steps that make what the steps before the menu
make. -/
theorem findsPages (returnable : plan.Returnable) {position : Nat} {step : Step} {menu : Menu}
    (isStep : plan.steps[position]? = some step) (isMenu : step.kind = .createMenu menu)
    {steps : List Step} (sameMade : made steps = made (plan.steps.take position))
    {item : MenuItem} (inMenu : item ∈ menu.items) : FindsPages plan.steps steps item := by
  intro isPage target isTarget
  have isMade := mem_made_take returnable isStep isMenu inMenu isPage isTarget
  have inPlan : ∀ created ∈ made (plan.steps.take position), created ∈ made plan.steps :=
    fun created member => ((List.take_sublist position plan.steps).filterMap _).mem member
  rw [← sameMade] at isMade inPlan
  constructor
  · exact clean_title_of_mem_made isMade
  · apply isFound_of_mem_made isMade
    intro other otherMade sameTitle
    exact eq_of_title_eq returnable (inPlan other otherMade) (inPlan target isMade) sameTitle

/-! ## Recovering a plan -/

variable {settings : Settings} {ids : Ids}

/-- The selection of a page is recovered if it makes the page, and else it is dropped. -/
theorem recovers_pageSelection {step : Step} {role : Compile.PageRole} {selection : PageSelection}
    (isSelection : Compile.selectionOf? step.kind = some (role, selection)) (steps : List Step)
    (position : Nat) {recovery : Recovery} {index : Nat} :
    Recovers settings ids recovery index
      (emissionsOf (some step)
        (Compile.pageSelection steps position role step.kind.created? selection))
      step.kind.created?.toList := by
  cases isMode : selection.mode with
  | create =>
      have notExisting : (some step).any selectsExisting = false := by
        simp [selectsExisting, isSelection, isMode]
      rw [Compile.created?_of_selectionOf? isSelection isMode]
      apply recovers_of_returns notExisting
      exact exists_returns_newPage steps position role isMode
  | existing =>
      have isExisting : selectsExisting step = true := by
        simp [selectsExisting, isSelection, isMode]
      have createsNone : step.kind.created? = none := by
        rw [Compile.eq_of_selectionOf? isSelection]
        cases role <;> simp [Compile.PageRole.kind, StepKind.created?, isMode]
      rw [createsNone]
      unfold Compile.pageSelection
      rw [isMode]
      cases Compile.target? steps selection.pageId with
      | none => exact .nil
      | some target => exact recovers_select isExisting role target

/-- The block of a step of a returnable plan is recovered behind steps that make what the steps
before it make. -/
theorem recovers_block (usernameClean : clean settings.adminUsername = settings.adminUsername)
    (passwordClean : clean settings.adminPassword = settings.adminPassword)
    (returnable : plan.Returnable) {position : Nat} {step : Step}
    (isStep : plan.steps[position]? = some step) {recovery : Recovery} {index : Nat}
    (sameMade : made recovery.steps = made (plan.steps.take position)) :
    Recovers settings ids recovery index
      (emissionsOf (some step) (block settings plan.steps position step.kind))
      step.kind.created?.toList := by
  have inPlan : step ∈ plan.steps := List.mem_of_getElem? isStep
  cases isSelection : Compile.selectionOf? step.kind with
  | none =>
      have notExisting : (some step).any selectsExisting = false := by
        rw [Option.any_some, selectsExisting, isSelection, Option.any_none]
      apply recovers_of_returns notExisting
      apply exists_returns_block usernameClean passwordClean position
      · exact returnable.noRoles step inPlan
      · exact isSelection
      · intro menu isMenu item inMenu
        exact findsPages returnable isStep isMenu sameMade inMenu
      · exact returnable.menusHaveItems step inPlan
  | some choice =>
      obtain ⟨role, selection⟩ := choice
      have isBlock : block settings plan.steps position step.kind =
          Compile.pageSelection plan.steps position role step.kind.created? selection := by
        rw [Compile.eq_of_selectionOf? isSelection, Compile.block_kind]
      rw [isBlock]
      exact recovers_pageSelection isSelection plan.steps position

/-- What the steps of a returnable plan emit is recovered, from any step on. -/
theorem recovers_emittedFrom (usernameClean : clean settings.adminUsername = settings.adminUsername)
    (passwordClean : clean settings.adminPassword = settings.adminPassword)
    (returnable : plan.Returnable) {done rest : List Step} (steps_eq : plan.steps = done ++ rest)
    {recovery : Recovery} (sameMade : made recovery.steps = made done) (index : Nat) :
    Recovers settings ids recovery index (emittedFrom settings plan.steps done.length rest)
      (made rest) := by
  induction rest generalizing done recovery index with
  | nil => exact .nil
  | cons step rest inductionHypothesis =>
      have isStep : plan.steps[done.length]? = some step := by
        rw [steps_eq, List.getElem?_append_right (Nat.le_refl _), Nat.sub_self]
        rfl
      have takes : plan.steps.take done.length = done := by
        rw [steps_eq, List.take_left]
      have madeNext : made (step :: rest) = step.kind.created?.toList ++ made rest := by
        rw [← made_singleton, ← made_append, List.singleton_append]
      rw [Compile.emittedFrom_cons, madeNext]
      apply Recovers.append
      · apply recovers_block usernameClean passwordClean returnable isStep
        rw [takes, sameMade]
      · intro between madeBetween
        have nextDone : plan.steps = (done ++ [step]) ++ rest := by
          rw [steps_eq, List.append_assoc, List.singleton_append]
        have madeDone : made between.steps = made (done ++ [step]) := by
          rw [madeBetween, sameMade, made_append, made_singleton]
        have recovers := inductionHypothesis nextDone madeDone
        rw [List.length_append, List.length_singleton] at recovers
        exact recovers _

/-- What scripts begin with is recovered. -/
theorem recovers_preamble (usernameClean : clean settings.adminUsername = settings.adminUsername)
    (passwordClean : clean settings.adminPassword = settings.adminPassword) (title : String) :
    Recovers settings ids start 0 (emissionsOf none (Compile.preamble settings title)) [] := by
  apply recovers_of_returns rfl
  have titleReturns : ∃ added, Returns settings ids []
      (Compile.titleOption settings (clean title)) [] added := by
    rw [Compile.titleOption]
    split
    · exact ⟨[], .nil⟩
    · have titleClean : (Json.str (clean title)).deepClean = .str (clean title) := by
        rw [Json.deepClean, Text.clean_clean]
      exact exists_returns_option (by decide) titleClean (by decide)
  obtain ⟨added, titleReturns⟩ := titleReturns
  have loginReturns : ∃ more, Returns settings ids ([] ++ added)
      (Compile.login settings { username := none, password := none }) [] more :=
    exists_returns_login usernameClean passwordClean _
  obtain ⟨more, loginReturns⟩ := loginReturns
  exact ⟨added ++ more, titleReturns.append loginReturns⟩

/-- What a returnable plan emits is recovered. -/
theorem recovers_emitted (usernameClean : clean settings.adminUsername = settings.adminUsername)
    (passwordClean : clean settings.adminPassword = settings.adminPassword)
    (returnable : plan.Returnable) :
    Recovers settings ids start 0 (emitted settings plan) (made plan.steps) := by
  apply Recovers.append (recovers_preamble usernameClean passwordClean plan.title)
  intro between madeNothing
  have fromStart : plan.steps = [] ++ plan.steps := rfl
  exact recovers_emittedFrom usernameClean passwordClean returnable fromStart madeNothing _

end

theorem ofEntries_eq (ids : Ids) (emissions : List Emission) :
    ofEntries ids (emissions.map fun emission => .known emission.2) =
      readFrom ids 0 start emissions :=
  rfl

end Recovery

/-! ## Compiling again -/

namespace Compile

theorem landingPage_ne_empty {settings : Settings} (adminPath : settings.adminPath ≠ "")
    (landing : Landing) : landingPage settings landing ≠ "" := by
  rw [landingPage]
  split
  · exact adminPath
  · decide
  · rw [orElse]
    split
    · decide
    · rename_i notEmpty
      rwa [String.isEmpty_iff] at notEmpty

/-- A plan none of whose steps makes a landing choice leads where it says itself. -/
theorem landingOf_eq {plan : Plan} (noLanding : ∀ step ∈ plan.steps, landingOf? step = none) :
    landingOf plan = { mode := plan.landing, url := plan.landingUrl } := by
  rw [landingOf, List.findSome?_eq_none_iff.mpr noLanding]
  rfl

theorem landingPage_custom (settings : Settings) {url : String} (notEmpty : url ≠ "") :
    landingPage settings { mode := .custom, url := some url } = url := by
  rw [ne_eq, ← String.isEmpty_iff] at notEmpty
  rw [landingPage, Option.getD_some, orElse, if_neg notEmpty]

/-- A plan without a title logs the administrator in before its steps. -/
theorem entries_compile_untitled (settings : Settings) {plan : Plan} (untitled : plan.title = "") :
    (plan.compile settings).entries =
      (.login settings.adminUsername settings.adminPassword ::
        blocksFrom settings plan.steps 0 plan.steps).map Entry.known := by
  have noTitle : preamble settings plan.title =
      [.login settings.adminUsername settings.adminPassword] := by
    rw [untitled]
    rfl
  rw [Plan.compile, noTitle]
  simp [blocks, blocksFrom, List.flatMap]

end Compile

/-- The script of what is recovered from the script of a plan. -/
def Plan.recompile (settings : Settings) (ids : Recovery.Ids) (plan : Plan) : Document :=
  ((plan.compile settings).recoveredPlan ids).compile settings

/-- The script of a plan is recovered, and compiled again, as far as it can be. -/
structure Plan.RoundTrips (settings : Settings) (ids : Recovery.Ids) (plan : Plan) : Prop where
  /-- The entries of the script, in order, are what the plan emits. -/
  entries_eq : (plan.compile settings).entries =
    (emitted settings plan).map fun emission => .known emission.2
  /-- The entries that are dropped are those that select existing pages. -/
  dropped_eq : ((plan.compile settings).recover ids).dropped.map Recovery.Drop.index =
    selectionPlaces 0 (emitted settings plan)
  landingPage_eq : (plan.recompile settings ids).landingPage = (plan.compile settings).landingPage
  versions_eq : (plan.recompile settings ids).versions = (plan.compile settings).versions
  extensionBundles_eq : (plan.recompile settings ids).extensionBundles =
    (plan.compile settings).extensionBundles
  /-- The entries of the second script are a login of the administrator and those of the first
  that are not dropped, in order, with options set one at a time. -/
  entries_recompile : (plan.recompile settings ids).entries =
    (.login settings.adminUsername settings.adminPassword ::
      (kept (emitted settings plan)).flatMap separate).map Entry.known

/-- Every returnable plan round-trips, provided that the administrator's name and password are
clean, that there is a path where an administrator lands, and that the recovered steps have
different identifiers. -/
theorem Plan.Returnable.roundTrips {plan : Plan} (returnable : plan.Returnable)
    {settings : Settings} (usernameClean : clean settings.adminUsername = settings.adminUsername)
    (passwordClean : clean settings.adminPassword = settings.adminPassword)
    (adminPath : settings.adminPath ≠ "") {ids : Recovery.Ids}
    (nodup : (((plan.compile settings).recover ids).steps.map Step.id).Nodup) :
    plan.RoundTrips settings ids := by
  obtain ⟨added, dropped, reads, returns, places⟩ :
      Recovery.Recovers settings ids Recovery.start 0 (emitted settings plan) _ :=
    Recovery.recovers_emitted usernameClean passwordClean returnable
  have recovered : (plan.compile settings).recover ids = { steps := added, dropped } := by
    rw [Document.recover, Compile.entries_compile, Recovery.ofEntries_eq, reads]
    rfl
  have again : (plan.compile settings).recoveredPlan ids =
      { title := ""
        landing := .custom
        landingUrl := some (plan.compile settings).landingPage
        steps := added } := by
    rw [Document.recoveredPlan, recovered]
  rw [recovered] at nodup
  constructor
  · exact Compile.entries_compile settings plan
  · rw [recovered]
    exact places
  · have leads : Compile.landingOf ((plan.compile settings).recoveredPlan ids) =
        { mode := .custom, url := some (plan.compile settings).landingPage } := by
      rw [again]
      exact Compile.landingOf_eq returns.noLanding
    have notEmpty : (plan.compile settings).landingPage ≠ "" :=
      Compile.landingPage_ne_empty adminPath _
    rw [Plan.recompile, Plan.compile]
    simp only [leads]
    exact Compile.landingPage_custom settings notEmpty
  · rfl
  · rfl
  · rw [Plan.recompile, again]
    have emits := returns.emits added (List.prefix_refl added) nodup 0
    rw [Compile.entries_compile_untitled settings rfl, emits]

/-- A plan with pages, a post that has an image, an existing page that is selected, and a menu that
leads to a page. -/
def tourPlan : Plan :=
  { title := " A  tour"
    landing := .frontPage
    landingUrl := none
    steps := [
      { id := "about", kind := .addPage {
        title := "About us", body := "<!-- wp:paragraph -->", status := "draft", image := none } },
      { id := "news", kind := .addPost {
        title := "News", body := "Don't", status := "", image := some "https://a.example/b.png" } },
      { id := "front", kind := .setHomepage {
        mode := .create, title := "Welcome", body := "", pageId := none } },
      { id := "list", kind := .setPostsPage {
        mode := .existing, title := "", body := "", pageId := some "about" } },
      { id := "menu", kind := .createMenu {
        name := "Main", location := some "primary",
        items := [{ kind := .page, pageId := some "about", title := "", url := "" },
          { kind := .custom, pageId := none, title := "Blog", url := "/blog" }] } }] }

theorem returnable_tourPlan : tourPlan.Returnable := by
  constructor
  · simp [tourPlan]
  · have others : ∀ other ∈ tourPlan.steps, other.kind.created?.all (fun created =>
        created.type == .post || created.title != clean "News") = true := by
      decide +kernel
    intro step inSteps details isPost other otherInSteps page creates isPage
    have titled := others other otherInSteps
    rw [creates, Option.all_some, isPage] at titled
    have onlyPost : details.title = "News" := by
      simp only [tourPlan, List.mem_cons, List.not_mem_nil, or_false] at inSteps
      rcases inSteps with rfl | rfl | rfl | rfl | rfl <;> cases isPost
      rfl
    rw [onlyPost]
    rw [Bool.or_eq_true, bne_iff_ne] at titled
    rcases titled with isPost | different
    · cases isPost
    · exact different.symm
  · have first : tourPlan.steps.findIdx? (fun other => other.id == "about") = some 0 := by
      decide
    intro position step menu isStep isMenu item inMenu isPage id hasId index target isIndex _ _
    rcases position with _ | _ | _ | _ | _ | position
    · cases isStep; cases isMenu
    · cases isStep; cases isMenu
    · cases isStep; cases isMenu
    · cases isStep; cases isMenu
    · cases isStep
      cases isMenu
      rcases List.mem_cons.mp inMenu with rfl | inRest
      · cases hasId
        rw [first] at isIndex
        cases isIndex
        decide
      · rw [List.mem_singleton.mp inRest] at isPage
        cases isPage
    · cases isStep
  · intro step inSteps menu isMenu _
    simp only [tourPlan, List.mem_cons, List.not_mem_nil, or_false] at inSteps
    rcases inSteps with rfl | rfl | rfl | rfl | rfl <;> cases isMenu
    exact ⟨_, List.mem_cons_self, by decide +kernel⟩

/-- Identifiers that grow from place to place. -/
def tally (place : Nat) : String :=
  .ofList (List.replicate place '|')

theorem tally_injective : Function.Injective tally := by
  intro first second same
  have sameLength := congrArg (fun text => text.toList.length) same
  simpa [tally] using sameLength

theorem roundTrips_tourPlan :
    tourPlan.Returnable ∧ clean Settings.default.adminUsername = Settings.default.adminUsername ∧
      clean Settings.default.adminPassword = Settings.default.adminPassword ∧
      Settings.default.adminPath ≠ "" ∧
      (((tourPlan.compile .default).recover tally).steps.map Step.id).Nodup ∧
      tourPlan.RoundTrips .default tally :=
  ⟨returnable_tourPlan, by decide, by decide, by decide,
    Recovery.nodup_ids_recover tally_injective _,
    returnable_tourPlan.roundTrips (by decide) (by decide) (by decide)
      (Recovery.nodup_ids_recover tally_injective _)⟩

end SiteScript

import SiteScript.Proofs.Recovery.Returning

/-!
# Blocks that return

The block of every step returns, apart from those of menus, which refer to other steps, of
selections of existing pages, and of user roles.
-/

namespace SiteScript.Recovery

open Compile (block content createContent featuredImage orElse)
open Text (clean cleanOrEmpty)

section

variable {settings : Settings} {ids : Ids} {steps : List Step}

/-! ## Content -/

theorem created?_draft (draft : Draft) :
    draft.kind.created? = CreatedContent.titled? draft.type draft.content.title := by
  obtain ⟨type, details⟩ := draft
  cases type <;> rfl

theorem landingOf?_draft (id : String) (draft : Draft) :
    Compile.landingOf? { id, kind := draft.kind } = none := by
  obtain ⟨type, details⟩ := draft
  cases type <;> rfl

theorem block_draft (plan : List Step) (position : Nat) (draft : Draft) :
    block settings plan position draft.kind =
      content (CreatedContent.titled? draft.type draft.content.title) draft.content := by
  obtain ⟨type, details⟩ := draft
  cases type <;> rfl

/-- What is recovered from the commands that make content and give it an image, if there is
one. -/
def illustratedDraft (created : CreatedContent) (body status image : String) : Draft :=
  { contentDraft created body status with
    content := { (contentDraft created body status).content with
      image := unlessEmpty image } }

/-- Content that is made from what has been read is made in the same way as before. -/
theorem createContent_illustratedDraft (created : CreatedContent) (body status image : String) :
    createContent created (illustratedDraft created body status image).content.body
      (illustratedDraft created body status image).content.status =
        createContent created body status := by
  rw [Compile.createContent_eq, Compile.createContent_eq, illustratedDraft, contentDraft]
  simp only
  rw [Text.clean_clean, Compile.clean_status, Compile.orElse_orElse]

/-- The commands that make content are read as a single step. -/
theorem foldlM_creation (ids : Ids) (steps : List Step) {created : CreatedContent}
    (titleClean : clean created.title = created.title) (notEmpty : created.title ≠ "")
    (body status image : String) :
    ((createContent created body status :: featuredImage created image).map
      Command.instruction).foldlM (readInstruction ids) steps =
        .ok (push ids steps (illustratedDraft created body status image).kind) := by
  rw [List.map_cons, List.foldlM_cons,
    readInstruction_createContent ids steps titleClean notEmpty body status]
  by_cases noImage : image.isEmpty = true
  · have sameDraft : illustratedDraft created body status image =
        contentDraft created body status := by
      rw [illustratedDraft, unlessEmpty, if_pos noImage, contentDraft]
    rw [featuredImage, if_pos noImage, sameDraft]
    simp only [List.map_nil, List.foldlM_nil, bind, Except.bind, pure, Except.pure]
  · have attached : attachImage (push ids steps (contentDraft created body status).kind) image =
        .ok (push ids steps (withImage (contentDraft created body status) image).kind) :=
      attachImage_push ids steps rfl image
    have sameDraft : illustratedDraft created body status image =
        withImage (contentDraft created body status) image := by
      rw [illustratedDraft, unlessEmpty, if_neg noImage]
      rfl
    rw [featuredImage, if_neg noImage, sameDraft]
    simp only [List.map_cons, List.map_nil, List.foldlM_cons, List.foldlM_nil,
      readInstruction_importMedia, readInstruction_attachImage, attached, bind, Except.bind,
      pure, Except.pure]

/-- The step recovered from the commands that make content emits them again. -/
theorem content_illustratedDraft (created : CreatedContent) (body status : String)
    {image : String} (imageClean : clean image = image) :
    content (some created) (illustratedDraft created body status image).content =
      (createContent created body status :: featuredImage created image).map
        Command.instruction := by
  have sameImage : cleanOrEmpty (illustratedDraft created body status image).content.image =
      image := cleanOrEmpty_unlessEmpty imageClean
  simp only [content, sameImage, createContent_illustratedDraft]

/-- The commands that make content return, with its image if it has one. -/
theorem exists_returns_content {created : CreatedContent}
    (titled : CreatedContent.titled? created.type created.title = some created)
    (details : Content) :
    ∃ added, Returns settings ids steps (content (some created) details) [created] added := by
  have read := foldlM_creation ids steps (Compile.clean_title_of_titled? titled)
    (Compile.title_ne_empty_of_titled? titled) details.body details.status
    (cleanOrEmpty details.image)
  have makes : (illustratedDraft created details.body details.status
      (cleanOrEmpty details.image)).kind.created? = some created := by
    rw [created?_draft]
    exact titled
  apply exists_returns_push _ (congrArg Option.toList makes) (landingOf?_draft · _) read
  intro plan position
  rw [block_draft, ← created?_draft, makes, flatMap_separate_commands,
    content_illustratedDraft created _ _ (Compile.clean_cleanOrEmpty _)]

/-- The block of a page or post returns, also if the step is not complete enough to make
one. -/
theorem exists_returns_titledContent (type : PostType) (details : Content) :
    ∃ added, Returns settings ids steps
      (content (CreatedContent.titled? type details.title) details)
      (CreatedContent.titled? type details.title).toList added := by
  cases titled : CreatedContent.titled? type details.title with
  | none => exact ⟨[], .nil⟩
  | some created => exact exists_returns_content (Compile.titled?_title titled) details

/-! ## Installations -/

/-- The block of an installation returns, whatever is installed. -/
theorem exists_returns_installation {provides : Resource → Bool}
    {install : Resource → Bool → Instruction} {kind : Installation → StepKind}
    (reads : ∀ source activate, readInstruction ids steps (install source activate) =
      .ok (push ids steps (kind { source := some source, activate := some activate })))
    (createsNone : ∀ details, (kind details).created? = none)
    (noLanding : ∀ id details, Compile.landingOf? { id, kind := kind details } = none)
    (block_eq : ∀ plan position details, block settings plan position (kind details) =
      Compile.installation provides install details)
    (separate_eq : ∀ source activate,
      separate (install source activate) = [install source activate])
    (provides_cleaned : ∀ source, provides source.cleaned = provides source)
    (details : Installation) :
    ∃ added, Returns settings ids steps (Compile.installation provides install details) []
      added := by
  rw [Compile.installation]
  cases details.source with
  | none => exact ⟨[], .nil⟩
  | some source =>
      simp only
      split
      · rename_i accepted
        have stillAccepted : (provides source.cleaned && source.cleaned.isConfigured) = true := by
          rw [provides_cleaned, ← accepted]
          cases source <;> simp [Resource.isConfigured, Resource.cleaned, Resource.locator]
        have staysClean : source.cleaned.cleaned = source.cleaned := by
          cases source <;> simp [Resource.cleaned]
        apply exists_returns_push _ (congrArg Option.toList (createsNone _)) (noLanding · _)
        · rw [List.foldlM_cons, reads]
          rfl
        · intro plan position
          rw [block_eq, Compile.installation, List.flatMap_singleton, separate_eq]
          simp only
          rw [if_pos stillAccepted, staysClean, Option.getD_some]
      · exact ⟨[], .nil⟩

theorem exists_returns_installPlugin (details : Installation) :
    ∃ added, Returns settings ids steps
      (Compile.installation Compile.providesPlugins .installPlugin details) [] added := by
  apply exists_returns_installation
  · intro source activate
    rfl
  · intro details
    rfl
  · intro id details
    rfl
  · intro plan position details
    rfl
  · intro source activate
    rfl
  · intro source
    cases source <;> rfl

theorem exists_returns_installTheme (details : Installation) :
    ∃ added, Returns settings ids steps
      (Compile.installation Compile.providesThemes .installTheme details) [] added := by
  apply exists_returns_installation
  · intro source activate
    rfl
  · intro details
    rfl
  · intro id details
    rfl
  · intro plan position details
    rfl
  · intro source activate
    rfl
  · intro source
    cases source <;> rfl

/-! ## Options, constants, logins and archives -/

/-- The options that select a page return. -/
theorem exists_returns_pin (role : Compile.PageRole) (number : Nat) :
    ∃ added, Returns settings ids steps [role.pin number] [] added := by
  rw [Compile.pin_eq]
  apply exists_returns_options
  · cases role <;> exact List.cons_ne_nil _ _
  · exact Compile.cleanMembers_pinned role number
  · cases role <;> simp [Compile.pinned]

/-- The block of a site option returns. -/
theorem exists_returns_siteOption (option : SiteOption) :
    ∃ added, Returns settings ids steps (Compile.siteOption option) [] added := by
  rw [Compile.siteOption]
  split
  · exact ⟨[], .nil⟩
  · rename_i notEmpty
    rw [String.isEmpty_iff] at notEmpty
    exact exists_returns_option (Text.clean_clean option.name)
      (Json.deepClean_deepClean option.value) notEmpty

/-- The block of constants returns. -/
theorem exists_returns_constants (constants : Members Json) :
    ∃ added, Returns settings ids steps (Compile.defineConstants constants) [] added := by
  by_cases isEmpty : (Compile.cleanConstants constants).isEmpty = true
  · rw [Compile.defineConstants, if_pos isEmpty]
    exact ⟨[], .nil⟩
  · rw [Compile.defineConstants, if_neg isEmpty]
    apply exists_returns_push (.defineConstants (Compile.cleanConstants constants)) rfl
    · intro id
      rfl
    · rw [List.foldlM_cons, readInstruction, if_neg isEmpty]
      rfl
    · intro plan position
      rw [block, Compile.defineConstants, Compile.cleanConstants_cleanConstants, if_neg isEmpty]
      rfl

/-- The block of a login returns, with the credentials that have been put in place of missing
ones. -/
theorem exists_returns_login
    (usernameClean : clean settings.adminUsername = settings.adminUsername)
    (passwordClean : clean settings.adminPassword = settings.adminPassword)
    (credentials : Credentials) :
    ∃ added, Returns settings ids steps (Compile.login settings credentials) [] added := by
  have nameClean := Compile.clean_orElse (Compile.clean_cleanOrEmpty credentials.username)
    usernameClean
  have wordClean := Compile.clean_orElse (Compile.clean_cleanOrEmpty credentials.password)
    passwordClean
  apply exists_returns_push (.login {
    username := some (orElse (cleanOrEmpty credentials.username) settings.adminUsername)
    password := some (orElse (cleanOrEmpty credentials.password) settings.adminPassword) }) rfl
  · intro id
    rfl
  · rfl
  · intro plan position
    rw [block, Compile.login]
    simp only [Compile.cleanOrEmpty_some, nameClean, wordClean, Compile.orElse_orElse]
    rfl

/-- The block of an imported archive returns. -/
theorem exists_returns_importContent (url : String) :
    ∃ added, Returns settings ids steps (Compile.importContent url) [] added := by
  rw [Compile.importContent]
  split
  · exact ⟨[], .nil⟩
  · rename_i notEmpty
    apply exists_returns_push (.importContent (clean url)) rfl
    · intro id
      rfl
    · rw [List.foldlM_cons, readInstruction, if_neg notEmpty]
      rfl
    · intro plan position
      rw [block, Compile.importContent, Text.clean_clean, if_neg notEmpty]
      rfl

/-! ## New pages -/

/-- The block of a selection of a new page returns as a page and the options that select
it. -/
theorem exists_returns_newPage (plan : List Step) (position : Nat) (role : Compile.PageRole)
    {selection : PageSelection} (creates : selection.mode = .create) :
    ∃ added, Returns settings ids steps
      (Compile.pageSelection plan position role
        (CreatedContent.titled? .page selection.title) selection)
      (CreatedContent.titled? .page selection.title).toList added := by
  unfold Compile.pageSelection
  rw [creates]
  cases titled : CreatedContent.titled? .page selection.title with
  | none => exact ⟨[], .nil⟩
  | some created =>
      have contentReturns : ∃ added, Returns settings ids steps
          (content (some created)
            { title := "", body := selection.body, status := "publish", image := none })
          [created] added := exists_returns_content (Compile.titled?_title titled) _
      obtain ⟨added, contentReturns⟩ := contentReturns
      have pinReturns : ∃ more, Returns settings ids (steps ++ added)
          [role.pin (Numbering.createdAt position plan)] [] more := exists_returns_pin _ _
      obtain ⟨more, pinReturns⟩ := pinReturns
      exact ⟨added ++ more, contentReturns.append pinReturns⟩

end

end SiteScript.Recovery

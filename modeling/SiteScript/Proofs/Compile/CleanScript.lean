import SiteScript.Proofs.Compile.Emission
import SiteScript.Proofs.Link.Publishing
import SiteScript.Proofs.Shell.Commands

/-!
# Compiled scripts are clean

Every step cleans its texts before it puts them into an instruction, and the words around
them keep them clean.  So cleaning a script once more, as publishing it does, leaves all
of its instructions as they are.
-/

namespace SiteScript

open Text (clean cleanOrEmpty)

/-! ## Clean instructions -/

namespace Instruction

/-- The names of the options or constants that an instruction sets. -/
def settingNames : Instruction → List String
  | .setSiteOptions options => options.names
  | .defineConstants constants => constants.names
  | _ => []

/-- The texts of an instruction: the strings in its written form, and the names it sets. -/
def texts (instruction : Instruction) : List String :=
  instruction.toJson.strings ++ instruction.settingNames

/-- An instruction whose texts are clean. -/
def IsClean (instruction : Instruction) : Prop :=
  ∀ text ∈ instruction.texts, clean text = text

theorem clean_kindName (instruction : Instruction) :
    clean instruction.kindName = instruction.kindName := by
  have ofKind : ∀ kind : Kind, clean kind.name = kind.name := by
    intro kind
    cases kind <;> decide +kernel
  exact ofKind instruction.kind

/-- An instruction is clean if its fields and the names it sets are. -/
theorem isClean_iff {instruction : Instruction} :
    instruction.IsClean ↔
      Json.deepCleanMembers instruction.members = instruction.members ∧
        ∀ name ∈ instruction.settingNames, clean name = name := by
  rw [IsClean, texts, List.forall_mem_append, toJson, ← Json.deepClean_eq_self_iff]
  simp [Json.deepClean, Json.deepCleanMembers, clean_kindName]

/-- Cleaning the written form of a clean instruction changes nothing. -/
theorem IsClean.deepClean_toJson {instruction : Instruction} (isClean : instruction.IsClean) :
    instruction.toJson.deepClean = instruction.toJson :=
  Json.deepClean_eq_self_iff _ |>.mpr fun text member =>
    isClean text (List.mem_append_left _ member)

theorem isClean_login {username password : String} (usernameClean : clean username = username)
    (passwordClean : clean password = password) : (login username password).IsClean := by
  simp [isClean_iff, members, settingNames, Json.deepClean, Json.deepCleanMembers, usernameClean,
    passwordClean]

/-- A command is clean if its texts are. -/
theorem isClean_command {command : Command}
    (textsClean : ∀ text ∈ command.texts, clean text = text) : command.instruction.IsClean := by
  simp [isClean_iff, Command.instruction, members, settingNames, Json.deepClean,
    Json.deepCleanMembers, Command.clean_line textsClean]

theorem isClean_setSiteOptions {options : Members Json} (areClean : Json.CleanMembers options) :
    (setSiteOptions options).IsClean := by
  rw [isClean_iff]
  simp only [members, Json.deepCleanMembers, Json.deepClean, areClean.deepCleanMembers_eq,
    true_and]
  exact areClean.clean_names

theorem isClean_defineConstants {constants : Members Json}
    (areClean : Json.CleanMembers constants) : (defineConstants constants).IsClean := by
  rw [isClean_iff]
  simp only [members, Json.deepCleanMembers, Json.deepClean, areClean.deepCleanMembers_eq,
    true_and]
  exact areClean.clean_names

end Instruction

/-- The written form of a clean resource is clean. -/
theorem Resource.deepClean_toJson_cleaned (resource : Resource) :
    resource.cleaned.toJson.deepClean = resource.cleaned.toJson := by
  have cleanKind : ∀ kind : Resource.Kind, clean kind.name = kind.name := by
    intro kind
    cases kind <;> decide +kernel
  cases resource <;>
    simp [Resource.toJson, Resource.cleaned, Resource.locator, Json.deepClean,
      Json.deepCleanMembers, cleanKind]

/-! ## Clean blocks -/

namespace Compile

theorem isClean_createContent {created : CreatedContent}
    (titleClean : clean created.title = created.title) (body status : String) :
    (createContent created body status).instruction.IsClean := by
  apply Instruction.isClean_command
  rw [createContent_eq]
  split
  · simp [Command.texts]
  · simp [Command.texts, clean_status, titleClean]

theorem isClean_pin (role : PageRole) (number : Nat) : (role.pin number).IsClean := by
  rw [pin_eq]
  exact Instruction.isClean_setSiteOptions (cleanMembers_pinned role number)

/-- What any step adds to a script is clean. -/
theorem isClean_of_emits {settings : Settings}
    (usernameClean : clean settings.adminUsername = settings.adminUsername)
    (passwordClean : clean settings.adminPassword = settings.adminPassword) {steps : List Step}
    {position : Nat} {kind : StepKind} {instruction : Instruction}
    (emits : Emits settings steps position kind instruction) : instruction.IsClean := by
  cases emits with
  | createContent isContent titled =>
      exact isClean_createContent (clean_title_of_titled? titled) _ _
  | createPage isSelection creates titled =>
      exact isClean_createContent (clean_title_of_titled? titled) _ _
  | pin isSelection => exact isClean_pin _ _
  | installPlugin details source activate =>
      simp [Instruction.isClean_iff, Instruction.members, Instruction.settingNames,
        Instruction.installOptions, Json.deepClean, Json.deepCleanMembers,
        Resource.deepClean_toJson_cleaned]
  | installTheme details source activate =>
      simp [Instruction.isClean_iff, Instruction.members, Instruction.settingNames,
        Instruction.installOptions, Json.deepClean, Json.deepCleanMembers,
        Resource.deepClean_toJson_cleaned]
  | setSiteOption option =>
      refine Instruction.isClean_setSiteOptions (Json.CleanMembers.ofPairs ?_)
      simp [Json.CleanMembers]
  | defineConstants constants =>
      exact Instruction.isClean_defineConstants (cleanMembers_cleanConstants constants)
  | login credentials =>
      exact Instruction.isClean_login (clean_orElse (clean_cleanOrEmpty _) usernameClean)
        (clean_orElse (clean_cleanOrEmpty _) passwordClean)
  | importContent url =>
      have addressClean := Resource.deepClean_toJson_cleaned (.address url)
      simpa [Instruction.isClean_iff, Instruction.members, Instruction.settingNames,
        Json.deepClean, Json.deepCleanMembers, Resource.cleaned] using addressClean
  | _ => exact Instruction.isClean_command (by simp [Command.texts])

theorem isClean_of_mem_preamble {settings : Settings}
    (usernameClean : clean settings.adminUsername = settings.adminUsername)
    (passwordClean : clean settings.adminPassword = settings.adminPassword) {title : String}
    {instruction : Instruction} (member : instruction ∈ preamble settings title) :
    instruction.IsClean := by
  rw [preamble] at member
  rcases List.mem_append.mp member with inTitle | isLogin
  · rw [titleOption] at inTitle
    split at inTitle
    · cases inTitle
    · rw [List.mem_singleton.mp inTitle]
      have nameClean : clean "blogname" = "blogname" := by decide
      refine Instruction.isClean_setSiteOptions (Json.CleanMembers.ofPairs ?_)
      simp [Json.CleanMembers, Json.deepClean, nameClean]
  · rw [List.mem_singleton.mp isLogin]
    exact Instruction.isClean_login usernameClean passwordClean

/-- Everything in the script of a plan is clean. -/
theorem isClean_of_mem_entries {settings : Settings}
    (usernameClean : clean settings.adminUsername = settings.adminUsername)
    (passwordClean : clean settings.adminPassword = settings.adminPassword) {plan : Plan}
    {instruction : Instruction}
    (member : .known instruction ∈ (plan.compile settings).entries) : instruction.IsClean := by
  rcases known_mem_entries.mp member with inPreamble | ⟨position, step, -, inBlock⟩
  · exact isClean_of_mem_preamble usernameClean passwordClean inPreamble
  · exact isClean_of_emits usernameClean passwordClean (emits_of_mem_block inBlock)

end Compile

/-! ## Publishing -/

namespace Document

/-- The document with a clean landing page, clean versions and clean bundle names; its entries
stay as they are. -/
def cleanEnvelope (document : Document) : Document :=
  { document with
    landingPage := clean document.landingPage
    versions := { php := clean document.versions.php, wp := clean document.versions.wp }
    extensionBundles := document.extensionBundles.map clean }

/-- Publishing a document changes nothing in its entries. -/
structure PublishedUnchanged (document : Document) : Prop where
  /-- Every entry is an instruction all texts of which are clean and free of control
  characters. -/
  textsClean : ∀ entry ∈ document.entries, ∃ instruction, entry = .known instruction ∧
    ∀ text ∈ instruction.texts, clean text = text ∧ ∀ c ∈ text.toList, ¬ Text.isControl c
  /-- Cleaning the list of steps as it is written changes nothing. -/
  steps_deepClean : (Json.arr (document.entries.map Entry.toJson)).deepClean =
    .arr (document.entries.map Entry.toJson)
  /-- Cleaning the whole document changes nothing but what is around the steps. -/
  deepClean_toJson : document.toJson.deepClean = document.cleanEnvelope.toJson
  /-- What is published is the compact text of the document with the same entries, in which
  control characters, which only names inside option values may hold, are escaped. -/
  published : ∀ text, Link.publish document.toJson = .ok text →
    text.toList = document.cleanEnvelope.toJson.compactChars.flatMap Link.escapeControl

/-- A document of clean instructions is published unchanged. -/
theorem publishedUnchanged_of_isClean {document : Document}
    (areClean : ∀ entry ∈ document.entries, ∃ instruction, entry = .known instruction ∧
      instruction.IsClean) : document.PublishedUnchanged := by
  have entriesClean : ∀ value ∈ document.entries.map Entry.toJson, value.deepClean = value := by
    intro value isValue
    obtain ⟨entry, isEntry, rfl⟩ := List.mem_map.mp isValue
    obtain ⟨instruction, rfl, isClean⟩ := areClean entry isEntry
    exact isClean.deepClean_toJson
  have deepClean_toJson : document.toJson.deepClean = document.cleanEnvelope.toJson := by
    simp [toJson, cleanEnvelope, Versions.toJson, Json.texts, Json.deepClean,
      Json.deepCleanMembers, Json.deepCleanItems_eq_self entriesClean,
      Json.deepCleanItems_eq_map, Function.comp_def]
  constructor
  · intro entry isEntry
    obtain ⟨instruction, known, isClean⟩ := areClean entry isEntry
    refine ⟨instruction, known, fun text isText => ?_⟩
    have textClean := isClean text isText
    exact ⟨textClean, fun c => Text.not_isControl_of_clean (Text.clean_eq_self_iff.mp textClean)⟩
  · rw [Json.deepClean, Json.deepCleanItems_eq_self entriesClean]
  · exact deepClean_toJson
  · intro text published
    rw [Link.toList_of_publish published, deepClean_toJson]

end Document

/-- The shared link of a plan and its exported file carry the same instructions, provided that
the administrator's name and password are clean. -/
theorem publishedUnchanged_compile {settings : Settings}
    (usernameClean : clean settings.adminUsername = settings.adminUsername)
    (passwordClean : clean settings.adminPassword = settings.adminPassword) (plan : Plan) :
    (plan.compile settings).PublishedUnchanged := by
  apply Document.publishedUnchanged_of_isClean
  intro entry isEntry
  obtain ⟨instruction, rfl⟩ := Compile.exists_known_of_mem_entries isEntry
  exact ⟨instruction, rfl, Compile.isClean_of_mem_entries usernameClean passwordClean isEntry⟩

/-- A plan whose page has blanks and a control character in its title and body. -/
def untidyPlan : Plan :=
  { title := " My\tsite "
    landing := .admin
    landingUrl := none
    steps := [{ id := "about", kind := .addPage {
      title := "About \x7f us ", body := "'Hello'\n", status := "", image := none } }] }

theorem publishedUnchanged_compile_untidyPlan :
    clean Settings.default.adminUsername = Settings.default.adminUsername ∧
      clean Settings.default.adminPassword = Settings.default.adminPassword ∧
      (untidyPlan.compile .default).PublishedUnchanged :=
  ⟨by decide, by decide, publishedUnchanged_compile (by decide) (by decide) untidyPlan⟩

end SiteScript

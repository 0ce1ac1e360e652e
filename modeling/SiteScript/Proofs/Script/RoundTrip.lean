import SiteScript.Proofs.Compile.Emission
import SiteScript.Proofs.Json.RoundTrip
import SiteScript.Proofs.Plan.Saving

/-!
# Scripts are read back

A script, whether it has been compiled from a plan or read from a text, is read from its
compact and from its indented text as the same script.  Its instructions come back as the
instructions they are, and none of its other entries becomes one.
-/

namespace SiteScript

open Record

/-! ## Compiled scripts -/

namespace Compile

/-- What a step emits names each member once if the details of the step do. -/
theorem isDistinct_of_emits {settings : Settings} {steps : List Step} {position : Nat}
    {kind : StepKind} {instruction : Instruction} (distinct : kind.data.isDistinct)
    (emits : Emits settings steps position kind instruction) : instruction.toJson.isDistinct := by
  rw [StepKind.isDistinct_data_iff] at distinct
  rw [Instruction.isDistinct_toJson_iff]
  cases emits with
  | pin isSelection =>
      rename_i role selection
      rw [pin_eq]
      cases role <;> exact List.forall_mem_singleton.mpr rfl
  | setSiteOption option =>
      have valueDistinct : option.value.isDistinct := distinct option.value List.mem_cons_self
      refine List.forall_mem_singleton.mpr (Json.isDistinct_obj_ofPairs ?_)
      exact List.forall_mem_singleton.mpr (Json.isDistinct_deepClean valueDistinct)
  | defineConstants constants =>
      have constantsDistinct := distinct (.obj constants) List.mem_cons_self
      rw [Json.isDistinct_obj] at constantsDistinct
      refine List.forall_mem_singleton.mpr (Json.isDistinct_obj_ofPairs fun pair isPair => ?_)
      obtain ⟨constant, isConstant, rfl⟩ := List.mem_map.mp (List.mem_filter.mp isPair).1
      exact Json.isDistinct_deepClean (constantsDistinct.2 constant isConstant)
  | createContent isContent titled =>
      rw [createContent_eq]
      split <;> exact nofun
  | createPage isSelection creates titled =>
      rw [createContent_eq]
      split <;> exact nofun
  | _ => exact nofun

theorem isDistinct_of_mem_preamble {settings : Settings} {title : String}
    {instruction : Instruction} (member : instruction ∈ preamble settings title) :
    instruction.toJson.isDistinct := by
  rw [Instruction.isDistinct_toJson_iff]
  rcases List.mem_append.mp member with inTitle | isLogin
  · rw [titleOption] at inTitle
    split at inTitle
    · cases inTitle
    · rw [List.mem_singleton.mp inTitle]
      exact List.forall_mem_singleton.mpr (Json.isDistinct_obj_ofPairs (by simp))
  · rw [List.mem_singleton.mp isLogin]
    exact nofun

/-- The script of a plan names each member once if the plan does. -/
theorem isDistinct_toJson_compile (settings : Settings) {plan : Plan}
    (distinct : plan.toJson.isDistinct) : (plan.compile settings).toJson.isDistinct := by
  rw [Plan.isDistinct_toJson_iff] at distinct
  rw [Document.isDistinct_toJson_iff]
  intro entry isEntry
  obtain ⟨instruction, rfl⟩ := exists_known_of_mem_entries isEntry
  rcases known_mem_entries.mp isEntry with inPreamble | ⟨position, step, isStep, inBlock⟩
  · exact isDistinct_of_mem_preamble inPreamble
  · exact isDistinct_of_emits (distinct step (List.mem_of_getElem? isStep))
      (emits_of_mem_block inBlock)

theorem entries_compile_ne_nil (settings : Settings) (plan : Plan) :
    (plan.compile settings).entries ≠ [] := by
  simp [entries_compile, emitted, emissionsOf, preamble]

end Compile

/-! ## Tags -/

namespace Instruction

/-- What stands for a kind of instructions: its name, for options also their second name, and its
place among the kinds. -/
inductive Kind.IsTag : Kind → Json → Prop
  | name (kind : Kind) : kind.IsTag (.str kind.name)
  | otherName : IsTag .setSiteOptions (.str "setOptions")
  | place {kind : Kind} {place : Nat} (isPlace : Kind.all[place]? = some kind) :
    kind.IsTag (.nat place)

theorem Kind.isTag_of_mem_names {name : String} {kind : Kind} (isName : (name, kind) ∈ Kind.names) :
    kind.IsTag (.str name) := by
  rcases List.mem_append.mp isName with ofKind | isOther
  · obtain ⟨_, -, equal⟩ := List.mem_map.mp ofKind
    cases equal
    exact .name kind
  · cases List.mem_singleton.mp isOther
    exact .otherName

/-- Exactly the tags of a kind choose it. -/
theorem tagChoice?_eq_some_iff {tag : Json} {kind : Kind} :
    tagChoice? .namedOrNumbered Kind.names Kind.all tag = some kind ↔ kind.IsTag tag := by
  constructor
  · intro chosen
    unfold tagChoice? at chosen
    split at chosen
    · exact Kind.isTag_of_mem_names (Members.mem_of_get? chosen)
    · rename_i place
      simp only at chosen
      split at chosen
      · rename_i natural
        rw [← Int.toNat_of_nonneg natural]
        exact .place chosen
      · cases chosen
    · cases chosen
  · intro isTag
    cases isTag with
    | name => cases kind <;> rfl
    | otherName => rfl
    | place isPlace => simpa [tagChoice?, Json.nat] using isPlace

/-- Exactly the values with a tag and the fields of its kind are read as instructions. -/
theorem ofJson?_eq_some_iff {value : Json} {instruction : Instruction} :
    ofJson? .namedOrNumbered value = some instruction ↔
      ∃ tag rest kind, splitTag? "step" value = some (tag, rest) ∧ kind.IsTag tag ∧
        ofFields? kind rest = some instruction := by
  simp only [ofJson?, Option.bind_eq_bind, Option.bind_eq_some_iff, tagChoice?_eq_some_iff,
    Prod.exists, exists_and_left]

/-- The field for the source of an installation, for the kinds that install something, and the
instruction that installs it. -/
def Kind.installs? : Kind → Option (String × (Resource → Bool → Instruction))
  | .installPlugin => some ("pluginZipFile", .installPlugin)
  | .installTheme => some ("themeZipFile", .installTheme)
  | _ => none

/-- What is installed without options is activated. -/
theorem ofFields?_of_no_options {kind : Kind} {sourceName : String}
    {install : Resource → Bool → Instruction} (installs : kind.installs? = some (sourceName, install))
    {rest : Json} {fields : Fields} (areFields : fields? [sourceName, "options"] rest = some fields)
    {source : Resource}
    (isSource : fields.required sourceName (Resource.ofJson? .namedOrNumbered) = some source)
    (noOptions : fields.lookup "options" = none) :
    ofFields? kind rest = some (install source true) := by
  cases kind <;> cases installs <;>
    simp [ofFields?, areFields, isSource, Fields.withDefault, noOptions]

end Instruction

/-- The tag of a resource may be given by its place, too. -/
theorem Resource.ofJson?_numbered {place : Nat} {kind : Kind} (isPlace : Kind.all[place]? = some kind)
    (members : List (String × Json)) :
    ofJson? .namedOrNumbered (.obj (("resource", .nat place) :: members)) =
      ofJson? .namedOrNumbered (.obj (("resource", .str kind.name) :: members)) := by
  have byName : tagChoice? .namedOrNumbered (Kind.all.map fun kind => (kind.name, kind)) Kind.all
      (.str kind.name) = some kind := by
    cases kind <;> rfl
  have byPlace : tagChoice? .namedOrNumbered (Kind.all.map fun kind => (kind.name, kind)) Kind.all
      (.nat place) = some kind := by
    simpa [tagChoice?, Json.nat] using isPlace
  simp [ofJson?, splitTag?, byName, byPlace]

/-! ## Reading again -/

namespace Document

/-- The documents there are to write: the scripts of plans, and the documents that have been read.
The values in a plan name each member once, as those of a plan that has been read do. -/
inductive IsProduced : Document → Prop
  | compiled (settings : Settings) (plan : Plan) (distinct : plan.toJson.isDistinct) :
    IsProduced (plan.compile settings)
  | parsed {text : String} {document : Document} (isRead : parse text = .ok document) :
    IsProduced document

/-- Such a document has entries, each of which is stable, and names each member once. -/
theorem IsProduced.isStable {document : Document} (produced : document.IsProduced) :
    document.entries ≠ [] ∧ (∀ entry ∈ document.entries, entry.IsStable) ∧
      document.toJson.isDistinct := by
  cases produced with
  | compiled settings plan distinct =>
      refine ⟨Compile.entries_compile_ne_nil settings plan, fun entry isEntry => ?_,
        Compile.isDistinct_toJson_compile settings distinct⟩
      obtain ⟨instruction, rfl⟩ := Compile.exists_known_of_mem_entries isEntry
      exact Entry.isStable_known instruction
  | parsed isRead => exact of_parse_eq_ok isRead

/-- What becomes of a document that is written and read again. -/
structure Survives (document : Document) : Prop where
  /-- The compact text of the document is read as the document. -/
  compact : parse document.toJson.compact = .ok document
  /-- Its indented text is read as the document. -/
  indented : parse document.toJson.indented = .ok document
  /-- An instruction is read as the same instruction. -/
  known : ∀ instruction, .known instruction ∈ document.entries →
    Entry.ofJson instruction.toJson = .known instruction
  /-- An entry that is no known instruction is read as the same value and not as an instruction. -/
  foreign : ∀ value, .foreign value ∈ document.entries →
    Entry.ofJson value = .foreign value ∧ Instruction.ofJson? .namedOrNumbered value = none
  /-- An entry is read as an instruction exactly if it has a tag, by the name of a kind, the second
  name for options or the place of a kind, and the fields of that kind. -/
  tagged : ∀ value instruction, Entry.ofJson value = .known instruction ↔
    ∃ tag rest kind, splitTag? "step" value = some (tag, rest) ∧ kind.IsTag tag ∧
      Instruction.ofFields? kind rest = some instruction
  /-- A resource may have the place of its kind as its tag. -/
  resources : ∀ place kind, Resource.Kind.all[place]? = some kind → ∀ members,
    Resource.ofJson? .namedOrNumbered (.obj (("resource", .nat place) :: members)) =
      Resource.ofJson? .namedOrNumbered (.obj (("resource", .str kind.name) :: members))
  /-- What is installed without options is activated. -/
  activated : ∀ (kind : Instruction.Kind) sourceName install rest fields source,
    kind.installs? = some (sourceName, install) →
    fields? [sourceName, "options"] rest = some fields →
    fields.required sourceName (Resource.ofJson? .namedOrNumbered) = some source →
    fields.lookup "options" = none → Instruction.ofFields? kind rest = some (install source true)

/-- A document whose numbers are kept exactly and that is not nested too deeply survives being
written and read. -/
theorem survives {document : Document} (produced : document.IsProduced)
    (integers : ∀ number ∈ document.toJson.numbers, number.isKeptInteger)
    (shallow : document.toJson.depth ≤ Json.depthLimit) : document.Survives := by
  obtain ⟨notEmpty, stable, distinct⟩ := produced.isStable
  have exact : document.toJson.IsExact := { integers, shallow, distinct }
  constructor
  · exact parse_eq_ok notEmpty stable exact.parse?_compact
  · exact parse_eq_ok notEmpty stable exact.parse?_indented
  · exact fun instruction _ => Entry.isStable_known instruction
  · exact fun value isEntry => ⟨stable _ isEntry, (stable _ isEntry).ofJson?_eq_none⟩
  · exact fun value instruction =>
      Entry.ofJson_eq_known_iff.trans Instruction.ofJson?_eq_some_iff
  · exact fun place kind isPlace => Resource.ofJson?_numbered isPlace
  · intro kind sourceName install rest fields source installs areFields isSource noOptions
    exact Instruction.ofFields?_of_no_options installs areFields isSource noOptions

/-- A text with options under their second name, an installation told by places, and an entry of a
kind that is not known. -/
def foreignText : String :=
  Json.compact <| .obj [("steps", .arr [
    .obj [("step", .str "setOptions"), ("options", .obj [("blogname", .str "Site")])],
    .arr [.nat 2, .arr [.nat 0, .str "seo"]],
    .obj [("step", .str "sendMail"), ("to", .arr [.nat 1])]])]

/-- The document that is read from it. -/
def foreignDocument : Document :=
  { empty with
    entries := [.known (.setSiteOptions [("blogname", .str "Site")]),
      .known (.installPlugin (.pluginRegistry "seo") true),
      .foreign (.obj [("step", .str "sendMail"), ("to", .arr [.nat 1])])] }

theorem survives_foreignDocument :
    foreignDocument.IsProduced ∧
      (∀ number ∈ foreignDocument.toJson.numbers, number.isKeptInteger) ∧
      foreignDocument.toJson.depth ≤ Json.depthLimit ∧ foreignDocument.Survives ∧
      (Plan.mixedPlan.compile .default).Survives := by
  have isRead : parse foreignText = .ok foreignDocument := by decide +kernel
  have produced : foreignDocument.IsProduced := .parsed isRead
  refine ⟨produced, by decide, by decide, survives produced (by decide) (by decide), ?_⟩
  exact survives (.compiled .default Plan.mixedPlan (by decide)) (by decide +kernel)
    (by decide +kernel)

end Document

end SiteScript

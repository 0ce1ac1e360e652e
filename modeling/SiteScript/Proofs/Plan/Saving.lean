import SiteScript.Compile
import SiteScript.Plan.Basic
import SiteScript.Proofs.Plan.Details

/-!
# Saved plans are read back

A plan that has been read can be saved and read again without loss.  A step whose details
do not fit its kind is saved as it was read, so it stays such a step, and a step of a known
kind is saved with what its details mean.
-/

namespace SiteScript

open Record

/-! ## Written steps -/

/-- A step as it is written, before its kind and its details are understood. -/
structure Step.Raw where
  id : String
  kind : String
  data : Json
  deriving Repr, DecidableEq

namespace Step.Raw

/-- Reads a written step; missing details are `null`. -/
def ofJson? (value : Json) : Option Raw := do
  let fields ← fields? ["id", "type", "data"] value
  let id ← fields.required "id" text?
  let kind ← fields.required "type" text?
  let data ← fields.withDefault "data" .null some
  return { id, kind, data }

/-- The details that are kept. -/
def details (raw : Raw) : Json :=
  dataOrEmpty raw.data.merged

/-- What a written step is understood as. -/
def step (raw : Raw) : Step :=
  { id := raw.id, kind := .ofData raw.kind raw.details }

end Step.Raw

/-- Reading a step understands it as it is written. -/
theorem Step.ofJson?_eq (value : Json) : ofJson? value = (Raw.ofJson? value).map Raw.step := by
  simp only [ofJson?, Raw.ofJson?]
  cases fields? ["id", "type", "data"] value with
  | none => rfl
  | some fields =>
      simp only [Option.bind_eq_bind, Option.bind_some]
      cases fields.required "id" text? with
      | none => rfl
      | some id =>
          cases fields.required "type" text? with
          | none => rfl
          | some kind =>
              cases fields.withDefault "data" .null some <;> rfl

/-- The details of a written step name each member once if the step does. -/
theorem Step.Raw.isDistinct_data {value : Json} {raw : Raw} (distinct : value.isDistinct)
    (isRead : ofJson? value = some raw) : raw.data.isDistinct := by
  rw [ofJson?] at isRead
  obtain ⟨fields, areFields, isRead⟩ := Option.bind_eq_some_iff.mp isRead
  obtain ⟨id, -, isRead⟩ := Option.bind_eq_some_iff.mp isRead
  obtain ⟨kind, -, isRead⟩ := Option.bind_eq_some_iff.mp isRead
  obtain ⟨data, isData, isRead⟩ := Option.bind_eq_some_iff.mp isRead
  obtain rfl := Option.some.inj isRead
  exact Fields.isDistinct_of_withDefault (isDistinct_of_fields? distinct areFields) isData

/-- The steps of a plan as they are written. -/
def Plan.rawSteps? (value : Json) : Option (List Step.Raw) := do
  let fields ← fields? ["blueprintTitle", "landingPageType", "customLandingUrl", "steps"] value
  fields.withDefault "steps" [] (list? Step.Raw.ofJson?)

/-! ## Details that are kept -/

/-- Details of a known kind are there. -/
theorem StepKind.data_ne_null {kind : StepKind} (known : kind.isUnknown = false) :
    kind.data ≠ .null := by
  cases kind with
  | unknown name data => cases known
  | _ => nofun

namespace Step

theorem dataOrEmpty_ne_null (data : Json) : dataOrEmpty data ≠ .null := by
  cases data <;> nofun

theorem dataOrEmpty_eq_self {data : Json} (isThere : data ≠ .null) : dataOrEmpty data = data := by
  cases data with
  | null => exact absurd rfl isThere
  | _ => rfl

namespace Raw

theorem isDistinct_details (raw : Raw) : raw.details.isDistinct := by
  have distinct := Json.isDistinct_merged raw.data
  rw [details]
  cases merged : raw.data.merged with
  | null => rfl
  | _ => rwa [merged] at distinct

/-- Details that name each member once are kept as they are, unless there are none. -/
theorem details_eq {raw : Raw} (distinct : raw.data.isDistinct) :
    raw.details = if raw.data = .null then .obj [] else raw.data := by
  rw [details, Json.merged_eq_self distinct]
  split
  · rename_i isNull
    rw [isNull]
    rfl
  · rename_i isThere
    exact dataOrEmpty_eq_self isThere

/-- A step keeps its details if they do not fit its kind, and is of that kind if they do. -/
theorem unfit_or_fit (raw : Raw) :
    StepKind.ofData? raw.kind raw.details = none ∧
        raw.step.kind = .unknown raw.kind raw.details ∨
      StepKind.ofData? raw.kind raw.details = some raw.step.kind := by
  rw [step, StepKind.ofData]
  cases StepKind.ofData? raw.kind raw.details with
  | none => exact Or.inl ⟨rfl, rfl⟩
  | some kind => exact Or.inr rfl

theorem isDistinct_data_step (raw : Raw) : raw.step.kind.data.isDistinct := by
  rcases raw.unfit_or_fit with ⟨-, keeps⟩ | fits
  · rw [keeps]
    exact raw.isDistinct_details
  · exact StepKind.isDistinct_data raw.isDistinct_details fits

theorem data_step_ne_null (raw : Raw) : raw.step.kind.data ≠ .null := by
  rcases raw.unfit_or_fit with ⟨-, keeps⟩ | fits
  · rw [keeps]
    exact dataOrEmpty_ne_null _
  · exact StepKind.data_ne_null (StepKind.of_ofData?_eq_some fits).1

/-- A step is understood in the same way when it has been saved. -/
theorem ofData_step (raw : Raw) :
    StepKind.ofData raw.step.kind.name raw.step.kind.data = raw.step.kind := by
  rcases raw.unfit_or_fit with ⟨unfit, keeps⟩ | fits
  · rw [keeps, StepKind.ofData, StepKind.name, StepKind.data, unfit, Option.getD_none]
  · rw [StepKind.ofData, StepKind.ofData?_data (StepKind.of_ofData?_eq_some fits).1,
      Option.getD_some]

/-- What is read from a saved step. -/
theorem ofJson?_toJson (step : Step) :
    ofJson? step.toJson = some { id := step.id, kind := step.kind.name, data := step.kind.data } :=
  rfl

/-- A step that has been saved is read again. -/
theorem ofJson?_toJson_step (raw : Raw) : Step.ofJson? raw.step.toJson = some raw.step := by
  have detailsKept : dataOrEmpty raw.step.kind.data.merged = raw.step.kind.data := by
    rw [Json.merged_eq_self raw.isDistinct_data_step, dataOrEmpty_eq_self raw.data_step_ne_null]
  rw [Step.ofJson?_eq, ofJson?_toJson, Option.map_some, step, details, detailsKept, ofData_step]

/-- What becomes of a written step when it is read, saved and read again. -/
structure IsKept (raw : Raw) : Prop where
  /-- The saved step is read as the same step. -/
  reloaded : Step.ofJson? raw.step.toJson = some raw.step
  /-- A step whose kind is not known, or whose details do not fit its kind, is saved with its
  identifier, its kind and its details. -/
  unfit : ((∀ kind : StepKind, kind.isUnknown = false → kind.name ≠ raw.kind) ∨
      StepKind.ofData? raw.kind raw.details = none) →
    raw.step = { id := raw.id, kind := .unknown raw.kind raw.details } ∧
      raw.step.toJson =
        .obj [("id", .str raw.id), ("type", .str raw.kind), ("data", raw.details)]
  /-- These are the details as they are written, or an empty object if they are missing or
  `null`, provided that no member in them is named twice. -/
  verbatim : raw.data.isDistinct → raw.details = if raw.data = .null then .obj [] else raw.data
  /-- A step whose details fit its kind is of that kind. -/
  fit : ∀ kind, StepKind.ofData? raw.kind raw.details = some kind →
    raw.step = { id := raw.id, kind } ∧ kind.isUnknown = false ∧ kind.name = raw.kind

theorem isKept (raw : Raw) : raw.IsKept where
  reloaded := raw.ofJson?_toJson_step
  unfit := by
    intro unfit
    have isUnfit : StepKind.ofData? raw.kind raw.details = none := by
      rcases unfit with noSuchKind | isUnfit
      · rw [Option.eq_none_iff_forall_ne_some]
        intro kind fits
        obtain ⟨known, sameName⟩ := StepKind.of_ofData?_eq_some fits
        exact noSuchKind kind known sameName
      · exact isUnfit
    have stepEq : raw.step = { id := raw.id, kind := .unknown raw.kind raw.details } := by
      rw [step, StepKind.ofData, isUnfit, Option.getD_none]
    exact ⟨stepEq, by rw [stepEq]; rfl⟩
  verbatim := details_eq
  fit := by
    intro kind fits
    have stepEq : raw.step = { id := raw.id, kind } := by
      rw [step, StepKind.ofData, fits, Option.getD_some]
    exact ⟨stepEq, StepKind.of_ofData?_eq_some fits⟩

end Raw

end Step

/-! ## Plans -/

namespace Plan

/-- The steps of a plan are understood as they are written. -/
theorem exists_rawSteps {value : Json} {plan : Plan} (isRead : ofJson? value = some plan) :
    ∃ raws, rawSteps? value = some raws ∧ plan.steps = raws.map Step.Raw.step := by
  rw [ofJson?] at isRead
  obtain ⟨fields, areFields, isRead⟩ := Option.bind_eq_some_iff.mp isRead
  obtain ⟨title, -, isRead⟩ := Option.bind_eq_some_iff.mp isRead
  obtain ⟨landing, -, isRead⟩ := Option.bind_eq_some_iff.mp isRead
  obtain ⟨landingUrl, -, isRead⟩ := Option.bind_eq_some_iff.mp isRead
  obtain ⟨steps, areSteps, isRead⟩ := Option.bind_eq_some_iff.mp isRead
  obtain rfl := Option.some.inj isRead
  have listEq : Step.listOfJson? =
      fun value => (list? Step.Raw.ofJson? value).map (List.map Step.Raw.step) := by
    funext value
    rw [Step.listOfJson?, funext Step.ofJson?_eq, list?_map_read]
  have areRaw := Fields.withDefault_map fields "steps" [] (list? Step.Raw.ofJson?)
    (List.map Step.Raw.step)
  rw [listEq, ← List.map_nil (f := Step.Raw.step), areRaw] at areSteps
  obtain ⟨raws, rawsRead, rfl⟩ := Option.map_eq_some_iff.mp areSteps
  exact ⟨raws, Option.bind_eq_some_iff.mpr ⟨fields, areFields, rawsRead⟩, rfl⟩

/-- A plan whose steps are read from their written form is read from its own. -/
theorem ofJson?_toJson {plan : Plan}
    (stepsRead : ∀ step ∈ plan.steps, Step.ofJson? step.toJson = some step) :
    ofJson? plan.toJson = some plan := by
  obtain ⟨title, landing, landingUrl, steps⟩ := plan
  have listRead : Step.listOfJson? (Step.listToJson steps) = some steps := list?_map stepsRead
  have landingRead : LandingMode.ofJson? (.str landing.name) = some landing := by
    cases landing <;> rfl
  have isRead : ofJson? (toJson { title, landing, landingUrl, steps }) =
      (LandingMode.ofJson? (.str landing.name)).bind fun landing =>
        (Step.listOfJson? (Step.listToJson steps)).bind fun steps =>
          some { title, landing, landingUrl, steps } := by
    cases landingUrl <;> rfl
  rw [isRead, landingRead, Option.bind_some, listRead, Option.bind_some]

/-- A written plan names each member once if the details of its steps do. -/
theorem isDistinct_toJson_iff {plan : Plan} :
    plan.toJson.isDistinct ↔ ∀ step ∈ plan.steps, step.kind.data.isDistinct := by
  obtain ⟨title, landing, landingUrl, steps⟩ := plan
  cases landingUrl <;> simp [toJson, optionalMember, Step.listToJson, Step.toJson]

/-- The details of the steps of a plan that names each member once do so, too. -/
theorem isDistinct_data_of_mem_rawSteps {value : Json} (distinct : value.isDistinct)
    {raws : List Step.Raw} (areRaw : rawSteps? value = some raws) :
    ∀ raw ∈ raws, raw.data.isDistinct := by
  rw [rawSteps?] at areRaw
  obtain ⟨fields, areFields, isRead⟩ := Option.bind_eq_some_iff.mp areRaw
  rcases Fields.eq_or_exists_of_withDefault isRead with rfl | ⟨field, isField, areItems⟩
  · exact nofun
  · have fieldDistinct := isDistinct_of_fields? distinct areFields field isField
    obtain ⟨items, itemsEq, ofItems⟩ := exists_of_mem_list? areItems
    rw [itemsEq, Json.isDistinct_arr] at fieldDistinct
    intro raw isRaw
    obtain ⟨item, isItem, isRead⟩ := ofItems raw isRaw
    exact Step.Raw.isDistinct_data (fieldDistinct item isItem) isRead

/-- What becomes of a plan that has been read from a value when it is saved and read again. -/
structure IsKept (value : Json) (plan : Plan) : Prop where
  /-- The saved plan is read as the same plan. -/
  reloaded : ofJson? plan.toJson = some plan
  /-- So it is the same when it is saved again. -/
  resaved : (ofJson? plan.toJson).map toJson = some plan.toJson
  /-- The saved plan names each member once. -/
  distinct : plan.toJson.isDistinct
  /-- Its steps are the written ones, each of which is kept; and details are written with no
  member named twice if the plan is. -/
  steps : ∃ raws, rawSteps? value = some raws ∧ plan.steps = raws.map Step.Raw.step ∧
    (∀ raw ∈ raws, raw.IsKept) ∧ (value.isDistinct → ∀ raw ∈ raws, raw.data.isDistinct)
  /-- The saved plan has the same script. -/
  compiled : ∀ settings, (ofJson? plan.toJson).map (compile settings) = some (plan.compile settings)

/-- Saving a plan that has been read, and reading it again, loses nothing. -/
theorem isKept_of_ofJson? {value : Json} {plan : Plan} (isRead : ofJson? value = some plan) :
    IsKept value plan := by
  obtain ⟨raws, areRaw, stepsEq⟩ := exists_rawSteps isRead
  have reloaded : ofJson? plan.toJson = some plan := by
    apply ofJson?_toJson
    rw [stepsEq, List.forall_mem_map]
    exact fun raw _ => raw.ofJson?_toJson_step
  refine ⟨reloaded, by rw [reloaded, Option.map_some], ?_, ⟨raws, areRaw, stepsEq, ?_, ?_⟩, ?_⟩
  · rw [isDistinct_toJson_iff, stepsEq, List.forall_mem_map]
    exact fun raw _ => raw.isDistinct_data_step
  · exact fun raw _ => raw.isKept
  · exact fun distinct => isDistinct_data_of_mem_rawSteps distinct areRaw
  · exact fun settings => by rw [reloaded, Option.map_some]

/-- A plan that is written as a list.  Its steps are written as a list and as an object; the kind
of one is not known, and the details of another do not fit its kind. -/
def mixedValue : Json :=
  .arr [.str "Site", .str "custom", .null, .arr [
    .arr [.str "a", .str "addPage", .arr [.str "About", .str "Hello"]],
    .arr [.str "b", .str "addPage", .obj [("postTitle", .bool true)]],
    .obj [("type", .str "sendMail"), ("id", .str "c"), ("data", .arr [.null, .num (.integer 1)])],
    .obj [("id", .str "d"), ("type", .str "sendMail")],
    .obj [("id", .str "e"), ("type", .str "installPlugin"),
      ("data", .obj [("pluginZipFile", .arr [.str "url", .str "https://example.com/a.zip"])])]]]

/-- The plan that is read from it. -/
def mixedPlan : Plan :=
  { title := "Site"
    landing := .custom
    landingUrl := none
    steps := [
      { id := "a", kind := .addPage { title := "About", body := "Hello", status := "", image := none } },
      { id := "b", kind := .unknown "addPage" (.obj [("postTitle", .bool true)]) },
      { id := "c", kind := .unknown "sendMail" (.arr [.null, .num (.integer 1)]) },
      { id := "d", kind := .unknown "sendMail" (.obj []) },
      { id := "e", kind := .installPlugin {
        source := some (.address "https://example.com/a.zip"), activate := none } }] }

theorem isKept_mixedPlan : ofJson? mixedValue = some mixedPlan ∧ IsKept mixedValue mixedPlan :=
  ⟨by decide, isKept_of_ofJson? (by decide)⟩

end Plan

end SiteScript

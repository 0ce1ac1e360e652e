import SiteScript.Plan.Written
import SiteScript.Proofs.Script.Entries

/-!
# The details of steps are read back

The details of a step of any kind are read from their written form, and name each member
once if the values that they only pass on do.
-/

namespace SiteScript

open Record

/-! ## Details -/

namespace Content

@[simp]
theorem ofJson?_toJson (content : Content) : ofJson? content.toJson = some content := by
  obtain ⟨title, body, status, image⟩ := content
  cases image <;> rfl

@[simp]
theorem isDistinct_toJson (content : Content) : content.toJson.isDistinct := by
  obtain ⟨title, body, status, image⟩ := content
  cases image <;> rfl

end Content

namespace Installation

variable {sourceName : String}

/-- A written installation is read; its missing source is written as `null`. -/
@[simp]
theorem ofJson?_toJson (isSource : sourceName ≠ "activate") (installation : Installation) :
    ofJson? sourceName (installation.toJson sourceName) = some installation := by
  obtain ⟨source, activate⟩ := installation
  have notActivate : ("activate" == sourceName) = false := beq_false_of_ne isSource.symm
  cases source with
  | none =>
      cases activate <;>
        simp [ofJson?, toJson, optionalMember, fields?, Fields.optional, List.lookup_cons, flag?, isSource,
          notActivate]
  | some source =>
      have sourceRead := source.ofJson?_toJson .named
      obtain ⟨members, isObject⟩ : ∃ members, source.toJson = .obj members := ⟨_, rfl⟩
      rw [isObject] at sourceRead
      cases activate <;>
        simp [ofJson?, toJson, optionalMember, fields?, Fields.optional, List.lookup_cons, flag?, isSource,
          notActivate, isObject, sourceRead]

@[simp]
theorem isDistinct_toJson (isSource : sourceName ≠ "activate") (installation : Installation) :
    (installation.toJson sourceName).isDistinct := by
  obtain ⟨source, activate⟩ := installation
  cases source <;> cases activate <;> simp [toJson, optionalMember, isSource]

end Installation

namespace SiteOption

@[simp]
theorem ofJson?_toJson (option : SiteOption) : ofJson? option.toJson = some option :=
  rfl

@[simp]
theorem isDistinct_toJson_iff {option : SiteOption} :
    option.toJson.isDistinct ↔ option.value.isDistinct := by
  simp [toJson]

end SiteOption

@[simp]
theorem constantsOfJson?_constantsToJson (constants : Members Json) :
    constantsOfJson? (constantsToJson constants) = some constants :=
  rfl

@[simp]
theorem isDistinct_constantsToJson_iff {constants : Members Json} :
    (constantsToJson constants).isDistinct ↔ (Json.obj constants).isDistinct := by
  simp [constantsToJson]

namespace Credentials

@[simp]
theorem ofJson?_toJson (credentials : Credentials) :
    ofJson? credentials.toJson = some credentials := by
  obtain ⟨username, password⟩ := credentials
  cases username <;> cases password <;> rfl

@[simp]
theorem isDistinct_toJson (credentials : Credentials) : credentials.toJson.isDistinct := by
  obtain ⟨username, password⟩ := credentials
  cases username <;> cases password <;> rfl

end Credentials

@[simp]
theorem importOfJson?_importToJson (url : String) : importOfJson? (importToJson url) = some url :=
  rfl

namespace Role

@[simp]
theorem ofJson?_toJson (role : Role) : ofJson? role.toJson = some role := by
  have isRead : ofJson? role.toJson = (list? text? (.texts role.capabilities)).bind
      fun capabilities => some { role with capabilities } :=
    rfl
  rw [isRead, list?_texts, Option.bind_some]

@[simp]
theorem isDistinct_toJson (role : Role) : role.toJson.isDistinct := by
  simp [toJson]

end Role

namespace PageSelection

@[simp]
theorem ofJson?_toJson (selection : PageSelection) :
    ofJson? selection.toJson = some selection := by
  obtain ⟨mode, title, body, pageId⟩ := selection
  cases mode <;> cases pageId <;> rfl

@[simp]
theorem isDistinct_toJson (selection : PageSelection) : selection.toJson.isDistinct := by
  obtain ⟨mode, title, body, pageId⟩ := selection
  cases pageId <;> rfl

end PageSelection

namespace MenuItem

@[simp]
theorem ofJson?_toJson (item : MenuItem) : ofJson? item.toJson = some item := by
  obtain ⟨kind, pageId, title, url⟩ := item
  cases kind <;> cases pageId <;> rfl

@[simp]
theorem isDistinct_toJson (item : MenuItem) : item.toJson.isDistinct := by
  obtain ⟨kind, pageId, title, url⟩ := item
  cases pageId <;> rfl

end MenuItem

namespace Menu

@[simp]
theorem ofJson?_toJson (menu : Menu) : ofJson? menu.toJson = some menu := by
  obtain ⟨name, location, items⟩ := menu
  have itemsRead : list? MenuItem.ofJson? (.arr (items.map MenuItem.toJson)) = some items :=
    list?_map fun item _ => item.ofJson?_toJson
  have isRead : ofJson? (toJson { name, location, items }) =
      (list? MenuItem.ofJson? (.arr (items.map MenuItem.toJson))).bind fun items =>
        some { name, location, items } := by
    cases location <;> rfl
  rw [isRead, itemsRead, Option.bind_some]

@[simp]
theorem isDistinct_toJson (menu : Menu) : menu.toJson.isDistinct := by
  obtain ⟨name, location, items⟩ := menu
  cases location <;> simp [toJson, optionalMember, MenuItem.isDistinct_toJson]

end Menu

namespace Landing

@[simp]
theorem ofJson?_toJson (landing : Landing) : ofJson? landing.toJson = some landing := by
  obtain ⟨mode, url⟩ := landing
  cases mode <;> cases url <;> rfl

@[simp]
theorem isDistinct_toJson (landing : Landing) : landing.toJson.isDistinct := by
  obtain ⟨mode, url⟩ := landing
  cases url <;> rfl

end Landing

/-! ## Kinds of steps -/

/-- What is read as the value of a site option names each member once if the details do. -/
theorem SiteOption.isDistinct_value {details : Json} {option : SiteOption}
    (distinct : details.isDistinct) (isRead : ofJson? details = some option) :
    option.value.isDistinct := by
  rw [ofJson?] at isRead
  obtain ⟨fields, areFields, isRead⟩ := Option.bind_eq_some_iff.mp isRead
  obtain ⟨name, -, isRead⟩ := Option.bind_eq_some_iff.mp isRead
  obtain ⟨value, isValue, isRead⟩ := Option.bind_eq_some_iff.mp isRead
  obtain rfl := Option.some.inj isRead
  exact Fields.isDistinct_of_withDefault (isDistinct_of_fields? distinct areFields) isValue

/-- What is read as constants names each member once if the details do. -/
theorem isDistinct_constants {details : Json} {constants : Members Json}
    (distinct : details.isDistinct) (isRead : constantsOfJson? details = some constants) :
    (Json.obj constants).isDistinct := by
  rw [constantsOfJson?] at isRead
  obtain ⟨fields, areFields, isRead⟩ := Option.bind_eq_some_iff.mp isRead
  rcases Fields.eq_or_exists_of_withDefault isRead with rfl | ⟨field, isField, areMembers⟩
  · rfl
  · rw [← obj_of_members? areMembers]
    exact isDistinct_of_fields? distinct areFields field isField

namespace StepKind

/-- The values in the details of a step that are kept whatever they are. -/
def kept : StepKind → List Json
  | .setSiteOption option => [option.value]
  | .defineConstants constants => [.obj constants]
  | .unknown _ data => [data]
  | _ => []

/-- The details name each member once if the values that are kept do. -/
theorem isDistinct_data_iff {kind : StepKind} :
    kind.data.isDistinct ↔ ∀ value ∈ kind.kept, value.isDistinct := by
  cases kind <;> simp [data, kept, importToJson]

/-- The details of a step of a known kind are read from their written form. -/
theorem ofData?_data {kind : StepKind} (known : kind.isUnknown = false) :
    ofData? kind.name kind.data = some kind := by
  cases kind with
  | unknown name data => cases known
  | _ => simp [name, data, ofData?]

/-- What is read as details of a kind is a known step of that kind. -/
theorem of_ofData?_eq_some {name : String} {data : Json} {kind : StepKind}
    (isRead : ofData? name data = some kind) : kind.isUnknown = false ∧ kind.name = name := by
  unfold ofData? at isRead
  split at isRead
  all_goals first
    | obtain ⟨details, -, rfl⟩ := Option.map_eq_some_iff.mp isRead
      exact ⟨rfl, rfl⟩
    | cases isRead

/-- The details that are read name each member once if what they are read from does. -/
theorem isDistinct_data {name : String} {data : Json} {kind : StepKind}
    (distinct : data.isDistinct) (isRead : ofData? name data = some kind) :
    kind.data.isDistinct := by
  obtain ⟨known, rfl⟩ := of_ofData?_eq_some isRead
  rw [isDistinct_data_iff]
  cases kind with
  | setSiteOption option =>
      obtain ⟨details, detailsRead, equal⟩ := Option.map_eq_some_iff.mp isRead
      cases equal
      simpa [kept] using SiteOption.isDistinct_value distinct detailsRead
  | defineConstants constants =>
      obtain ⟨details, detailsRead, equal⟩ := Option.map_eq_some_iff.mp isRead
      cases equal
      exact List.forall_mem_singleton.mpr (isDistinct_constants distinct detailsRead)
  | unknown kind details => cases known
  | _ => simp [kept]

end StepKind

end SiteScript

import SiteScript.Proofs.Script.Entries

/-!
# What values denote

An instruction may be written as an object that names its kind and its fields, or as a list in
which the kind and the fields stand in order.  Here it is said of every kind of instruction and
of resource which values denote it, and exactly these values are read as it.
-/

namespace SiteScript

namespace Record

/-! ## Records of a kind -/

/-- The values that stand for one of several kinds: its names, and its place among the kinds. -/
inductive IsTagOf (names : List String) (place : Nat) : Json → Prop
  | name {name : String} (isName : name ∈ names) : IsTagOf names place (.str name)
  | place : IsTagOf names place (.nat place)

/-- The records of the kind that has the given names and place.  Each field of the kind is listed
with its value, or without one where it is missing. -/
inductive IsRecord (tagName : String) (names : List String) (place : Nat)
    (fields : List (String × Option Json)) : Json → Prop
  /-- An object has the tag and the fields under their names; nothing else in it matters. -/
  | object {members : Members Json} {tag : Json} (isTag : members.get? tagName = some tag)
      (ofKind : IsTagOf names place tag)
      (areFields : ∀ field ∈ fields, members.get? field.1 = field.2) :
    IsRecord tagName names place fields (.obj members)
  /-- A list begins with the tag, and nothing but the fields follows in their order, of which the
  last ones may be missing. -/
  | list {tag : Json} {items : List Json} (ofKind : IsTagOf names place tag)
      (notMore : items.length ≤ fields.length)
      (areFields : ∀ (index : Nat) (field : String × Option Json),
        fields[index]? = some field → items[index]? = field.2) :
    IsRecord tagName names place fields (.arr (tag :: items))

/-- The field of a text, which is missing only if the text is empty. -/
inductive GivesText : String → Option Json → Prop
  | missing : GivesText "" none
  | text (text : String) : GivesText text (some (.str text))

variable {tagName : String} {names : List String} {place : Nat}
  {fields : List (String × Option Json)} {value : Json}

/-- The fields of a record name each member once if the record does. -/
theorem IsRecord.isDistinct_field (isRecord : IsRecord tagName names place fields value)
    (distinct : value.isDistinct) {name : String} {fieldValue : Json}
    (isField : (name, some fieldValue) ∈ fields) : fieldValue.isDistinct := by
  cases isRecord with
  | object isTag ofKind areFields =>
      have isMember := areFields _ isField
      exact (Json.isDistinct_obj.mp distinct).2 (name, fieldValue) (Members.mem_of_get? isMember)
  | list ofKind notMore areFields =>
      obtain ⟨index, isPlace⟩ := List.mem_iff_getElem?.mp isField
      have isItem := List.mem_of_getElem? (areFields index _ isPlace)
      exact Json.isDistinct_arr.mp distinct _ (List.mem_cons_of_mem _ isItem)

/-! ## Reading records -/

/-- A tag is read as the kind that it stands for. -/
theorem tagChoice?_eq_some_iff {α : Type} [DecidableEq α] {named : Members α} {places : List α}
    (namedDistinct : named.names.Nodup) (placesDistinct : places.Nodup) {kind : α}
    (isPlace : places[place]? = some kind) {tag : Json} :
    tagChoice? .namedOrNumbered named places tag = some kind ↔
      IsTagOf ((named.filter (·.2 = kind)).map Prod.fst) place tag := by
  constructor
  · intro chosen
    unfold tagChoice? at chosen
    split at chosen
    · refine .name (List.mem_map.mpr ⟨_, List.mem_filter.mpr ⟨Members.mem_of_get? chosen, ?_⟩, rfl⟩)
      exact decide_eq_true rfl
    · rename_i number
      simp only at chosen
      split at chosen
      · rename_i natural
        obtain ⟨inBounds, -⟩ := List.getElem?_eq_some_iff.mp chosen
        have samePlace := (List.getElem?_inj inBounds placesDistinct).mp (chosen.trans isPlace.symm)
        rw [← Int.toNat_of_nonneg natural, samePlace]
        exact .place
      · cases chosen
    · cases chosen
  · intro isTag
    cases isTag with
    | name isName =>
        obtain ⟨⟨_, other⟩, isNamed, rfl⟩ := List.mem_map.mp isName
        obtain ⟨isMember, ofKind⟩ := List.mem_filter.mp isNamed
        obtain rfl : other = kind := of_decide_eq_true ofKind
        exact Members.get?_of_mem namedDistinct isMember
    | place => simpa [tagChoice?, Json.nat] using isPlace

/-- The fields of an object are looked up without its tag. -/
theorem lookup_of_field {members : Members Json} {present : Fields}
    (notField : tagName ∉ fields.map Prod.fst)
    (arePresent : fields? (fields.map Prod.fst)
      (.obj (members.filter fun member => member.1 != tagName)) = some present)
    {field : String × Option Json} (isField : field ∈ fields) :
    present.lookup field.1 = members.get? field.1 := by
  have isKnown : field.1 ∈ fields.map Prod.fst := List.mem_map_of_mem isField
  have noTag : (field.1 != tagName) = true := bne_iff_ne.mpr fun equal => notField (equal ▸ isKnown)
  exact (lookup_of_fields?_obj arePresent isKnown).trans
    (@lookup_filter (· != tagName) field.1 noTag members)

/-- Exactly the records of a kind are split into a tag of the kind and its fields. -/
theorem isRecord_iff (distinct : value.isDistinct)
    (namesDistinct : (tagName :: fields.map Prod.fst).Nodup) :
    IsRecord tagName names place fields value ↔
      ∃ tag rest present, splitTag? tagName value = some (tag, rest) ∧ IsTagOf names place tag ∧
        fields? (fields.map Prod.fst) rest = some present ∧
        ∀ field ∈ fields, present.lookup field.1 = field.2 := by
  obtain ⟨notField, fieldsDistinct⟩ := List.nodup_cons.mp namesDistinct
  constructor
  · intro isRecord
    cases isRecord with
    | @object members tag isTag ofKind areFields =>
        have isSplit : splitTag? tagName (.obj members) =
            some (tag, .obj (members.filter fun member => member.1 != tagName)) :=
          congrArg (Option.map _) isTag
        have restDistinct := isDistinct_of_splitTag? distinct isSplit
        obtain ⟨present, arePresent⟩ := exists_fields?_obj (Json.isDistinct_obj.mp restDistinct).1
          (fields.map Prod.fst)
        refine ⟨tag, _, present, isSplit, ofKind, arePresent, fun field isField => ?_⟩
        rw [lookup_of_field notField arePresent isField, ← areFields field isField, Members.get?]
    | @list tag items ofKind notMore areFields =>
        rw [← List.length_map Prod.fst] at notMore
        refine ⟨tag, .arr items, _, rfl, ofKind, if_pos notMore, fun field isField => ?_⟩
        obtain ⟨index, isPlace⟩ := List.mem_iff_getElem?.mp isField
        rw [lookup_zip fieldsDistinct (by rw [List.getElem?_map, isPlace]; rfl),
          areFields index field isPlace]
  · rintro ⟨tag, rest, present, isSplit, ofKind, arePresent, areFields⟩
    unfold splitTag? at isSplit
    split at isSplit
    · obtain ⟨_, isTag, equal⟩ := Option.map_eq_some_iff.mp isSplit
      cases equal
      refine .object isTag ofKind fun field isField => ?_
      rw [← areFields field isField, lookup_of_field notField arePresent isField, Members.get?]
    · cases isSplit
      simp only [fields?] at arePresent
      split at arePresent
      · rename_i notMore
        rw [List.length_map] at notMore
        refine .list ofKind notMore fun index field isPlace => ?_
        rw [← areFields field (List.mem_of_getElem? isPlace), ← Option.some.inj arePresent,
          lookup_zip fieldsDistinct (by rw [List.getElem?_map, isPlace]; rfl)]
      · cases arePresent
    · cases isSplit

/-- A field of a text is empty if it is missing. -/
theorem Fields.withDefault_text?_eq_some_iff {present : Fields} {name text : String} :
    present.withDefault name "" text? = some text ↔ GivesText text (present.lookup name) := by
  rw [withDefault_eq_some_iff]
  constructor
  · rintro (⟨missing, rfl⟩ | ⟨value, isValue, isText⟩)
    · rw [missing]
      exact .missing
    · rw [isValue, text?_eq_some_iff.mp isText]
      exact .text text
  · intro gives
    cases given : present.lookup name with
    | none =>
        rw [given] at gives
        cases gives
        exact Or.inl ⟨rfl, rfl⟩
    | some value =>
        rw [given] at gives
        cases gives
        exact Or.inr ⟨_, rfl, rfl⟩

end Record

open Record

/-! ## Resources -/

/-- The values that denote a resource. -/
inductive Resource.IsDenotedBy : Resource → Json → Prop
  | pluginRegistry {slug : String} {field : Option Json} {value : Json}
      (isRecord : IsRecord "resource" ["wordpress.org/plugins"] 0 [("slug", field)] value)
      (givesSlug : GivesText slug field) : IsDenotedBy (.pluginRegistry slug) value
  | themeRegistry {slug : String} {field : Option Json} {value : Json}
      (isRecord : IsRecord "resource" ["wordpress.org/themes"] 1 [("slug", field)] value)
      (givesSlug : GivesText slug field) : IsDenotedBy (.themeRegistry slug) value
  | address {url : String} {field : Option Json} {value : Json}
      (isRecord : IsRecord "resource" ["url"] 2 [("url", field)] value)
      (givesUrl : GivesText url field) : IsDenotedBy (.address url) value

/-- A resource is denoted by the records of its kind that give its slug or address. -/
theorem Resource.isDenotedBy_iff {kind : Kind} {locator : String} {value : Json} :
    (kind.resource locator).IsDenotedBy value ↔
      ∃ field, IsRecord "resource" [kind.name] (Kind.all.idxOf kind) [(kind.field, field)] value ∧
        GivesText locator field := by
  constructor
  · intro denotes
    cases kind <;> cases denotes <;> exact ⟨_, ‹_›, ‹_›⟩
  · rintro ⟨field, isRecord, gives⟩
    cases kind
    · exact .pluginRegistry isRecord gives
    · exact .themeRegistry isRecord gives
    · exact .address isRecord gives

theorem Resource.tagChoice?_eq_some_iff {kind : Kind} {tag : Json} :
    tagChoice? .namedOrNumbered (Kind.all.map fun kind => (kind.name, kind)) Kind.all tag =
      some kind ↔ IsTagOf [kind.name] (Kind.all.idxOf kind) tag := by
  have isPlace : Kind.all[Kind.all.idxOf kind]? = some kind := by
    cases kind <;> rfl
  rw [Record.tagChoice?_eq_some_iff (by decide) (by decide) isPlace]
  cases kind <;> rfl

/-- Exactly the values that denote a resource are read as it. -/
theorem Resource.ofJson?_eq_some_iff {value : Json} (distinct : value.isDistinct)
    {resource : Resource} :
    ofJson? .namedOrNumbered value = some resource ↔ resource.IsDenotedBy value := by
  have namesDistinct (kind : Kind) : ["resource", kind.field].Nodup := by
    cases kind <;> decide
  constructor
  · intro isRead
    obtain ⟨⟨tag, rest⟩, isSplit, isRead⟩ := Option.bind_eq_some_iff.mp isRead
    obtain ⟨kind, chosen, isRead⟩ := Option.bind_eq_some_iff.mp isRead
    obtain ⟨present, arePresent, isRead⟩ := Option.bind_eq_some_iff.mp isRead
    obtain ⟨locator, isLocator, isRead⟩ := Option.bind_eq_some_iff.mp isRead
    obtain rfl := Option.some.inj isRead
    refine isDenotedBy_iff.mpr ⟨present.lookup kind.field,
      (isRecord_iff distinct (namesDistinct kind)).mpr ⟨tag, rest, present, isSplit,
        tagChoice?_eq_some_iff.mp chosen, arePresent, List.forall_mem_singleton.mpr rfl⟩,
      Fields.withDefault_text?_eq_some_iff.mp isLocator⟩
  · intro denotes
    have parts : resource.kind.resource resource.locator = resource := by
      cases resource <;> rfl
    rw [← parts] at denotes ⊢
    obtain ⟨field, isRecord, gives⟩ := isDenotedBy_iff.mp denotes
    obtain ⟨tag, rest, present, isSplit, ofKind, arePresent, areFields⟩ :=
      (isRecord_iff distinct (namesDistinct resource.kind)).mp isRecord
    have isField : present.lookup resource.kind.field = field :=
      areFields _ List.mem_cons_self
    rw [← isField, ← Fields.withDefault_text?_eq_some_iff] at gives
    have fieldsRead : fields? [resource.kind.field] rest = some present := arePresent
    simp [ofJson?, isSplit, tagChoice?_eq_some_iff.mpr ofKind, fieldsRead, gives]

/-! ## Instructions -/

namespace Instruction

/-- What the options of an installation say: whether to activate what is installed, which is
done without options. -/
inductive GivesActivation : Bool → Option Json → Prop
  | missing : GivesActivation true none
  | object {members : Members Json} {activate : Bool}
      (isFlag : members.get? "activate" = some (.bool activate)) :
    GivesActivation activate (some (.obj members))
  | list (activate : Bool) : GivesActivation activate (some (.arr [.bool activate]))

/-- The values that denote an instruction. -/
inductive IsDenotedBy : Instruction → Json → Prop
  | login {username password : String} {first second : Option Json} {value : Json}
      (isRecord : IsRecord "step" ["login"] 0 [("username", first), ("password", second)] value)
      (givesUsername : GivesText username first) (givesPassword : GivesText password second) :
    IsDenotedBy (.login username password) value
  | setSiteOptions {options : Members Json} {value : Json}
      (isRecord : IsRecord "step" ["setSiteOptions", "setOptions"] 1
        [("options", some (.obj options))] value) :
    IsDenotedBy (.setSiteOptions options) value
  | installPlugin {source : Resource} {activate : Bool} {file : Json} {options : Option Json}
      {value : Json} (isRecord : IsRecord "step" ["installPlugin"] 2
        [("pluginZipFile", some file), ("options", options)] value)
      (givesSource : source.IsDenotedBy file) (givesActivation : GivesActivation activate options) :
    IsDenotedBy (.installPlugin source activate) value
  | installTheme {source : Resource} {activate : Bool} {file : Json} {options : Option Json}
      {value : Json} (isRecord : IsRecord "step" ["installTheme"] 3
        [("themeZipFile", some file), ("options", options)] value)
      (givesSource : source.IsDenotedBy file) (givesActivation : GivesActivation activate options) :
    IsDenotedBy (.installTheme source activate) value
  | defineConstants {constants : Members Json} {value : Json}
      (isRecord : IsRecord "step" ["defineWpConfigConsts"] 4
        [("consts", some (.obj constants))] value) :
    IsDenotedBy (.defineConstants constants) value
  | importContent {source : Resource} {file value : Json}
      (isRecord : IsRecord "step" ["importWxr"] 5 [("file", some file)] value)
      (givesSource : source.IsDenotedBy file) : IsDenotedBy (.importContent source) value
  | command {line : String} {value : Json}
      (isRecord : IsRecord "step" ["wp-cli"] 6 [("command", some (.str line))] value) :
    IsDenotedBy (.command line) value
  | runPhp {code : String} {value : Json}
      (isRecord : IsRecord "step" ["runPHP"] 7 [("code", some (.str code))] value) :
    IsDenotedBy (.runPhp code) value

variable {value : Json}

/-- Exactly the options that say something about activating are read as that. -/
theorem installOptions?_eq_some_iff (distinct : value.isDistinct) {activate : Bool} :
    installOptions? value = some activate ↔ GivesActivation activate (some value) := by
  have flag?_eq : ∀ flag : Json, flag? flag = some activate ↔ flag = .bool activate := by
    intro flag
    cases flag <;> simp [flag?]
  cases value with
  | obj members =>
      obtain ⟨fields, areFields⟩ :=
        exists_fields?_obj (Json.isDistinct_obj.mp distinct).1 ["activate"]
      have isRead : installOptions? (.obj members) = (members.lookup "activate").bind flag? := by
        rw [installOptions?, areFields, Option.bind_eq_bind, Option.bind_some, Fields.required,
          lookup_of_fields?_obj areFields List.mem_cons_self]
      rw [isRead, Option.bind_eq_some_iff]
      simp only [flag?_eq, exists_eq_right]
      constructor
      · exact .object
      · intro gives
        cases gives
        assumption
  | arr items =>
      constructor
      · intro isRead
        rcases items with _ | ⟨flag, _ | ⟨second, more⟩⟩
        · cases isRead
        · rw [(flag?_eq flag).mp isRead]
          exact .list activate
        · cases isRead
      · intro gives
        cases gives
        rfl
  | _ => exact iff_of_false nofun nofun

/-- A field of options is missing or says whether to activate what is installed. -/
theorem withDefault_installOptions?_eq_some_iff {present : Fields}
    (distinct : ∀ field ∈ present, field.2.isDistinct) {activate : Bool} :
    present.withDefault "options" true installOptions? = some activate ↔
      GivesActivation activate (present.lookup "options") := by
  rw [Fields.withDefault_eq_some_iff]
  cases given : present.lookup "options" with
  | none =>
      constructor
      · rintro (⟨-, rfl⟩ | ⟨_, isValue, -⟩)
        · exact .missing
        · cases isValue
      · intro gives
        cases gives
        exact Or.inl ⟨rfl, rfl⟩
  | some value =>
      have valueDistinct : value.isDistinct := distinct ("options", value) (Members.mem_of_get? given)
      simp [installOptions?_eq_some_iff valueDistinct]

/-! ## Reading instructions -/

theorem Kind.tagChoice?_eq_some_iff {kind : Kind} {tag : Json} :
    tagChoice? .namedOrNumbered Kind.names Kind.all tag = some kind ↔
      IsTagOf ((Kind.names.filter (·.2 = kind)).map Prod.fst) (Kind.all.idxOf kind) tag := by
  have isPlace : Kind.all[Kind.all.idxOf kind]? = some kind := by
    cases kind <;> rfl
  exact Record.tagChoice?_eq_some_iff (by decide) (by decide) isPlace

/-- The records of a kind. -/
abbrev Kind.IsRecord (kind : Kind) : List (String × Option Json) → Json → Prop :=
  Record.IsRecord "step" ((Kind.names.filter (·.2 = kind)).map Prod.fst) (Kind.all.idxOf kind)

/-- Whether a value has a tag of a kind and what is left without the tag is read as an
instruction. -/
def Kind.Reads (kind : Kind) (read : Json → Option Instruction) (value : Json)
    (instruction : Instruction) : Prop :=
  ∃ tag rest, splitTag? "step" value = some (tag, rest) ∧
    tagChoice? .namedOrNumbered Kind.names Kind.all tag = some kind ∧ read rest = some instruction

theorem ofJson?_eq_some_iff_exists_reads {instruction : Instruction} :
    ofJson? .namedOrNumbered value = some instruction ↔
      ∃ kind : Kind, kind.Reads (ofFields? kind) value instruction := by
  simp only [ofJson?, Option.bind_eq_bind, Option.bind_eq_some_iff, Prod.exists, Kind.Reads]
  constructor
  · rintro ⟨tag, rest, isSplit, kind, chosen, isRead⟩
    exact ⟨kind, tag, rest, isSplit, chosen, isRead⟩
  · rintro ⟨kind, tag, rest, isSplit, chosen, isRead⟩
    exact ⟨tag, rest, isSplit, kind, chosen, isRead⟩

variable {kind : Kind} {instruction : Instruction}

/-- Values with a tag of a kind whose fields are read are the records of that kind with these
fields. -/
theorem Kind.isRecord_iff (distinct : value.isDistinct) {fields : List (String × Option Json)}
    {names : List String} (sameNames : fields.map Prod.fst = names)
    (namesDistinct : ("step" :: names).Nodup) :
    kind.IsRecord fields value ↔
      ∃ tag rest present, splitTag? "step" value = some (tag, rest) ∧
        tagChoice? .namedOrNumbered Kind.names Kind.all tag = some kind ∧
        fields? names rest = some present ∧
        ∀ field ∈ fields, present.lookup field.1 = field.2 := by
  subst sameNames
  simp only [Kind.tagChoice?_eq_some_iff]
  exact Record.isRecord_iff distinct namesDistinct

/-- An instruction with one field, which must be present. -/
theorem Kind.reads_required_iff {α : Type} {read : Json → Option α} {make : α → Instruction}
    {name : String} (distinct : value.isDistinct) (notTag : "step" ≠ name) :
    kind.Reads (fun rest => do
        let fields ← fields? [name] rest
        return make (← fields.required name read)) value instruction ↔
      ∃ field a, kind.IsRecord [(name, some field)] value ∧ read field = some a ∧
        make a = instruction := by
  have namesDistinct : ["step", name].Nodup := by simpa using notTag
  constructor
  · rintro ⟨tag, rest, isSplit, chosen, isRead⟩
    obtain ⟨present, arePresent, isRead⟩ := Option.bind_eq_some_iff.mp isRead
    obtain ⟨a, isRequired, isRead⟩ := Option.bind_eq_some_iff.mp isRead
    obtain ⟨field, isField, isRequired⟩ := Option.bind_eq_some_iff.mp isRequired
    refine ⟨field, a, (isRecord_iff distinct (by rfl) namesDistinct).mpr ?_, isRequired,
      Option.some.inj isRead⟩
    exact ⟨tag, rest, present, isSplit, chosen, arePresent, by simpa using isField⟩
  · rintro ⟨field, a, isRecord, isRead, rfl⟩
    obtain ⟨tag, rest, present, isSplit, chosen, arePresent, areFields⟩ :=
      (isRecord_iff distinct (by rfl) namesDistinct).mp isRecord
    have isField : present.lookup name = some field := areFields _ List.mem_cons_self
    refine ⟨tag, rest, isSplit, chosen, ?_⟩
    simp [arePresent, Fields.required, isField, isRead]

/-- An instruction that installs something from a source, perhaps with options. -/
theorem Kind.reads_installation_iff {install : Resource → Bool → Instruction} {name : String}
    (distinct : value.isDistinct) (namesDistinct : ["step", name, "options"].Nodup) :
    kind.Reads (fun rest => do
        let fields ← fields? [name, "options"] rest
        let source ← fields.required name (Resource.ofJson? .namedOrNumbered)
        return install source (← fields.withDefault "options" true installOptions?))
        value instruction ↔
      ∃ file options source activate,
        kind.IsRecord [(name, some file), ("options", options)] value ∧
          source.IsDenotedBy file ∧ GivesActivation activate options ∧
            install source activate = instruction := by
  constructor
  · rintro ⟨tag, rest, isSplit, chosen, isRead⟩
    obtain ⟨present, arePresent, isRead⟩ := Option.bind_eq_some_iff.mp isRead
    obtain ⟨source, isSource, isRead⟩ := Option.bind_eq_some_iff.mp isRead
    obtain ⟨file, isFile, isSource⟩ := Option.bind_eq_some_iff.mp isSource
    obtain ⟨activate, isActivate, isRead⟩ := Option.bind_eq_some_iff.mp isRead
    have presentDistinct := isDistinct_of_fields? (isDistinct_of_splitTag? distinct isSplit)
      arePresent
    have fileDistinct : file.isDistinct := presentDistinct (name, file) (Members.mem_of_get? isFile)
    refine ⟨file, present.lookup "options", source, activate,
      (isRecord_iff distinct (by rfl) namesDistinct).mpr ?_,
      (Resource.ofJson?_eq_some_iff fileDistinct).mp isSource,
      (withDefault_installOptions?_eq_some_iff presentDistinct).mp isActivate,
      Option.some.inj isRead⟩
    exact ⟨tag, rest, present, isSplit, chosen, arePresent, by simpa using isFile⟩
  · rintro ⟨file, options, source, activate, isRecord, denotes, gives, rfl⟩
    obtain ⟨tag, rest, present, isSplit, chosen, arePresent, areFields⟩ :=
      (isRecord_iff distinct (by rfl) namesDistinct).mp isRecord
    obtain ⟨isFile, areFields⟩ := List.forall_mem_cons.mp areFields
    have areOptions : present.lookup "options" = options := areFields _ List.mem_cons_self
    have presentDistinct := isDistinct_of_fields? (isDistinct_of_splitTag? distinct isSplit)
      arePresent
    have fileDistinct := isRecord.isDistinct_field distinct List.mem_cons_self
    have isActivate := (withDefault_installOptions?_eq_some_iff presentDistinct).mpr
      (areOptions ▸ gives)
    refine ⟨tag, rest, isSplit, chosen, ?_⟩
    simp [arePresent, Fields.required, isFile, isActivate,
      (Resource.ofJson?_eq_some_iff fileDistinct).mpr denotes]

/-- An instruction with two texts, each of which is empty if it is missing. -/
theorem Kind.reads_texts_iff {make : String → String → Instruction} {firstName secondName : String}
    (distinct : value.isDistinct) (namesDistinct : ["step", firstName, secondName].Nodup) :
    kind.Reads (fun rest => do
        let fields ← fields? [firstName, secondName] rest
        let first ← fields.withDefault firstName "" text?
        let second ← fields.withDefault secondName "" text?
        return make first second) value instruction ↔
      ∃ firstField secondField first second,
        kind.IsRecord [(firstName, firstField), (secondName, secondField)] value ∧
          GivesText first firstField ∧ GivesText second secondField ∧
            make first second = instruction := by
  constructor
  · rintro ⟨tag, rest, isSplit, chosen, isRead⟩
    obtain ⟨present, arePresent, isRead⟩ := Option.bind_eq_some_iff.mp isRead
    obtain ⟨first, isFirst, isRead⟩ := Option.bind_eq_some_iff.mp isRead
    obtain ⟨second, isSecond, isRead⟩ := Option.bind_eq_some_iff.mp isRead
    refine ⟨present.lookup firstName, present.lookup secondName, first, second,
      (isRecord_iff distinct (by rfl) namesDistinct).mpr ?_,
      Fields.withDefault_text?_eq_some_iff.mp isFirst,
      Fields.withDefault_text?_eq_some_iff.mp isSecond, Option.some.inj isRead⟩
    exact ⟨tag, rest, present, isSplit, chosen, arePresent, by simp⟩
  · rintro ⟨firstField, secondField, first, second, isRecord, givesFirst, givesSecond, rfl⟩
    obtain ⟨tag, rest, present, isSplit, chosen, arePresent, areFields⟩ :=
      (isRecord_iff distinct (by rfl) namesDistinct).mp isRecord
    obtain ⟨isFirst, areFields⟩ := List.forall_mem_cons.mp areFields
    obtain ⟨isSecond, -⟩ := List.forall_mem_cons.mp areFields
    simp only at isFirst isSecond
    rw [← isFirst, ← Fields.withDefault_text?_eq_some_iff] at givesFirst
    rw [← isSecond, ← Fields.withDefault_text?_eq_some_iff] at givesSecond
    refine ⟨tag, rest, isSplit, chosen, ?_⟩
    simp [arePresent, givesFirst, givesSecond]

/-- What is read as an instruction denotes it. -/
theorem Kind.Reads.isDenotedBy (reads : kind.Reads (ofFields? kind) value instruction)
    (distinct : value.isDistinct) : instruction.IsDenotedBy value := by
  cases kind with
  | login =>
      obtain ⟨_, _, username, password, isRecord, givesUsername, givesPassword, rfl⟩ :=
        (reads_texts_iff distinct (by decide)).mp reads
      exact .login isRecord givesUsername givesPassword
  | setSiteOptions =>
      obtain ⟨_, options, isRecord, areOptions, rfl⟩ :=
        (reads_required_iff distinct (by decide)).mp reads
      rw [obj_of_members? areOptions] at isRecord
      exact .setSiteOptions isRecord
  | installPlugin =>
      obtain ⟨_, _, source, activate, isRecord, givesSource, givesActivation, rfl⟩ :=
        (reads_installation_iff distinct (by decide)).mp reads
      exact .installPlugin isRecord givesSource givesActivation
  | installTheme =>
      obtain ⟨_, _, source, activate, isRecord, givesSource, givesActivation, rfl⟩ :=
        (reads_installation_iff distinct (by decide)).mp reads
      exact .installTheme isRecord givesSource givesActivation
  | defineConstants =>
      obtain ⟨_, constants, isRecord, areConstants, rfl⟩ :=
        (reads_required_iff distinct (by decide)).mp reads
      rw [obj_of_members? areConstants] at isRecord
      exact .defineConstants isRecord
  | importContent =>
      obtain ⟨file, source, isRecord, isSource, rfl⟩ :=
        (reads_required_iff distinct (by decide)).mp reads
      have fileDistinct := isRecord.isDistinct_field distinct List.mem_cons_self
      exact .importContent isRecord ((Resource.ofJson?_eq_some_iff fileDistinct).mp isSource)
  | command =>
      obtain ⟨_, line, isRecord, isLine, rfl⟩ :=
        (reads_required_iff distinct (by decide)).mp reads
      rw [text?_eq_some_iff.mp isLine] at isRecord
      exact .command isRecord
  | runPhp =>
      obtain ⟨_, code, isRecord, isCode, rfl⟩ :=
        (reads_required_iff distinct (by decide)).mp reads
      rw [text?_eq_some_iff.mp isCode] at isRecord
      exact .runPhp isRecord

/-- A value is read as the instruction that it denotes. -/
theorem IsDenotedBy.exists_reads (denotes : instruction.IsDenotedBy value)
    (distinct : value.isDistinct) :
    ∃ kind : Kind, kind.Reads (ofFields? kind) value instruction := by
  cases denotes with
  | login isRecord givesUsername givesPassword =>
      exact ⟨.login, (Kind.reads_texts_iff distinct (by decide)).mpr
        ⟨_, _, _, _, isRecord, givesUsername, givesPassword, rfl⟩⟩
  | setSiteOptions isRecord =>
      exact ⟨.setSiteOptions, (Kind.reads_required_iff distinct (by decide)).mpr
        ⟨_, _, isRecord, rfl, rfl⟩⟩
  | installPlugin isRecord givesSource givesActivation =>
      exact ⟨.installPlugin, (Kind.reads_installation_iff distinct (by decide)).mpr
        ⟨_, _, _, _, isRecord, givesSource, givesActivation, rfl⟩⟩
  | installTheme isRecord givesSource givesActivation =>
      exact ⟨.installTheme, (Kind.reads_installation_iff distinct (by decide)).mpr
        ⟨_, _, _, _, isRecord, givesSource, givesActivation, rfl⟩⟩
  | defineConstants isRecord =>
      exact ⟨.defineConstants, (Kind.reads_required_iff distinct (by decide)).mpr
        ⟨_, _, isRecord, rfl, rfl⟩⟩
  | importContent isRecord givesSource =>
      have fileDistinct := isRecord.isDistinct_field distinct List.mem_cons_self
      exact ⟨.importContent, (Kind.reads_required_iff distinct (by decide)).mpr
        ⟨_, _, isRecord, (Resource.ofJson?_eq_some_iff fileDistinct).mpr givesSource, rfl⟩⟩
  | command isRecord =>
      exact ⟨.command, (Kind.reads_required_iff distinct (by decide)).mpr
        ⟨_, _, isRecord, rfl, rfl⟩⟩
  | runPhp isRecord =>
      exact ⟨.runPhp, (Kind.reads_required_iff distinct (by decide)).mpr
        ⟨_, _, isRecord, rfl, rfl⟩⟩

/-- Exactly the values that denote an instruction are read as it. -/
theorem ofJson?_eq_some_iff_isDenotedBy (distinct : value.isDistinct) :
    ofJson? .namedOrNumbered value = some instruction ↔ instruction.IsDenotedBy value := by
  rw [ofJson?_eq_some_iff_exists_reads]
  constructor
  · rintro ⟨kind, reads⟩
    exact reads.isDenotedBy distinct
  · intro denotes
    exact denotes.exists_reads distinct

end Instruction

end SiteScript

import Mathlib.Data.List.Forall2
import SiteScript.Proofs.Json.Grammar
import SiteScript.Proofs.Script.Denotation

/-!
# What can be imported

A text is imported exactly if it is the strict JSON text of an object that has steps and in which
every other field of a document is missing or has the right form.  What the steps are makes no
difference: each of them is kept in its place, as the instruction that it denotes or as it is.
-/

namespace SiteScript

open Record

/-! ## Versions -/

/-- The values that stand for versions: an object with both members, and a list of two texts. -/
inductive Versions.IsWrittenAs (versions : Versions) : Json → Prop
  | object {members : Members Json} (php : members.get? "php" = some (.str versions.php))
    (wp : members.get? "wp" = some (.str versions.wp)) : IsWrittenAs versions (.obj members)
  | list : IsWrittenAs versions (.arr [.str versions.php, .str versions.wp])

/-- Exactly the values that stand for versions are read as them. -/
theorem Versions.ofJson?_eq_some_iff {value : Json} (distinct : value.isDistinct)
    {versions : Versions} : ofJson? value = some versions ↔ versions.IsWrittenAs value := by
  have ofFields : ∀ fields, fields? ["php", "wp"] value = some fields →
      (ofJson? value = some versions ↔ fields.lookup "php" = some (.str versions.php) ∧
        fields.lookup "wp" = some (.str versions.wp)) := by
    intro fields areFields
    obtain ⟨php, wp⟩ := versions
    simp [ofJson?, areFields, Fields.required, Option.bind_eq_some_iff, text?_eq_some_iff]
  constructor
  · intro isRead
    obtain ⟨fields, areFields, -⟩ := Option.bind_eq_some_iff.mp isRead
    obtain ⟨isPhp, isWp⟩ := (ofFields fields areFields).mp isRead
    cases value with
    | obj members =>
        rw [lookup_of_fields?_obj areFields (by decide)] at isPhp isWp
        exact .object isPhp isWp
    | arr items =>
        rw [fields?] at areFields
        split at areFields
        · rename_i notTooMany
          cases areFields
          rcases items with _ | ⟨first, _ | ⟨second, _ | ⟨third, more⟩⟩⟩
          · cases isPhp
          · cases isWp
          · cases isPhp
            cases isWp
            exact .list
          · exact absurd notTooMany (by simp)
        · cases areFields
    | _ => cases areFields
  · intro isWritten
    cases isWritten with
    | object isPhp isWp =>
        obtain ⟨fields, areFields⟩ := exists_fields?_obj (Json.isDistinct_obj.mp distinct).1
          ["php", "wp"]
        rw [ofFields fields areFields, lookup_of_fields?_obj areFields (by decide),
          lookup_of_fields?_obj areFields (by decide)]
        exact ⟨isPhp, isWp⟩
    | list => rfl

/-! ## Entries -/

/-- The entry as which an item is kept: the instruction that it denotes, or the item itself if it
denotes none. -/
inductive Entry.Keeps (item : Json) : Entry → Prop
  | known {instruction : Instruction} (denotes : instruction.IsDenotedBy item) :
    Keeps item (.known instruction)
  | foreign (noInstruction : ∀ instruction : Instruction, ¬ instruction.IsDenotedBy item) :
    Keeps item (.foreign item)

namespace Entry

/-- What is no known instruction is kept as it is. -/
theorem eq_of_ofJson_eq_foreign {item value : Json} (isForeign : ofJson item = .foreign value) :
    item = value := by
  rw [ofJson] at isForeign
  split at isForeign
  · cases isForeign
  · exact Entry.foreign.inj isForeign

/-- A value is known exactly as the instruction that it denotes. -/
theorem ofJson_eq_known_iff_isDenotedBy {value : Json} (distinct : value.isDistinct)
    {instruction : Instruction} : ofJson value = .known instruction ↔ instruction.IsDenotedBy value :=
  ofJson_eq_known_iff.trans (Instruction.ofJson?_eq_some_iff_isDenotedBy distinct)

theorem keeps_iff {item : Json} (distinct : item.isDistinct) {entry : Entry} :
    Keeps item entry ↔ entry = ofJson item := by
  constructor
  · intro keeps
    cases keeps with
    | known denotes => exact ((ofJson_eq_known_iff_isDenotedBy distinct).mpr denotes).symm
    | foreign noInstruction =>
        cases isEntry : ofJson item with
        | known instruction =>
            exact absurd ((ofJson_eq_known_iff_isDenotedBy distinct).mp isEntry)
              (noInstruction instruction)
        | foreign value => rw [eq_of_ofJson_eq_foreign isEntry]
  · rintro rfl
    cases isEntry : ofJson item with
    | known instruction => exact .known ((ofJson_eq_known_iff_isDenotedBy distinct).mp isEntry)
    | foreign value =>
        obtain rfl := eq_of_ofJson_eq_foreign isEntry
        refine .foreign fun instruction denotes => ?_
        cases isEntry.symm.trans ((ofJson_eq_known_iff_isDenotedBy distinct).mpr denotes)

/-- Items are kept as what they are read as, in order. -/
theorem forall₂_keeps_iff {items : List Json} (distinct : ∀ item ∈ items, item.isDistinct)
    {entries : List Entry} : List.Forall₂ Keeps items entries ↔ entries = items.map ofJson := by
  constructor
  · intro kept
    induction kept with
    | nil => rfl
    | cons keeps _ inductionHypothesis =>
        obtain ⟨itemDistinct, restDistinct⟩ := List.forall_mem_cons.mp distinct
        rw [List.map_cons, (keeps_iff itemDistinct).mp keeps, inductionHypothesis restDistinct]
  · rintro rfl
    induction items with
    | nil => exact .nil
    | cons item rest inductionHypothesis =>
        obtain ⟨itemDistinct, restDistinct⟩ := List.forall_mem_cons.mp distinct
        exact .cons ((keeps_iff itemDistinct).mpr rfl) (inductionHypothesis restDistinct)

end Entry

/-! ## Objects that say a document -/

namespace Document

/-- What a document that is read from an object has in it. -/
structure IsReadFrom (document : Document) (members : Members Json) : Prop where
  /-- There are steps, and each of them is kept in its place. -/
  entries : ∃ items, members.get? "steps" = some (.arr items) ∧ items ≠ [] ∧
    List.Forall₂ Entry.Keeps items document.entries
  landingPage : (members.get? "landingPage" = none ∧ document.landingPage = "") ∨
    members.get? "landingPage" = some (.str document.landingPage)
  versions : (members.get? "preferredVersions" = none ∧ document.versions = ⟨"", ""⟩) ∨
    ∃ value, members.get? "preferredVersions" = some value ∧ document.versions.IsWrittenAs value
  extensionBundles :
    (members.get? "phpExtensionBundles" = none ∧ document.extensionBundles = []) ∨
      members.get? "phpExtensionBundles" = some (.texts document.extensionBundles)

/-- An object from which a document can be read. -/
structure IsImportable (members : Members Json) : Prop where
  steps : ∃ items, members.get? "steps" = some (.arr items) ∧ items ≠ []
  landingPage : ∀ value, members.get? "landingPage" = some value → ∃ text, value = .str text
  versions : ∀ value, members.get? "preferredVersions" = some value →
    ∃ versions : Versions, versions.IsWrittenAs value
  extensionBundles : ∀ value, members.get? "phpExtensionBundles" = some value →
    ∃ texts, value = .texts texts

theorem parse_eq_ok_iff {text : String} {document : Document} :
    parse text = .ok document ↔
      ∃ value, Json.parse? text = some value ∧ hasSteps value ∧ ofJson? value = some document := by
  rw [parse]
  cases Json.parse? text with
  | none => simp
  | some value =>
      by_cases steps : hasSteps value
      · cases isRead : ofJson? value <;> simp [steps, isRead]
      · simp [steps]

theorem hasSteps_obj_iff {members : Members Json} :
    hasSteps (.obj members) ↔
      ∃ items, members.get? "steps" = some (.arr items) ∧ items ≠ [] := by
  rw [hasSteps, Json.member?]
  constructor
  · intro steps
    split at steps
    · exact ⟨_, ‹_›, List.cons_ne_nil _ _⟩
    · cases steps
  · rintro ⟨items, isSteps, notEmpty⟩
    obtain ⟨first, rest, rfl⟩ := List.exists_cons_of_ne_nil notEmpty
    rw [Members.get?] at isSteps
    rw [isSteps]

/-- A value with steps is an object. -/
theorem exists_members_of_hasSteps {value : Json} (steps : hasSteps value) :
    ∃ members, value = .obj members := by
  cases value with
  | obj members => exact ⟨members, rfl⟩
  | _ => cases steps

/-- A document is read field by field. -/
theorem ofJson?_eq_some_iff {value : Json} {fields : Fields}
    (areFields : fields? ["landingPage", "preferredVersions", "phpExtensionBundles", "steps"] value =
      some fields) {document : Document} :
    ofJson? value = some document ↔
      fields.withDefault "landingPage" "" text? = some document.landingPage ∧
      fields.withDefault "preferredVersions" ⟨"", ""⟩ Versions.ofJson? = some document.versions ∧
      fields.withDefault "phpExtensionBundles" [] (list? text?) = some document.extensionBundles ∧
      fields.withDefault "steps" [] (list? fun value => some (Entry.ofJson value)) =
        some document.entries := by
  simp only [ofJson?, areFields, Option.bind_eq_bind, Option.bind_some, Option.bind_eq_some_iff]
  constructor
  · rintro ⟨_, landingPage, _, versions, _, extensionBundles, _, entries, equal⟩
    cases equal
    exact ⟨landingPage, versions, extensionBundles, entries⟩
  · rintro ⟨landingPage, versions, extensionBundles, entries⟩
    exact ⟨_, landingPage, _, versions, _, extensionBundles, _, entries, rfl⟩

/-- The document that an object with steps says is the one that is read from it. -/
theorem isReadFrom_iff {members : Members Json} (distinct : (Json.obj members).isDistinct)
    {document : Document} :
    document.IsReadFrom members ↔
      hasSteps (.obj members) ∧ ofJson? (.obj members) = some document := by
  obtain ⟨namesDistinct, valuesDistinct⟩ := Json.isDistinct_obj.mp distinct
  obtain ⟨fields, areFields⟩ := exists_fields?_obj namesDistinct
    ["landingPage", "preferredVersions", "phpExtensionBundles", "steps"]
  have lookup : ∀ name ∈ ["landingPage", "preferredVersions", "phpExtensionBundles", "steps"],
      fields.lookup name = members.get? name := fun name known =>
    lookup_of_fields?_obj areFields known
  have distinctOf : ∀ name value, members.get? name = some value → value.isDistinct :=
    fun name value isValue => valuesDistinct (name, value) (Members.mem_of_get? isValue)
  have keeps_iff : ∀ items, members.get? "steps" = some (.arr items) →
      (List.Forall₂ Entry.Keeps items document.entries ↔
        document.entries = items.map Entry.ofJson) :=
    fun items isSteps => Entry.forall₂_keeps_iff (Json.isDistinct_arr.mp (distinctOf _ _ isSteps))
  rw [ofJson?_eq_some_iff areFields, hasSteps_obj_iff]
  simp only [Fields.withDefault_eq_some_iff, lookup _ List.mem_cons_self,
    lookup "preferredVersions" (by decide), lookup "phpExtensionBundles" (by decide),
    lookup "steps" (by decide), text?_eq_some_iff, list?_text?_eq_some_iff, exists_eq_right,
    list?_some_eq_some_iff]
  constructor
  · rintro ⟨⟨items, isSteps, notEmpty, kept⟩, landingPage, versions, extensionBundles⟩
    refine ⟨⟨items, isSteps, notEmpty⟩, landingPage, versions.imp_right ?_, extensionBundles,
      Or.inr ⟨.arr items, isSteps, items, rfl, (keeps_iff items isSteps).mp kept⟩⟩
    rintro ⟨value, isValue, isWritten⟩
    exact ⟨value, isValue, (Versions.ofJson?_eq_some_iff (distinctOf _ _ isValue)).mpr isWritten⟩
  · rintro ⟨⟨items, isSteps, notEmpty⟩, landingPage, versions, extensionBundles, entries⟩
    refine ⟨⟨items, isSteps, notEmpty, (keeps_iff items isSteps).mpr ?_⟩, landingPage,
      versions.imp_right ?_, extensionBundles⟩
    · rcases entries with ⟨noSteps, -⟩ | ⟨value, isValue, others, rfl, entriesEq⟩
      · cases noSteps.symm.trans isSteps
      · cases isValue.symm.trans isSteps
        exact entriesEq
    · rintro ⟨value, isValue, isRead⟩
      exact ⟨value, isValue, (Versions.ofJson?_eq_some_iff (distinctOf _ _ isValue)).mp isRead⟩

/-- A member that may be missing says something if its value, if there is one, has the right
form. -/
theorem exists_default_or_value {α : Type} {value? : Option Json} (default : α)
    {form : α → Json → Prop} (formed : ∀ value, value? = some value → ∃ a, form a value) :
    ∃ a, (value? = none ∧ a = default) ∨ ∃ value, value? = some value ∧ form a value := by
  cases value? with
  | none => exact ⟨default, Or.inl ⟨rfl, rfl⟩⟩
  | some value =>
      obtain ⟨a, isFormed⟩ := formed value rfl
      exact ⟨a, Or.inr ⟨value, rfl, isFormed⟩⟩

/-- Exactly the importable objects say a document. -/
theorem exists_isReadFrom_iff {members : Members Json} (distinct : (Json.obj members).isDistinct) :
    (∃ document : Document, document.IsReadFrom members) ↔ IsImportable members := by
  constructor
  · rintro ⟨document, entries, landingPage, versions, extensionBundles⟩
    obtain ⟨items, isSteps, notEmpty, -⟩ := entries
    refine ⟨⟨items, isSteps, notEmpty⟩, fun value isValue => ?_, fun value isValue => ?_,
      fun value isValue => ?_⟩
    · rw [isValue] at landingPage
      rcases landingPage with ⟨missing, -⟩ | isText
      · cases missing
      · exact ⟨_, Option.some.inj isText⟩
    · rw [isValue] at versions
      rcases versions with ⟨missing, -⟩ | ⟨_, equal, isWritten⟩
      · cases missing
      · cases equal
        exact ⟨_, isWritten⟩
    · rw [isValue] at extensionBundles
      rcases extensionBundles with ⟨missing, -⟩ | areTexts
      · cases missing
      · exact ⟨_, Option.some.inj areTexts⟩
  · rintro ⟨⟨items, isSteps, notEmpty⟩, landingPage, versions, extensionBundles⟩
    obtain ⟨landingPage, isLandingPage⟩ := exists_default_or_value "" landingPage
    obtain ⟨versions, areVersions⟩ := exists_default_or_value ⟨"", ""⟩ versions
    obtain ⟨extensionBundles, areBundles⟩ := exists_default_or_value [] extensionBundles
    have itemsDistinct := Json.isDistinct_arr.mp
      ((Json.isDistinct_obj.mp distinct).2 _ (Members.mem_of_get? isSteps))
    refine ⟨⟨landingPage, versions, extensionBundles, items.map Entry.ofJson⟩,
      ⟨items, isSteps, notEmpty, (Entry.forall₂_keeps_iff itemsDistinct).mpr rfl⟩, ?_,
      areVersions, ?_⟩
    · simpa using isLandingPage
    · simpa using areBundles

/-- Steps may be replaced by any others. -/
theorem IsImportable.set_steps {members : Members Json} (importable : IsImportable members)
    {items : List Json} (notEmpty : items ≠ []) :
    IsImportable (members.set "steps" (.arr items)) where
  steps := ⟨items, members.get?_set_self "steps" _, notEmpty⟩
  landingPage := by
    rw [Members.get?_set_of_ne (by decide)]
    exact importable.landingPage
  versions := by
    rw [Members.get?_set_of_ne (by decide)]
    exact importable.versions
  extensionBundles := by
    rw [Members.get?_set_of_ne (by decide)]
    exact importable.extensionBundles

/-! ## Imported texts -/

/-- How a text is imported. -/
structure IsImportedExactly (text : String) : Prop where
  /-- Exactly the strict JSON texts of importable objects are imported. -/
  accepted : (∃ document, parse text = .ok document) ↔
    ∃ members, Json.IsTextOf (.obj members) text ∧ IsImportable members
  /-- What is imported is the document that the object says, with each of its steps kept. -/
  kept : ∀ document, parse text = .ok document ↔
    ∃ members, Json.IsTextOf (.obj members) text ∧ document.IsReadFrom members
  /-- The steps of an importable object may be replaced by any others. -/
  anySteps : ∀ members items, IsImportable members → items ≠ [] →
    Json.IsTextOf (.obj (members.set "steps" (.arr items))) text →
      ∃ document, parse text = .ok document

theorem parse_eq_ok_iff_isReadFrom {text : String} {document : Document} :
    parse text = .ok document ↔
      ∃ members, Json.IsTextOf (.obj members) text ∧ document.IsReadFrom members := by
  rw [parse_eq_ok_iff]
  simp only [Json.parse?_eq_some_iff]
  constructor
  · rintro ⟨value, isText, steps, isRead⟩
    obtain ⟨members, rfl⟩ := exists_members_of_hasSteps steps
    exact ⟨members, isText, (isReadFrom_iff isText.isDistinct).mpr ⟨steps, isRead⟩⟩
  · rintro ⟨members, isText, isRead⟩
    exact ⟨.obj members, isText, (isReadFrom_iff isText.isDistinct).mp isRead⟩

/-- Texts are imported exactly if they are the strict JSON texts of importable objects, with
everything that the object says and each of its steps. -/
theorem importsExactly (text : String) : IsImportedExactly text := by
  have accepted : (∃ document, parse text = .ok document) ↔
      ∃ members, Json.IsTextOf (.obj members) text ∧ IsImportable members := by
    simp only [parse_eq_ok_iff_isReadFrom]
    constructor
    · rintro ⟨document, members, isText, isRead⟩
      exact ⟨members, isText, (exists_isReadFrom_iff isText.isDistinct).mp ⟨document, isRead⟩⟩
    · rintro ⟨members, isText, importable⟩
      obtain ⟨document, isRead⟩ := (exists_isReadFrom_iff isText.isDistinct).mpr importable
      exact ⟨document, members, isText, isRead⟩
  refine ⟨accepted, fun document => parse_eq_ok_iff_isReadFrom, ?_⟩
  intro members items importable notEmpty isText
  exact accepted.mpr ⟨_, isText, importable.set_steps notEmpty⟩

end Document

end SiteScript

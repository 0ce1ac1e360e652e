import SiteScript.Script.Document
import SiteScript.Proofs.Record

/-!
# The entries of a script are read back

An instruction is read from its written form, and an entry that is no known instruction
stays one.  So a document whose entries have been read is read from its own written form.
-/

namespace SiteScript

open Record

/-! ## Resources -/

/-- A written resource is read, whichever form its tag may have. -/
@[simp]
theorem Resource.ofJson?_toJson (form : TagForm) (resource : Resource) :
    Resource.ofJson? form resource.toJson = some resource := by
  cases resource <;> rfl

@[simp]
theorem Resource.isDistinct_toJson (resource : Resource) : resource.toJson.isDistinct := by
  cases resource <;> rfl

/-! ## Instructions -/

namespace Instruction

/-- A written instruction is read. -/
@[simp]
theorem ofJson?_toJson (form : TagForm) (instruction : Instruction) :
    ofJson? form instruction.toJson = some instruction := by
  cases instruction with
  | installPlugin source activate => cases source <;> rfl
  | installTheme source activate => cases source <;> rfl
  | importContent file => cases file <;> rfl
  | _ => rfl

/-- The options or constants that an instruction sets, as an object. -/
def kept : Instruction → List Json
  | .setSiteOptions options => [.obj options]
  | .defineConstants constants => [.obj constants]
  | _ => []

/-- A written instruction names each member once if its options or constants do. -/
theorem isDistinct_toJson_iff {instruction : Instruction} :
    instruction.toJson.isDistinct ↔ ∀ value ∈ instruction.kept, value.isDistinct := by
  cases instruction <;> simp [toJson, members, kept, installOptions]

/-- An instruction that has been read names each member once if what it was read from does. -/
theorem isDistinct_toJson {form : TagForm} {value : Json} {instruction : Instruction}
    (distinct : value.isDistinct) (isRead : ofJson? form value = some instruction) :
    instruction.toJson.isDistinct := by
  obtain ⟨⟨tag, rest⟩, isSplit, isRead⟩ := Option.bind_eq_some_iff.mp isRead
  obtain ⟨kind, -, isRead⟩ := Option.bind_eq_some_iff.mp isRead
  have restDistinct := isDistinct_of_splitTag? distinct isSplit
  have ofMembers : ∀ {names name members} {fields : Fields}, fields? names rest = some fields →
      fields.required name members? = some members → (Json.obj members).isDistinct := by
    intro names name members fields areFields areMembers
    obtain ⟨field, isField, areMembers⟩ := Fields.exists_of_required areMembers
    rw [← obj_of_members? areMembers]
    exact isDistinct_of_fields? restDistinct areFields field isField
  rw [isDistinct_toJson_iff]
  cases kind
  case setSiteOptions | defineConstants =>
    obtain ⟨fields, areFields, isRead⟩ := Option.bind_eq_some_iff.mp isRead
    obtain ⟨members, areMembers, isRead⟩ := Option.bind_eq_some_iff.mp isRead
    obtain rfl := Option.some.inj isRead
    exact List.forall_mem_singleton.mpr (ofMembers areFields areMembers)
  case importContent | command | runPhp =>
    obtain ⟨fields, -, isRead⟩ := Option.bind_eq_some_iff.mp isRead
    obtain ⟨_, -, isRead⟩ := Option.bind_eq_some_iff.mp isRead
    obtain rfl := Option.some.inj isRead
    exact nofun
  case login | installPlugin | installTheme =>
    obtain ⟨fields, -, isRead⟩ := Option.bind_eq_some_iff.mp isRead
    obtain ⟨_, -, isRead⟩ := Option.bind_eq_some_iff.mp isRead
    obtain ⟨_, -, isRead⟩ := Option.bind_eq_some_iff.mp isRead
    obtain rfl := Option.some.inj isRead
    exact nofun

end Instruction

/-! ## Entries -/

namespace Entry

/-- A value is a known entry exactly if it is read as an instruction. -/
theorem ofJson_eq_known_iff {value : Json} {instruction : Instruction} :
    ofJson value = known instruction ↔
      Instruction.ofJson? .namedOrNumbered value = some instruction := by
  rw [ofJson]
  cases Instruction.ofJson? .namedOrNumbered value with
  | none => exact iff_of_false nofun nofun
  | some other => rw [known.injEq, Option.some.injEq]

/-- An entry that is read again as what it is. -/
def IsStable (entry : Entry) : Prop :=
  ofJson entry.toJson = entry

/-- Instructions are stable. -/
theorem isStable_known (instruction : Instruction) : (known instruction).IsStable :=
  ofJson_eq_known_iff.mpr (instruction.ofJson?_toJson _)

/-- What has been read is stable. -/
theorem isStable_ofJson (value : Json) : (ofJson value).IsStable := by
  rw [ofJson]
  split
  · exact isStable_known _
  · rename_i noInstruction
    rw [IsStable, toJson, ofJson, noInstruction]

/-- A stable entry that is no known instruction is not read as one. -/
theorem IsStable.ofJson?_eq_none {value : Json} (isStable : (foreign value).IsStable) :
    Instruction.ofJson? .namedOrNumbered value = none := by
  rw [IsStable, toJson, ofJson] at isStable
  split at isStable
  · cases isStable
  · assumption

/-- An entry that has been read names each member once if what it was read from does. -/
theorem isDistinct_toJson_ofJson {value : Json} (distinct : value.isDistinct) :
    (ofJson value).toJson.isDistinct := by
  rw [ofJson]
  split
  · exact Instruction.isDistinct_toJson distinct (by assumption)
  · exact distinct

end Entry

/-! ## Documents -/

namespace Document

/-- A written document names each member once if its entries do. -/
theorem isDistinct_toJson_iff {document : Document} :
    document.toJson.isDistinct ↔ ∀ entry ∈ document.entries, entry.toJson.isDistinct := by
  simp [toJson, Versions.toJson]

/-- A document of stable entries is read from its written form. -/
theorem ofJson?_toJson {document : Document} (stable : ∀ entry ∈ document.entries, entry.IsStable) :
    ofJson? document.toJson = some document := by
  have entriesRead : list? (fun value => some (Entry.ofJson value))
      (.arr (document.entries.map Entry.toJson)) = some document.entries :=
    list?_map fun entry isEntry => congrArg some (stable entry isEntry)
  have isRead : ofJson? document.toJson =
      (list? text? (.texts document.extensionBundles)).bind fun bundles =>
        (list? (fun value => some (Entry.ofJson value))
          (.arr (document.entries.map Entry.toJson))).bind fun entries =>
            some { document with extensionBundles := bundles, entries } :=
    rfl
  rw [isRead, list?_texts, Option.bind_some, entriesRead, Option.bind_some]

/-- A document that is not empty has steps. -/
theorem hasSteps_toJson {document : Document} (notEmpty : document.entries ≠ []) :
    hasSteps document.toJson := by
  obtain ⟨entry, rest, entriesEq⟩ := List.exists_cons_of_ne_nil notEmpty
  simp [hasSteps, toJson, Json.member?, List.lookup_cons, entriesEq]

/-- A document of stable entries is imported from any text that is read as its written form. -/
theorem parse_eq_ok {document : Document} (notEmpty : document.entries ≠ [])
    (stable : ∀ entry ∈ document.entries, entry.IsStable) {text : String}
    (isText : Json.parse? text = some document.toJson) : parse text = .ok document := by
  rw [parse, isText]
  simp [hasSteps_toJson notEmpty, ofJson?_toJson stable]

/-- The steps of a value that has any are among its fields. -/
theorem exists_lookup_of_hasSteps {value : Json} (steps : hasSteps value) {fields : Fields}
    (areFields : fields? ["landingPage", "preferredVersions", "phpExtensionBundles", "steps"] value =
      some fields) :
    ∃ first rest, fields.lookup "steps" = some (.arr (first :: rest)) := by
  rw [hasSteps] at steps
  split at steps
  · rename_i first rest isSteps
    cases value with
    | obj members =>
        refine ⟨first, rest, ?_⟩
        rw [lookup_of_fields?_obj areFields (by decide)]
        exact isSteps
    | _ => cases isSteps
  · cases steps

/-- The entries of a document are read from the items of a list, which is not empty if there are
steps. -/
theorem exists_entries_eq {value : Json} {document : Document}
    (isRead : ofJson? value = some document) :
    ∃ items, document.entries = items.map Entry.ofJson ∧
      (value.isDistinct → ∀ item ∈ items, item.isDistinct) ∧ (hasSteps value → items ≠ []) := by
  rw [ofJson?] at isRead
  obtain ⟨fields, areFields, isRead⟩ := Option.bind_eq_some_iff.mp isRead
  obtain ⟨landingPage, -, isRead⟩ := Option.bind_eq_some_iff.mp isRead
  obtain ⟨versions, -, isRead⟩ := Option.bind_eq_some_iff.mp isRead
  obtain ⟨bundles, -, isRead⟩ := Option.bind_eq_some_iff.mp isRead
  obtain ⟨entries, areEntries, isRead⟩ := Option.bind_eq_some_iff.mp isRead
  obtain rfl := Option.some.inj isRead
  rw [Fields.withDefault] at areEntries
  split at areEntries
  · rename_i noSteps
    obtain rfl := Option.some.inj areEntries
    refine ⟨[], rfl, fun _ => List.forall_mem_nil _, fun steps => ?_⟩
    obtain ⟨first, rest, isSteps⟩ := exists_lookup_of_hasSteps steps areFields
    cases noSteps.symm.trans isSteps
  · rename_i stepsValue isSteps
    obtain ⟨items, rfl, rfl⟩ := exists_of_list?_some areEntries
    refine ⟨items, rfl, fun distinct => ?_, fun steps => ?_⟩
    · rw [← Json.isDistinct_arr]
      exact isDistinct_of_fields? distinct areFields _ (Members.mem_of_get? isSteps)
    · obtain ⟨first, rest, isThere⟩ := exists_lookup_of_hasSteps steps areFields
      cases isSteps.symm.trans isThere
      exact List.cons_ne_nil first rest

/-- An imported document has entries, each of which is stable, and names each member once. -/
theorem of_parse_eq_ok {text : String} {document : Document} (isRead : parse text = .ok document) :
    document.entries ≠ [] ∧ (∀ entry ∈ document.entries, entry.IsStable) ∧
      document.toJson.isDistinct := by
  rw [parse] at isRead
  split at isRead
  · cases isRead
  rename_i value isValue
  obtain ⟨written, -, rfl⟩ := Option.map_eq_some_iff.mp isValue
  split at isRead
  · rename_i steps
    split at isRead
    · rename_i document valueRead
      cases isRead
      obtain ⟨items, entriesEq, distinct, notEmpty⟩ := exists_entries_eq valueRead
      rw [isDistinct_toJson_iff, entriesEq]
      refine ⟨?_, ?_, ?_⟩
      · rw [ne_eq, List.map_eq_nil_iff]
        exact notEmpty steps
      · exact List.forall_mem_map.mpr fun item _ => Entry.isStable_ofJson item
      · exact List.forall_mem_map.mpr fun item isItem =>
          Entry.isDistinct_toJson_ofJson (distinct written.isDistinct_merged item isItem)
    · cases isRead
  · cases isRead

end Document

end SiteScript

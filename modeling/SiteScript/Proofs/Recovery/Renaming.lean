import SiteScript.Proofs.Compile.Renaming
import SiteScript.Proofs.Compile.Reordering
import SiteScript.Proofs.Recovery.RoundTrip

/-!
# Recovering under other identifiers

Recovering a script looks at identifiers only to refer to steps.  So under a renamed supply the
same steps are recovered, renamed, and as they refer to nothing but each other, they compile to the
same script.  Any supply is a renamed one, hence it does not matter which one is used.
-/

namespace SiteScript

open Compile (visitPlan)
open Recovery

/-- What is recovered, with all identifiers renamed. -/
def Recovery.renamed (rename : String → String) (recovery : Recovery) : Recovery :=
  { recovery with steps := recovery.steps.map (.renamed rename) }

namespace Recovery

open Text (clean)

variable {rename : String → String} {ids : Ids} {steps later : List Step}

/-! ## Replacing a step -/

/-- The last element is replaced at the same place of an image of a list, if replacing commutes
with taking the image. -/
theorem replaceLast?_map {α β : Type} {image : α → β} {replacement? : α → Option α}
    {other? : β → Option β} (commutes : ∀ a, other? (image a) = (replacement? a).map image)
    (list : List α) :
    replaceLast? other? (list.map image) = (replaceLast? replacement? list).map (.map image) := by
  induction list with
  | nil => rfl
  | cons a rest inductionHypothesis =>
      rw [List.map_cons, replaceLast?, replaceLast?, inductionHypothesis, commutes]
      cases replaceLast? replacement? rest with
      | some replaced => rfl
      | none => cases replacement? a <;> rfl

theorem content?_renamed (step : Step) : content? (step.renamed rename) = content? step := by
  obtain ⟨id, kind⟩ := step
  cases kind <;> rfl

theorem withImage?_renamed (image : String) (step : Step) :
    withImage? image (step.renamed rename) = (withImage? image step).map (.renamed rename) := by
  obtain ⟨id, kind⟩ := step
  cases kind <;> rfl

theorem withMenu?_renamed {change changeRenamed : Menu → Menu}
    (commutes : ∀ menu, changeRenamed (menu.renamed rename) = (change menu).renamed rename)
    (name : String) (step : Step) :
    withMenu? name changeRenamed (step.renamed rename) =
      (withMenu? name change step).map (.renamed rename) := by
  obtain ⟨id, kind⟩ := step
  cases kind with
  | createMenu menu =>
      have sameName : (menu.renamed rename).name = menu.name := rfl
      simp only [withMenu?, Step.renamed, StepKind.renamed, commutes, sameName]
      by_cases named : menu.name = name
      · rw [if_pos named, if_pos named]
        rfl
      · rw [if_neg named, if_neg named]
        rfl
  | _ => rfl

/-! ## Meeting a demand -/

/-- What is added refers to no step. -/
theorem references_of_isFresh {kind : StepKind} (fresh : IsFresh kind) : kind.references = [] := by
  cases fresh with
  | content draft =>
      obtain ⟨type, details⟩ := draft
      cases type <;> rfl
  | _ => rfl

theorem renamed_of_isFresh {kind : StepKind} (fresh : IsFresh kind) :
    kind.renamed rename = kind := by
  cases fresh with
  | content draft =>
      obtain ⟨type, details⟩ := draft
      cases type <;> rfl
  | _ => rfl

theorem pushAll_renamed (steps : List Step) {kinds : List StepKind}
    (areFresh : ∀ kind ∈ kinds, IsFresh kind) :
    pushAll (rename ∘ ids) (steps.map (.renamed rename)) kinds =
      (pushAll ids steps kinds).map (.renamed rename) := by
  induction kinds generalizing steps with
  | nil => rfl
  | cons kind rest inductionHypothesis =>
      obtain ⟨fresh, restFresh⟩ := List.forall_mem_cons.mp areFresh
      have pushed : push (rename ∘ ids) (steps.map (.renamed rename)) kind =
          (push ids steps kind).map (.renamed rename) := by
        rw [push, push, List.map_append, List.length_map, List.map_singleton, Step.renamed,
          renamed_of_isFresh fresh]
        rfl
      rw [pushAll, List.foldl_cons, pushed]
      exact inductionHypothesis (push ids steps kind) restFresh

theorem attachImage_renamed (steps : List Step) (image : String) :
    attachImage (steps.map (.renamed rename)) image =
      (attachImage steps image).map (.map (.renamed rename)) := by
  have sameContent : content? ∘ Step.renamed rename = content? :=
    funext content?_renamed
  rw [attachImage, attachImage, ← List.map_reverse, List.findSome?_map, sameContent,
    replaceLast?_map (withImage?_renamed image)]
  cases steps.reverse.findSome? content? with
  | none => rfl
  | some content =>
      simp only
      split
      · rfl
      · cases replaceLast? (withImage? image) steps <;> rfl

theorem changeMenu_renamed {change changeRenamed : Menu → Menu}
    (commutes : ∀ menu, changeRenamed (menu.renamed rename) = (change menu).renamed rename)
    (steps : List Step) (name : String) :
    changeMenu (steps.map (.renamed rename)) name changeRenamed =
      (changeMenu steps name change).map (.map (.renamed rename)) := by
  rw [changeMenu, changeMenu, replaceLast?_map (withMenu?_renamed commutes (clean name))]
  cases replaceLast? (withMenu? (clean name) change) steps <;> rfl

theorem item_renamed (steps : List Step) (lead : Lead) :
    lead.item (steps.map (.renamed rename)) = (lead.item steps).map (.renamed rename) := by
  cases lead with
  | address title url => rfl
  | page title =>
      have sameTitles : createsTitled (clean title) ∘ Step.renamed rename =
          createsTitled (clean title) := by
        funext step
        exact congrArg (Option.any _) (Compile.created?_renamed step.kind)
      rw [Lead.item, Lead.item, List.find?_map, sameTitles]
      cases steps.find? (createsTitled (clean title)) <;> rfl

/-- A demand that adds fresh steps is met under a renamed supply as under the supply itself. -/
theorem meet_renamed {demand : Demand} (areFresh : ∀ kind ∈ demand.kinds, IsFresh kind)
    (steps : List Step) :
    demand.meet (rename ∘ ids) (steps.map (.renamed rename)) =
      (demand.meet ids steps).map (.map (.renamed rename)) := by
  cases demand with
  | add kinds => exact congrArg Except.ok (pushAll_renamed steps areFresh)
  | attachImage url => exact attachImage_renamed steps url
  | addItem menu lead =>
      rw [Demand.meet, Demand.meet, item_renamed]
      cases lead.item steps with
      | error reason => rfl
      | ok item =>
          apply changeMenu_renamed
          intro menu
          simp only [addItem, Menu.renamed, List.map_append, List.map_singleton]
  | assignMenu menu location =>
      apply changeMenu_renamed
      exact fun menu => rfl
  | nothing => rfl

/-! ## Scripts -/

theorem readEntry_renamed (steps : List Step) (entry : Entry) :
    readEntry (rename ∘ ids) (steps.map (.renamed rename)) entry =
      (readEntry ids steps entry).map (.map (.renamed rename)) := by
  rw [readEntry_eq, readEntry_eq]
  cases asks : entry.demand with
  | error reason => rfl
  | ok demand => exact meet_renamed (brings_of_demand asks).isFresh steps

/-- Under a renamed supply the same is recovered, renamed. -/
theorem ofEntries_renamed (rename : String → String) (ids : Ids) (entries : List Entry) :
    ofEntries (rename ∘ ids) entries = (ofEntries ids entries).renamed rename := by
  refine run_induction
    (motive := fun entries _ recovery => ofEntries (rename ∘ ids) entries = recovery.renamed rename)
    rfl ?_ ?_ entries
  · intro entries entry later same reads
    have readsRenamed : readEntry (rename ∘ ids) (ofEntries (rename ∘ ids) entries).steps entry =
        .ok (later.map (.renamed rename)) := by
      rw [same, Recovery.renamed, readEntry_renamed, reads]
      rfl
    rw [ofEntries_append_singleton, read_of_ok readsRenamed, same]
    rfl
  · intro entries entry reason same fails
    have failsRenamed : readEntry (rename ∘ ids) (ofEntries (rename ∘ ids) entries).steps entry =
        .error reason := by
      rw [same, Recovery.renamed, readEntry_renamed, fails]
      rfl
    rw [ofEntries_append_singleton, read_of_error failsRenamed, same]
    rfl

/-! ## References of recovered steps -/

/-- Every reference among the steps is one to one of them. -/
def RefersWithin (steps : List Step) : Prop :=
  ∀ step ∈ steps, ∀ id ∈ step.kind.references, id ∈ steps.map Step.id

/-- References stay within the steps when a step gets no others than such. -/
theorem RefersWithin.replace {before after : List Step} {id : String} {kind changed : StepKind}
    (refers : RefersWithin (before ++ { id, kind } :: after))
    (within : ∀ reference ∈ changed.references, reference ∈ kind.references ∨
      reference ∈ (before ++ { id, kind } :: after).map Step.id) :
    RefersWithin (before ++ { id, kind := changed } :: after) := by
  intro step isStep reference refersTo
  rw [map_id_replaced before after id kind changed]
  rw [List.mem_append, List.mem_cons] at isStep
  rcases isStep with isBefore | rfl | isAfter
  · exact refers step (List.mem_append_left _ isBefore) reference refersTo
  · rcases within reference refersTo with isOld | isNew
    · exact refers { id, kind } (List.mem_append_right _ List.mem_cons_self) reference isOld
    · exact isNew
  · exact refers step (List.mem_append_right _ (List.mem_cons_of_mem _ isAfter)) reference refersTo

/-- An item that is asked for refers to one of the steps, if to any. -/
theorem mem_of_lead_item {lead : Lead} {item : MenuItem} (leads : lead.item steps = .ok item)
    {id : String} (hasId : item.pageId = some id) : id ∈ steps.map Step.id := by
  cases lead with
  | address title url =>
      cases leads
      cases hasId
  | page title =>
      rw [Lead.item] at leads
      split at leads
      · cases leads
      · rename_i page isFound
        cases leads
        cases hasId
        exact List.mem_map_of_mem (List.mem_of_find?_eq_some isFound)

theorem Change.refersWithin {demand : Demand} (change : Change ids steps demand later)
    (areFresh : ∀ kind ∈ demand.kinds, IsFresh kind) (refers : RefersWithin steps) :
    RefersWithin later := by
  cases change with
  | add _ kinds =>
      obtain ⟨added, isAppended, sameKinds⟩ := exists_pushAll_append ids steps kinds
      rw [isAppended]
      intro step isStep reference refersTo
      rw [List.map_append, List.mem_append]
      rcases List.mem_append.mp isStep with isOld | isNew
      · exact Or.inl (refers step isOld reference refersTo)
      · have isKind : step.kind ∈ kinds := by
          rw [← sameKinds]
          exact List.mem_map_of_mem isNew
        rw [references_of_isFresh (areFresh step.kind isKind)] at refersTo
        cases refersTo
  | attachImage before after id url draft =>
      apply refers.replace
      obtain ⟨type, details⟩ := draft
      cases type <;> exact fun reference refersTo => nomatch refersTo
  | addItem before after id name menu lead item named leads =>
      apply refers.replace
      intro reference refersTo
      rw [StepKind.references, Recovery.addItem, List.filterMap_append, List.mem_append] at refersTo
      rcases refersTo with isOld | isNew
      · exact Or.inl isOld
      · obtain ⟨other, isItem, hasId⟩ := List.mem_filterMap.mp isNew
        rw [List.mem_singleton.mp isItem] at hasId
        exact Or.inr (mem_of_lead_item leads hasId)
  | assignMenu before after id name location menu =>
      exact refers.replace fun reference refersTo => Or.inl refersTo
  | nothing => exact refers

/-- Recovered steps refer to each other and to nothing else. -/
theorem refersWithin_ofEntries (ids : Ids) (entries : List Entry) :
    RefersWithin (ofEntries ids entries).steps := by
  refine run_induction (motive := fun _ _ recovery => RefersWithin recovery.steps)
    (fun step isStep => nomatch isStep) ?_ ?_ entries
  · intro entries entry later refers reads
    obtain ⟨demand, asks, change⟩ := exists_change_of_readEntry reads
    exact change.refersWithin (brings_of_demand asks).isFresh refers
  · exact fun entries entry reason refers _ => refers

/-- References stay what they are when steps that refer to each other only come to have different
identifiers. -/
theorem RefersWithin.keepsReferences (refers : RefersWithin steps)
    (nodup : ((steps.map (.renamed rename)).map Step.id).Nodup) :
    KeepsReferences rename steps := by
  intro step isStep id refersTo other isOther same
  obtain ⟨page, isPage, rfl⟩ := List.mem_map.mp (refers step isStep id refersTo)
  rw [List.map_map] at nodup
  rw [List.inj_on_of_nodup_map nodup isOther isPage same]

/-- The identifiers of any supply are those of another one, renamed. -/
theorem exists_rename (ids : Ids) : ∃ rename : String → String, rename ∘ tally = ids :=
  ⟨Function.extend tally ids id, funext fun place => tally_injective.extend_apply ids id place⟩

/-- Recovered steps compile to what they compile to under the identifiers that grow from place to
place. -/
theorem compile_recovered (settings : Settings) {ids : Ids} {document : Document} (plan : Plan)
    (nodup : ((document.recover ids).steps.map Step.id).Nodup) :
    { plan with steps := (document.recover ids).steps }.compile settings =
      { plan with steps := (document.recover tally).steps }.compile settings := by
  obtain ⟨rename, rfl⟩ := exists_rename ids
  have renamed : document.recover (rename ∘ tally) = (document.recover tally).renamed rename :=
    ofEntries_renamed rename tally document.entries
  rw [renamed] at nodup ⊢
  have refers : RefersWithin (document.recover tally).steps :=
    refersWithin_ofEntries tally document.entries
  change (Plan.renamed rename { plan with steps := (document.recover tally).steps }).compile
    settings = _
  exact Compile.compile_renamed settings (refers.keepsReferences nodup)

end Recovery

/-- Scripts do not depend on the identifiers of steps. -/
structure Compile.IgnoresIdentifiers (settings : Settings) : Prop where
  /-- A plan compiles to the same script when its identifiers are renamed, and different ones
  stay different. -/
  compile_eq : ∀ rename : String → String, Function.Injective rename → ∀ plan : Plan,
    (plan.renamed rename).compile settings = plan.compile settings
  /-- The steps recovered from a script compile to the same script under any two supplies that
  give different identifiers to them. -/
  compile_recover_eq : ∀ (document : Document) (ids others : Recovery.Ids) (plan : Plan),
    ((document.recover ids).steps.map Step.id).Nodup →
    ((document.recover others).steps.map Step.id).Nodup →
    { plan with steps := (document.recover ids).steps }.compile settings =
      { plan with steps := (document.recover others).steps }.compile settings

/-- No script depends on the identifiers of steps. -/
theorem Compile.ignoresIdentifiers (settings : Settings) : IgnoresIdentifiers settings where
  compile_eq _ injective plan :=
    compile_renamed settings (keepsReferences_of_injective injective plan.steps)
  compile_recover_eq _ _ _ plan nodup otherNodup :=
    (compile_recovered settings plan nodup).trans (compile_recovered settings plan otherNodup).symm

/-- The identifier of a copy. -/
def copied (id : String) : String :=
  "copy-" ++ id

theorem copied_injective : Function.Injective copied :=
  fun _ _ same => (String.append_right_inj "copy-").mp same

theorem ignoresIdentifiers_visitPlan :
    Function.Injective copied ∧
      (visitPlan.renamed copied).compile .default = visitPlan.compile .default ∧
      (((visitPlan.compile .default).recover tally).steps.map Step.id).Nodup ∧
      (((visitPlan.compile .default).recover (copied ∘ tally)).steps.map Step.id).Nodup ∧
      { visitPlan with steps := ((visitPlan.compile .default).recover tally).steps }.compile
          .default =
        { visitPlan with
          steps := ((visitPlan.compile .default).recover (copied ∘ tally)).steps }.compile
            .default := by
  have nodup := nodup_ids_recover tally_injective (visitPlan.compile .default)
  have nodupCopies :=
    nodup_ids_recover (copied_injective.comp tally_injective) (visitPlan.compile .default)
  have ignores := Compile.ignoresIdentifiers .default
  exact ⟨copied_injective, ignores.compile_eq _ copied_injective visitPlan, nodup, nodupCopies,
    ignores.compile_recover_eq _ _ _ visitPlan nodup nodupCopies⟩

end SiteScript

import SiteScript.Proofs.Recovery.Changes
import SiteScript.Proofs.Recovery.Runs

/-!
# What becomes of the entries

Every entry of a script is accounted for by what is recovered.  It is dropped, or it has added its
steps, or its image or menu item is found in a step that another entry added.  Nothing is lost
and nothing comes twice.
-/

namespace SiteScript

open Recovery

/-- The kinds of the steps that an entry adds, if it is not dropped. -/
def Entry.addedKinds (entry : Entry) : List StepKind :=
  match entry.demand with
  | .ok demand => demand.kinds
  | .error _ => []

namespace Recovery

/-! ## What is counted -/

/-- A kind as it was added, without what later entries have brought. -/
def bare : StepKind → StepKind
  | .addPage content => .addPage { content with image := none }
  | .addPost content => .addPost { content with image := none }
  | .createMenu menu => .createMenu (.named menu.name)
  | kind => kind

/-- The image of the content that a step makes. -/
def image? : StepKind → Option String
  | .addPage content => content.image
  | .addPost content => content.image
  | _ => none

/-- The items of the menu that a step makes. -/
def items : StepKind → List MenuItem
  | .createMenu menu => menu.items
  | _ => []

/-- How many steps are added. -/
def Yield.stepCount : Yield → Nat
  | .steps count => count
  | _ => 0

/-- The image that is brought. -/
def Yield.image? : Yield → Option String
  | .image url => some url
  | _ => none

end Recovery

/-- The image that an entry stores. -/
def Entry.storedImage? (entry : Entry) : Option String :=
  entry.yield.image?

/-- Whether an entry adds an item to a menu. -/
def Entry.addsItem (entry : Entry) : Bool :=
  entry.yield = .item

namespace Recovery

variable {ids : Ids} {steps later : List Step} {demand : Demand}

/-- The kinds of the steps as they were added. -/
def bareKinds (steps : List Step) : List StepKind :=
  steps.map fun step => bare step.kind

/-- The images of the content that the steps make. -/
def images (steps : List Step) : List String :=
  steps.filterMap fun step => image? step.kind

/-- How many items the menus have that the steps make. -/
def totalItems (steps : List Step) : Nat :=
  (steps.flatMap fun step => items step.kind).length

theorem bareKinds_append (first second : List Step) :
    bareKinds (first ++ second) = bareKinds first ++ bareKinds second :=
  List.map_append

theorem images_append (first second : List Step) :
    images (first ++ second) = images first ++ images second :=
  List.filterMap_append

theorem totalItems_append (first second : List Step) :
    totalItems (first ++ second) = totalItems first + totalItems second := by
  rw [totalItems, List.flatMap_append, List.length_append]
  rfl

theorem bareKinds_cons (step : Step) (rest : List Step) :
    bareKinds (step :: rest) = bare step.kind :: bareKinds rest :=
  rfl

theorem images_cons (step : Step) (rest : List Step) :
    images (step :: rest) = (image? step.kind).toList ++ images rest := by
  rw [images, List.filterMap_cons]
  cases image? step.kind <;> rfl

theorem totalItems_cons (step : Step) (rest : List Step) :
    totalItems (step :: rest) = (items step.kind).length + totalItems rest :=
  List.length_append

/-! ## What one demand changes -/

theorem bare_of_isFresh {kind : StepKind} (fresh : IsFresh kind) : bare kind = kind := by
  cases fresh with
  | content draft noImage =>
      obtain ⟨type, details⟩ := draft
      obtain ⟨title, body, status, image⟩ := details
      cases noImage
      cases type <;> rfl
  | _ => rfl

theorem image?_bare (kind : StepKind) : image? (bare kind) = none := by
  cases kind <;> rfl

theorem items_bare (kind : StepKind) : items (bare kind) = [] := by
  cases kind <;> rfl

theorem bare_withImage (draft : Draft) (url : String) :
    bare (withImage draft url).kind = bare draft.kind := by
  obtain ⟨type, details⟩ := draft
  cases type <;> rfl

theorem image?_kind (draft : Draft) : image? draft.kind = draft.content.image := by
  obtain ⟨type, details⟩ := draft
  cases type <;> rfl

theorem items_kind (draft : Draft) : items draft.kind = [] := by
  obtain ⟨type, details⟩ := draft
  cases type <;> rfl

/-- A step that makes no content has no image. -/
theorem image?_eq_none_of_content? {step : Step} (noContent : content? step = none) :
    image? step.kind = none := by
  obtain ⟨id, kind⟩ := step
  cases kind <;> first | rfl | cases noContent

/-- The steps that are added are fresh, and stand as they were added. -/
theorem exists_pushAll_fresh (ids : Ids) (steps : List Step) (kinds : List StepKind)
    (areFresh : ∀ kind ∈ kinds, IsFresh kind) :
    ∃ added, pushAll ids steps kinds = steps ++ added ∧ added.map Step.kind = kinds ∧
      ∀ step ∈ added, bare step.kind = step.kind := by
  obtain ⟨added, isAppended, sameKinds⟩ := exists_pushAll_append ids steps kinds
  refine ⟨added, isAppended, sameKinds, fun step member => ?_⟩
  apply bare_of_isFresh
  apply areFresh
  rw [← sameKinds]
  exact List.mem_map_of_mem member

/-- Only the steps that are added add kinds. -/
theorem Change.bareKinds_eq (change : Change ids steps demand later)
    (areFresh : ∀ kind ∈ demand.kinds, IsFresh kind) :
    bareKinds later = bareKinds steps ++ demand.kinds := by
  cases change with
  | add _ kinds =>
      obtain ⟨added, isAppended, sameKinds, areBare⟩ := exists_pushAll_fresh ids steps kinds areFresh
      have addedKinds : bareKinds added = kinds := by
        rw [bareKinds, List.map_congr_left areBare]
        exact sameKinds
      rw [isAppended, bareKinds_append, addedKinds]
      rfl
  | attachImage before after id url draft =>
      simp only [bareKinds_append, bareKinds_cons, bare_withImage, Demand.kinds, List.append_nil]
  | addItem before after id name menu lead item =>
      simp only [bareKinds_append, bareKinds_cons, Demand.kinds, List.append_nil]
      rfl
  | assignMenu before after id name location menu =>
      simp only [bareKinds_append, bareKinds_cons, Demand.kinds, List.append_nil]
      rfl
  | nothing => exact (List.append_nil _).symm

/-- Only the image that is brought is added to the images, behind all others. -/
theorem Change.images_eq (change : Change ids steps demand later)
    (areFresh : ∀ kind ∈ demand.kinds, IsFresh kind) :
    images later = images steps ++ demand.yield.image?.toList := by
  cases change with
  | add _ kinds =>
      obtain ⟨added, isAppended, -, areBare⟩ := exists_pushAll_fresh ids steps kinds areFresh
      have noImages : images added = [] := by
        apply List.filterMap_eq_nil_iff.mpr
        intro step member
        rw [← areBare step member, image?_bare]
      rw [isAppended, images_append, noImages]
      rfl
  | attachImage before after id url draft noImage isLast =>
      have noneBehind : images after = [] :=
        List.filterMap_eq_nil_iff.mpr fun step member =>
          image?_eq_none_of_content? (isLast step member)
      have noneYet : image? draft.kind = none := by
        rw [image?_kind, noImage]
      have nowImage : image? (withImage draft url).kind = some url := image?_kind _
      simp only [images_append, images_cons, noneYet, nowImage, noneBehind, Demand.yield,
        Yield.image?, Option.toList_none, List.append_nil]
  | addItem before after id name menu lead item =>
      simp only [images_append, images_cons, Demand.yield, Yield.image?, Option.toList_none,
        List.append_nil]
      rfl
  | assignMenu before after id name location menu =>
      simp only [images_append, images_cons, Demand.yield, Yield.image?, Option.toList_none,
        List.append_nil]
      rfl
  | nothing => exact (List.append_nil _).symm

/-- Only an item that is brought adds to the items. -/
theorem Change.totalItems_eq (change : Change ids steps demand later)
    (areFresh : ∀ kind ∈ demand.kinds, IsFresh kind) :
    totalItems later = totalItems steps + if demand.yield = .item then 1 else 0 := by
  cases change with
  | add _ kinds =>
      obtain ⟨added, isAppended, -, areBare⟩ := exists_pushAll_fresh ids steps kinds areFresh
      have noItems : totalItems added = 0 := by
        apply List.length_eq_zero_iff.mpr
        apply List.flatMap_eq_nil_iff.mpr
        intro step isAdded
        rw [← areBare step isAdded, items_bare]
      rw [isAppended, totalItems_append, noItems]
      rfl
  | attachImage before after id url draft =>
      simp only [totalItems_append, totalItems_cons, items_kind]
      rfl
  | addItem before after id name menu lead item =>
      have oneMore : (items (menuStep id (Recovery.addItem item menu)).kind).length =
          (items (menuStep id menu).kind).length + 1 :=
        List.length_append
      rw [totalItems_append, totalItems_append, totalItems_cons, totalItems_cons, oneMore,
        Demand.yield, if_pos rfl]
      omega
  | assignMenu before after id name location menu =>
      simp only [totalItems_append, totalItems_cons]
      rfl
  | nothing => rfl

/-! ## What a run changes -/

section

variable (ids : Ids) (entries : List Entry)

theorem kindName_of_mem_dropped {drop : Drop} (isDrop : drop ∈ (ofEntries ids entries).dropped) :
    (entries[drop.index]?).map Entry.kindName = some drop.kind := by
  have ofEvery : ∀ drop ∈ (ofEntries ids entries).dropped,
      (entries[drop.index]?).map Entry.kindName = some drop.kind := by
    refine run_induction
      (motive := fun entries _ recovery => ∀ drop ∈ recovery.dropped,
        (entries[drop.index]?).map Entry.kindName = some drop.kind)
      (fun drop member => nomatch member) ?_ ?_ entries
    · intro entries entry later named reads drop member
      rw [List.getElem?_append_left ((dropsInOrder_ofEntries ids entries).bounded drop member)]
      exact named drop member
    · intro entries entry reason named reads drop member
      rcases List.mem_append.mp member with isEarlier | isLast
      · rw [List.getElem?_append_left
          ((dropsInOrder_ofEntries ids entries).bounded drop isEarlier)]
        exact named drop isEarlier
      · rw [List.mem_singleton.mp isLast]
        simp
  exact ofEvery drop isDrop

/-- What is no known instruction is dropped. -/
theorem mem_dropped_of_foreign {index : Nat} {value : Json}
    (isForeign : entries[index]? = some (.foreign value)) :
    index ∈ (ofEntries ids entries).dropped.map Drop.index := by
  have ofEvery : ∀ (index : Nat) (value : Json), entries[index]? = some (.foreign value) →
      index ∈ (ofEntries ids entries).dropped.map Drop.index := by
    refine run_induction
      (motive := fun entries _ recovery => ∀ (index : Nat) (value : Json),
        entries[index]? = some (.foreign value) → index ∈ recovery.dropped.map Drop.index)
      (fun index value isForeign => nomatch isForeign) ?_ ?_ entries
    · intro entries entry later areDropped reads index value isForeign
      rw [List.getElem?_append] at isForeign
      split at isForeign
      · exact areDropped index value isForeign
      · rw [List.getElem?_singleton] at isForeign
        split at isForeign
        · cases isForeign
          cases reads
        · cases isForeign
    · intro entries entry reason areDropped reads index value isForeign
      rw [Recovery.drop, List.map_append, List.mem_append]
      rw [List.getElem?_append] at isForeign
      split at isForeign
      · exact Or.inl (areDropped index value isForeign)
      · rw [List.getElem?_singleton] at isForeign
        split at isForeign
        · have isLast : index = entries.length := by omega
          exact Or.inr (List.mem_singleton.mpr isLast)
        · cases isForeign
  exact ofEvery index value isForeign

/-- The steps are those that the accepted entries have added. -/
theorem bareKinds_ofEntries :
    bareKinds (ofEntries ids entries).steps =
      (accepted ids entries).flatMap Entry.addedKinds := by
  refine run_induction
    (motive := fun _ accepted recovery =>
      bareKinds recovery.steps = accepted.flatMap Entry.addedKinds) rfl ?_ ?_ entries
  · intro entries entry later sameKinds reads
    obtain ⟨demand, asks, change⟩ := exists_change_of_readEntry reads
    have adds : entry.addedKinds = demand.kinds := by
      rw [Entry.addedKinds, asks]
    rw [accept, change.bareKinds_eq (brings_of_demand asks).isFresh, sameKinds,
      List.flatMap_append, List.flatMap_singleton, adds]
  · exact fun entries entry reason sameKinds _ => sameKinds

/-- The images are those that the accepted entries bring. -/
theorem images_ofEntries :
    images (ofEntries ids entries).steps =
      (accepted ids entries).filterMap Entry.storedImage? := by
  refine run_induction
    (motive := fun _ accepted recovery =>
      images recovery.steps = accepted.filterMap Entry.storedImage?) rfl ?_ ?_ entries
  · intro entries entry later sameImages reads
    obtain ⟨demand, asks, change⟩ := exists_change_of_readEntry reads
    have brings := brings_of_demand asks
    rw [accept, change.images_eq brings.isFresh, sameImages, List.filterMap_append,
      brings.yield_eq, ← Entry.storedImage?]
    cases isImage : entry.storedImage? with
    | none => rw [List.filterMap_cons_none isImage]; rfl
    | some url => rw [List.filterMap_cons_some isImage]; rfl
  · exact fun entries entry reason sameImages _ => sameImages

/-- The menus have as many items as accepted entries bring one. -/
theorem totalItems_ofEntries :
    totalItems (ofEntries ids entries).steps =
      (accepted ids entries).countP Entry.addsItem := by
  refine run_induction
    (motive := fun _ accepted recovery =>
      totalItems recovery.steps = accepted.countP Entry.addsItem) rfl ?_ ?_
    entries
  · intro entries entry later sameCount reads
    obtain ⟨demand, asks, change⟩ := exists_change_of_readEntry reads
    have brings := brings_of_demand asks
    rw [accept, change.totalItems_eq brings.isFresh, sameCount, List.countP_append,
      List.countP_singleton, brings.yield_eq, Entry.addsItem]
    simp only [decide_eq_true_eq]
  · exact fun entries entry reason sameCount _ => sameCount

/-- An accepted entry adds as many steps as its yield says. -/
theorem length_addedKinds {entry : Entry} (isAccepted : entry ∈ accepted ids entries) :
    entry.addedKinds.length = entry.yield.stepCount := by
  have ofEvery : ∀ entry ∈ accepted ids entries,
      entry.addedKinds.length = entry.yield.stepCount := by
    refine run_induction
      (motive := fun _ accepted _ => ∀ entry ∈ accepted,
        entry.addedKinds.length = entry.yield.stepCount)
      (fun entry member => nomatch member) ?_ ?_ entries
    · intro entries entry later counted reads other member
      rcases List.mem_append.mp member with isEarlier | isLast
      · exact counted other isEarlier
      · obtain ⟨demand, asks, -⟩ := exists_change_of_readEntry reads
        rw [List.mem_singleton.mp isLast, Entry.addedKinds, asks,
          ← (brings_of_demand asks).yield_eq]
        cases demand <;> rfl
    · exact fun entries entry reason counted _ => counted
  exact ofEvery entry isAccepted

end

end Recovery

/-- Every entry of a script is accounted for by what is recovered from it. -/
structure Document.IsAccountedFor (ids : Recovery.Ids) (document : Document) : Prop where
  /-- The places of dropped entries come in order, and are places of the script. -/
  dropsInOrder : DropsInOrder document.entries (document.recover ids).dropped
  /-- A dropped entry is told by the name of its kind. -/
  kindName_eq : ∀ drop ∈ (document.recover ids).dropped,
    (document.entries[drop.index]?).map Entry.kindName = some drop.kind
  /-- What is no known instruction is dropped. -/
  foreign_dropped : ∀ (index : Nat) (value : Json),
    document.entries[index]? = some (.foreign value) →
      index ∈ (document.recover ids).dropped.map Drop.index
  /-- The steps are those that the other entries add, in the order of the script. -/
  bareKinds_eq : bareKinds (document.recover ids).steps =
    (accepted ids document.entries).flatMap Entry.addedKinds
  /-- Such an entry adds as many steps as its kind says. -/
  length_addedKinds_eq : ∀ entry ∈ accepted ids document.entries,
    entry.addedKinds.length = entry.yield.stepCount
  /-- Options are set by one step each, in their order. -/
  addedKinds_setSiteOptions : ∀ options, .known (.setSiteOptions options) ∈
      accepted ids document.entries →
    (Entry.known (.setSiteOptions options)).addedKinds =
      options.map fun option => .setSiteOption { name := option.1, value := option.2 }
  /-- The images of the steps, in their order, are those that the other entries store. -/
  images_eq : images (document.recover ids).steps =
    (accepted ids document.entries).filterMap Entry.storedImage?
  /-- The menus have as many items as there are other entries that add one. -/
  totalItems_eq : totalItems (document.recover ids).steps =
    (accepted ids document.entries).countP Entry.addsItem

/-- Every entry of every script is accounted for. -/
theorem Document.isAccountedFor (ids : Recovery.Ids) (document : Document) :
    document.IsAccountedFor ids where
  dropsInOrder := dropsInOrder_ofEntries ids document.entries
  kindName_eq := fun _ isDrop => kindName_of_mem_dropped ids document.entries isDrop
  foreign_dropped := fun _ _ isForeign => mem_dropped_of_foreign ids document.entries isForeign
  bareKinds_eq := bareKinds_ofEntries ids document.entries
  length_addedKinds_eq := fun _ isAccepted => length_addedKinds ids document.entries isAccepted
  addedKinds_setSiteOptions := by
    intro options _
    cases options <;> rfl
  images_eq := images_ofEntries ids document.entries
  totalItems_eq := totalItems_ofEntries ids document.entries

end SiteScript

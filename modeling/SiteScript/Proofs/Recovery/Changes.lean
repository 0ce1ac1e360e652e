import SiteScript.Proofs.Recovery.Demands
import SiteScript.Proofs.Recovery.Reading

/-!
# How the steps change

A demand that is met adds steps at the end, or changes one step where it stands: content gets
an image, and a menu one more item or a place.  So a step that has been recovered stays at its
place, keeps its identifier and goes on making the same content, and a menu keeps its name and
the items that it has.
-/

namespace SiteScript.Recovery

open Text (clean)

variable {ids : Ids} {steps later : List Step}

/-! ## Replacing a step -/

section

variable {α : Type} {replacement? : α → Option α} {list replaced : List α}

/-- There is nothing to replace in a list if no element has a replacement. -/
theorem replaceLast?_eq_none_iff :
    replaceLast? replacement? list = none ↔ ∀ a ∈ list, replacement? a = none := by
  induction list with
  | nil => simp [replaceLast?]
  | cons a rest inductionHypothesis =>
      rw [replaceLast?, List.forall_mem_cons, ← inductionHypothesis]
      cases replaceLast? replacement? rest <;> simp

/-- One element is replaced, and behind it stands none that has a replacement. -/
theorem exists_of_replaceLast? (replaces : replaceLast? replacement? list = some replaced) :
    ∃ before a after b, list = before ++ a :: after ∧ replaced = before ++ b :: after ∧
      replacement? a = some b ∧ ∀ other ∈ after, replacement? other = none := by
  induction list generalizing replaced with
  | nil => cases replaces
  | cons a rest inductionHypothesis =>
      rw [replaceLast?] at replaces
      split at replaces
      · rename_i replacedRest found
        obtain ⟨before, c, after, d, rest_eq, replaced_eq, isReplacement, isLast⟩ :=
          inductionHypothesis found
        refine ⟨a :: before, c, after, d, ?_, ?_, isReplacement, isLast⟩
        · rw [rest_eq, List.cons_append]
        · rw [← Option.some.inj replaces, replaced_eq, List.cons_append]
      · rename_i notFound
        obtain ⟨b, isReplacement, replaced_eq⟩ := Option.map_eq_some_iff.mp replaces
        exact ⟨[], a, rest, b, rfl, replaced_eq.symm, isReplacement,
          replaceLast?_eq_none_iff.mp notFound⟩

end

theorem content?_kind (id : String) (draft : Draft) :
    content? { id, kind := draft.kind } = some draft.content := by
  obtain ⟨type, details⟩ := draft
  cases type <;> rfl

theorem exists_of_withImage? {image : String} {step replaced : Step}
    (replaces : withImage? image step = some replaced) :
    ∃ id draft, step = { id, kind := Draft.kind draft } ∧
      replaced = { id, kind := (withImage draft image).kind } := by
  obtain ⟨id, kind⟩ := step
  cases kind with
  | addPage details =>
      cases replaces
      exact ⟨id, { type := .page, content := details }, rfl, rfl⟩
  | addPost details =>
      cases replaces
      exact ⟨id, { type := .post, content := details }, rfl, rfl⟩
  | _ => cases replaces

theorem content?_eq_none_of_withImage? {image : String} {step : Step}
    (noImage : withImage? image step = none) : content? step = none := by
  obtain ⟨id, kind⟩ := step
  cases kind with
  | addPage details => cases noImage
  | addPost details => cases noImage
  | _ => rfl

theorem exists_of_withMenu? {name : String} {change : Menu → Menu} {step replaced : Step}
    (replaces : withMenu? name change step = some replaced) :
    ∃ id menu, step = menuStep id menu ∧ menu.name = name ∧
      replaced = menuStep id (change menu) := by
  obtain ⟨id, kind⟩ := step
  cases kind with
  | createMenu menu =>
      rw [withMenu?] at replaces
      simp only at replaces
      split at replaces
      · rename_i sameName
        exact ⟨id, menu, rfl, sameName, (Option.some.inj replaces).symm⟩
      · cases replaces
  | _ => cases replaces

/-! ## What a demand changes -/

/-- The ways in which meeting a demand changes the steps. -/
inductive Change (ids : Ids) : List Step → Demand → List Step → Prop
  | add (steps : List Step) (kinds : List StepKind) :
    Change ids steps (.add kinds) (pushAll ids steps kinds)
  | attachImage (before after : List Step) (id url : String) (draft : Draft)
      (noImage : draft.content.image = none) (isLast : ∀ other ∈ after, content? other = none) :
    Change ids (before ++ { id, kind := draft.kind } :: after) (.attachImage url)
      (before ++ { id, kind := (withImage draft url).kind } :: after)
  | addItem (before after : List Step) (id name : String) (menu : Menu) (lead : Lead)
      (item : MenuItem) (named : menu.name = clean name)
      (leads : lead.item (before ++ menuStep id menu :: after) = .ok item) :
    Change ids (before ++ menuStep id menu :: after) (.addItem name lead)
      (before ++ menuStep id (addItem item menu) :: after)
  | assignMenu (before after : List Step) (id name location : String) (menu : Menu)
      (named : menu.name = clean name) :
    Change ids (before ++ menuStep id menu :: after) (.assignMenu name location)
      (before ++ menuStep id (setLocation location menu) :: after)
  | nothing (steps : List Step) : Change ids steps .nothing steps

theorem change_of_attachImage {url : String} (met : attachImage steps url = .ok later) :
    Change ids steps (.attachImage url) later := by
  rw [attachImage] at met
  split at met
  · cases met
  · rename_i last isLast
    split at met
    · cases met
    · rename_i noImage
      split at met
      · rename_i replaced replaces
        cases met
        obtain ⟨before, step, after, changed, rfl, rfl, changes, noneAfter⟩ :=
          exists_of_replaceLast? replaces
        have notAfter : ∀ other ∈ after, content? other = none :=
          fun other member => content?_eq_none_of_withImage? (noneAfter other member)
        have notReverse : after.reverse.findSome? content? = none :=
          List.findSome?_eq_none_iff.mpr fun other member =>
            notAfter other (List.mem_reverse.mp member)
        obtain ⟨id, draft, rfl, rfl⟩ := exists_of_withImage? changes
        -- The content made last is that of the step that is changed.
        rw [List.reverse_append, List.reverse_cons, List.append_assoc, List.findSome?_append,
          notReverse, Option.none_or, List.singleton_append, List.findSome?_cons,
          content?_kind] at isLast
        cases isLast
        exact .attachImage before after id url draft (by simpa using noImage) notAfter
      · cases met

/-- A change goes to a menu of the name, and no menu behind it has that name. -/
theorem exists_of_changeMenu {name : String} {change : Menu → Menu}
    (met : changeMenu steps name change = .ok later) :
    ∃ before id menu after, steps = before ++ menuStep id menu :: after ∧
      menu.name = clean name ∧ later = before ++ menuStep id (change menu) :: after ∧
      ∀ id other, menuStep id other ∈ after → other.name ≠ clean name := by
  rw [changeMenu] at met
  split at met
  · rename_i replaced replaces
    cases met
    obtain ⟨before, step, after, changed, rfl, rfl, changes, noneBehind⟩ :=
      exists_of_replaceLast? replaces
    obtain ⟨id, menu, rfl, named, rfl⟩ := exists_of_withMenu? changes
    refine ⟨before, id, menu, after, rfl, named, rfl, ?_⟩
    intro otherId other isBehind sameName
    have noReplacement := noneBehind _ isBehind
    simp [withMenu?, menuStep, sameName] at noReplacement
  · cases met

/-- A demand that is met changes the steps in the way of its kind. -/
theorem change_of_meet {demand : Demand} (met : demand.meet ids steps = .ok later) :
    Change ids steps demand later := by
  cases demand with
  | add kinds =>
      cases met
      exact .add steps kinds
  | attachImage url => exact change_of_attachImage met
  | addItem name lead =>
      rw [Demand.meet] at met
      cases leads : lead.item steps with
      | error reason =>
          rw [leads] at met
          cases met
      | ok item =>
          rw [leads] at met
          simp only [Except.bind] at met
          obtain ⟨before, id, menu, after, rfl, named, rfl, -⟩ := exists_of_changeMenu met
          exact .addItem before after id name menu lead item named leads
  | assignMenu name location =>
      obtain ⟨before, id, menu, after, rfl, named, rfl, -⟩ := exists_of_changeMenu met
      exact .assignMenu before after id name location menu named
  | nothing =>
      cases met
      exact .nothing steps

/-! ## Growth -/

/-- A step of the first kind can come to be one of the second kind.  It makes what it made, and
as a menu it keeps its name and its items. -/
structure Completes (kind later : StepKind) : Prop where
  created?_eq : later.created? = kind.created?
  menu : ∀ menu, kind = .createMenu menu →
    ∃ grown, later = .createMenu grown ∧ grown.name = menu.name ∧ menu.items <+: grown.items

theorem Completes.refl (kind : StepKind) : Completes kind kind where
  created?_eq := rfl
  menu := fun menu isMenu => ⟨menu, isMenu, rfl, List.prefix_refl _⟩

theorem Completes.trans {kind middle last : StepKind} (first : Completes kind middle)
    (second : Completes middle last) : Completes kind last where
  created?_eq := second.created?_eq.trans first.created?_eq
  menu := by
    intro menu isMenu
    obtain ⟨grown, isGrown, sameName, isPrefix⟩ := first.menu menu isMenu
    obtain ⟨full, isFull, sameFullName, isFullPrefix⟩ := second.menu grown isGrown
    exact ⟨full, isFull, sameFullName.trans sameName, isPrefix.trans isFullPrefix⟩

/-- An image does not change what content is made. -/
theorem completes_withImage (draft : Draft) (image : String) :
    Completes draft.kind (withImage draft image).kind := by
  obtain ⟨type, details⟩ := draft
  cases type <;> exact ⟨rfl, fun menu isMenu => nomatch isMenu⟩

theorem completes_menu {menu grown : Menu} (sameName : grown.name = menu.name)
    (isPrefix : menu.items <+: grown.items) :
    Completes (.createMenu menu) (.createMenu grown) where
  created?_eq := rfl
  menu := by
    intro _ isMenu
    cases isMenu
    exact ⟨grown, rfl, sameName, isPrefix⟩

/-- Every step has come to be the one at its place in the later list. -/
def Grows (steps later : List Step) : Prop :=
  ∀ (place : Nat) (step : Step), steps[place]? = some step →
    ∃ grown, later[place]? = some grown ∧ grown.id = step.id ∧ Completes step.kind grown.kind

theorem Grows.refl (steps : List Step) : Grows steps steps :=
  fun _ step isStep => ⟨step, isStep, rfl, .refl step.kind⟩

theorem Grows.trans {middle last : List Step} (first : Grows steps middle)
    (second : Grows middle last) : Grows steps last := by
  intro place step isStep
  obtain ⟨grown, isGrown, sameId, completes⟩ := first place step isStep
  obtain ⟨full, isFull, sameFullId, completesFull⟩ := second place grown isGrown
  exact ⟨full, isFull, sameFullId.trans sameId, completes.trans completesFull⟩

/-- A menu keeps its name and its items when the steps grow. -/
theorem Grows.exists_menu (grows : Grows steps later) {place : Nat} {id : String} {menu : Menu}
    (isStep : steps[place]? = some (menuStep id menu)) :
    ∃ grown, later[place]? = some (menuStep id grown) ∧ grown.name = menu.name ∧
      menu.items <+: grown.items := by
  obtain ⟨⟨laterId, kind⟩, isLater, sameId, completes⟩ := grows place _ isStep
  obtain ⟨grown, isMenu, sameName, isPrefix⟩ := completes.menu menu rfl
  cases isMenu
  cases sameId
  exact ⟨grown, isLater, sameName, isPrefix⟩

/-- What a step makes is still made by a step with its identifier when the steps grow. -/
theorem Grows.exists_page (grows : Grows steps later) {page : Step} (inSteps : page ∈ steps) :
    ∃ grown ∈ later, grown.id = page.id ∧ grown.kind.created? = page.kind.created? := by
  obtain ⟨place, isPlace⟩ := List.mem_iff_getElem?.mp inSteps
  obtain ⟨grown, isGrown, sameId, completes⟩ := grows place page isPlace
  exact ⟨grown, List.mem_of_getElem? isGrown, sameId, completes.created?_eq⟩

theorem grows_append (steps added : List Step) : Grows steps (steps ++ added) := by
  intro place step isStep
  obtain ⟨inBounds, -⟩ := List.getElem?_eq_some_iff.mp isStep
  refine ⟨step, ?_, rfl, .refl step.kind⟩
  rw [List.getElem?_append_left inBounds, isStep]

/-- Other elements stay when one is replaced. -/
theorem getElem?_replaced {α : Type} {before after : List α} {place : Nat}
    (isOther : place ≠ before.length) (a b : α) :
    (before ++ a :: after)[place]? = (before ++ b :: after)[place]? := by
  rcases Nat.lt_or_gt_of_ne isOther with isBefore | isBehind
  · rw [List.getElem?_append_left isBefore, List.getElem?_append_left isBefore]
  · obtain ⟨behind, place_eq⟩ := Nat.exists_eq_add_of_lt isBehind
    have offset : place - before.length = behind + 1 := by omega
    rw [List.getElem?_append_right (Nat.le_of_lt isBehind),
      List.getElem?_append_right (Nat.le_of_lt isBehind), offset, List.getElem?_cons_succ,
      List.getElem?_cons_succ]

theorem getElem?_append_cons_self {α : Type} (before after : List α) (a : α) :
    (before ++ a :: after)[before.length]? = some a := by
  rw [List.getElem?_append_right (Nat.le_refl _), Nat.sub_self, List.getElem?_cons_zero]

theorem grows_replace (before after : List Step) (id : String) {kind changed : StepKind}
    (completes : Completes kind changed) :
    Grows (before ++ { id, kind } :: after) (before ++ { id, kind := changed } :: after) := by
  intro place step isStep
  by_cases isOther : place = before.length
  · subst isOther
    rw [getElem?_append_cons_self] at isStep ⊢
    cases isStep
    exact ⟨_, rfl, rfl, completes⟩
  · rw [getElem?_replaced isOther _ { id, kind := changed }] at isStep
    exact ⟨step, isStep, rfl, .refl step.kind⟩

theorem exists_pushAll_append (ids : Ids) (steps : List Step) (kinds : List StepKind) :
    ∃ added, pushAll ids steps kinds = steps ++ added ∧ added.map Step.kind = kinds := by
  induction kinds generalizing steps with
  | nil => exact ⟨[], (List.append_nil _).symm, rfl⟩
  | cons kind rest inductionHypothesis =>
      obtain ⟨added, isAppended, sameKinds⟩ := inductionHypothesis (push ids steps kind)
      refine ⟨{ id := ids steps.length, kind } :: added, ?_, ?_⟩
      · rw [pushAll, List.foldl_cons, ← pushAll, isAppended, push, List.append_assoc,
          List.singleton_append]
      · rw [List.map_cons, sameKinds]

/-- The steps grow when a demand is met. -/
theorem Change.grows {demand : Demand} (change : Change ids steps demand later) :
    Grows steps later := by
  cases change with
  | add _ kinds =>
      obtain ⟨added, isAppended, -⟩ := exists_pushAll_append ids steps kinds
      rw [isAppended]
      exact grows_append steps added
  | attachImage before after id url draft =>
      exact grows_replace before after id (completes_withImage draft url)
  | addItem before after id name menu lead item =>
      exact grows_replace before after id (completes_menu rfl (List.prefix_append _ _))
  | assignMenu before after id name location menu =>
      exact grows_replace before after id (completes_menu rfl (List.prefix_refl _))
  | nothing => exact .refl steps

/-! ## Entries -/

/-- An entry that is read changes the steps in the way of what it asks for. -/
theorem exists_change_of_readEntry {entry : Entry}
    (reads : readEntry ids steps entry = .ok later) :
    ∃ demand, entry.demand = .ok demand ∧ Change ids steps demand later := by
  obtain ⟨demand, asks, met⟩ := readEntry_eq_ok_iff.mp reads
  exact ⟨demand, asks, change_of_meet met⟩

end SiteScript.Recovery

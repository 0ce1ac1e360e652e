import SiteScript.Proofs.Recovery.Changes
import SiteScript.Proofs.Recovery.Runs

/-!
# Reading on

What has been recovered from the first entries of a script is still there when the whole script
has been read.  Later entries add steps behind, and of an earlier step they change three things at
most: content that was made last gets the image that it has not got yet, and a menu gets more items
and another place.
-/

namespace SiteScript.Recovery

variable {ids : Ids} {steps middle later : List Step}

/-! ## What a step can come to be -/

/-- A step of the first kind can come to be one of the second kind.  An image goes only to content
that was made last and has none. -/
inductive MayBecome (isLast : Prop) : StepKind → StepKind → Prop
  | same (kind : StepKind) : MayBecome isLast kind kind
  | page (details : Content) (image : String) (last : isLast) (noImage : details.image = none) :
    MayBecome isLast (.addPage details) (.addPage { details with image := some image })
  | post (details : Content) (image : String) (last : isLast) (noImage : details.image = none) :
    MayBecome isLast (.addPost details) (.addPost { details with image := some image })
  | menu (menu : Menu) (more : List MenuItem) (location : Option String)
      (placed : location = menu.location ∨ location.isSome) :
    MayBecome isLast (.createMenu menu)
      (.createMenu { menu with items := menu.items ++ more, location })

section

variable {isLast isLastLater : Prop} {kind between last : StepKind}

/-- Nothing is taken back: what may happen twice is once more something that may happen, and
content gets no second image. -/
theorem MayBecome.trans (first : MayBecome isLast kind between)
    (second : MayBecome isLastLater between last) (wasLast : isLastLater → isLast) :
    MayBecome isLast kind last := by
  cases first with
  | same =>
      cases second with
      | same => exact .same kind
      | page details image last noImage => exact .page details image (wasLast last) noImage
      | post details image last noImage => exact .post details image (wasLast last) noImage
      | menu menu more location placed => exact .menu menu more location placed
  | page details image last noImage =>
      cases second with
      | same => exact .page details image last noImage
      | page _ _ _ noSecondImage => cases noSecondImage
  | post details image last noImage =>
      cases second with
      | same => exact .post details image last noImage
      | post _ _ _ noSecondImage => cases noSecondImage
  | menu menu more location placed =>
      cases second with
      | same => exact .menu menu more location placed
      | menu _ evenMore lastLocation lastPlaced =>
          simp only [List.append_assoc]
          refine .menu menu (more ++ evenMore) lastLocation ?_
          rcases lastPlaced with sameLocation | hasLocation
          · exact sameLocation ▸ placed
          · exact Or.inr hasLocation

theorem MayBecome.name_eq (becomes : MayBecome isLast kind last) : last.name = kind.name := by
  cases becomes <;> rfl

/-- What makes content goes on making content, and what makes none never does. -/
theorem MayBecome.content?_eq_none (becomes : MayBecome isLast kind last) {id laterId : String}
    (noContent : content? { id := laterId, kind := last } = none) :
    content? { id, kind } = none := by
  cases becomes with
  | same => exact noContent
  | menu => rfl
  | _ => cases noContent

end

/-! ## Extension -/

/-- Whether no content is made behind a place. -/
def IsLastContent (steps : List Step) (place : Nat) : Prop :=
  ∀ other ∈ steps.drop (place + 1), content? other = none

/-- The first steps are still there in the later list, each as what it may become. -/
def IsExtended (steps later : List Step) : Prop :=
  ∀ (place : Nat) (step : Step), steps[place]? = some step →
    ∃ kind, later[place]? = some { step with kind } ∧
      MayBecome (IsLastContent steps place) step.kind kind

theorem IsExtended.refl (steps : List Step) : IsExtended steps steps :=
  fun _ step isStep => ⟨step.kind, isStep, .same step.kind⟩

/-- Content that is last among more steps was last before. -/
theorem IsExtended.isLastContent (extended : IsExtended steps later) {place : Nat}
    (isLast : IsLastContent later place) : IsLastContent steps place := by
  intro other isBehind
  obtain ⟨index, isOther⟩ := List.mem_iff_getElem?.mp isBehind
  rw [List.getElem?_drop] at isOther
  obtain ⟨kind, isGrown, becomes⟩ := extended _ other isOther
  apply becomes.content?_eq_none
  apply isLast
  rw [List.mem_iff_getElem?]
  exact ⟨index, by rw [List.getElem?_drop, isGrown]⟩

theorem IsExtended.trans (first : IsExtended steps middle) (second : IsExtended middle later) :
    IsExtended steps later := by
  intro place step isStep
  obtain ⟨between, isBetween, becomes⟩ := first place step isStep
  obtain ⟨kind, isGrown, becomesMore⟩ := second place _ isBetween
  exact ⟨kind, isGrown, becomes.trans becomesMore first.isLastContent⟩

theorem isExtended_append (steps added : List Step) : IsExtended steps (steps ++ added) := by
  intro place step isStep
  obtain ⟨inBounds, -⟩ := List.getElem?_eq_some_iff.mp isStep
  refine ⟨step.kind, ?_, .same step.kind⟩
  rw [List.getElem?_append_left inBounds, isStep]

theorem isExtended_replace (before after : List Step) (id : String) {kind changed : StepKind}
    (becomes : MayBecome (∀ other ∈ after, content? other = none) kind changed) :
    IsExtended (before ++ { id, kind } :: after) (before ++ { id, kind := changed } :: after) := by
  intro place step isStep
  by_cases isOther : place = before.length
  · subst isOther
    rw [getElem?_append_cons_self] at isStep ⊢
    cases isStep
    refine ⟨changed, rfl, ?_⟩
    rw [IsLastContent, List.drop_length_add_append, List.drop_succ_cons, List.drop_zero]
    exact becomes
  · rw [getElem?_replaced isOther _ { id, kind := changed }] at isStep
    exact ⟨step.kind, isStep, .same step.kind⟩

/-- The steps are extended when a demand is met. -/
theorem Change.isExtended {demand : Demand} (change : Change ids steps demand later) :
    IsExtended steps later := by
  cases change with
  | add _ kinds =>
      obtain ⟨added, isAppended, -⟩ := exists_pushAll_append ids steps kinds
      rw [isAppended]
      exact isExtended_append steps added
  | attachImage before after id url draft noImage isLast =>
      apply isExtended_replace before after id
      obtain ⟨type, details⟩ := draft
      cases type with
      | page => exact .page details url isLast noImage
      | post => exact .post details url isLast noImage
  | addItem before after id name menu lead item =>
      exact isExtended_replace before after id (.menu menu [item] menu.location (Or.inl rfl))
  | assignMenu before after id name location menu =>
      apply isExtended_replace before after id
      have isPlaced : MayBecome (∀ other ∈ after, content? other = none) (.createMenu menu)
          (.createMenu { menu with items := menu.items ++ [], location := some location }) :=
        .menu menu [] (some location) (Or.inr rfl)
      rw [List.append_nil] at isPlaced
      exact isPlaced
  | nothing => exact .refl steps

/-! ## Reports -/

/-- What is recovered from the first entries of a script is extended by reading the rest. -/
structure ExtendsRecovery (ids : Ids) (entries more : List Entry) : Prop where
  /-- The same entries are dropped, for the same reasons. -/
  dropped_eq :
    (ofEntries ids (entries ++ more)).dropped.filter (fun drop => drop.index < entries.length) =
      (ofEntries ids entries).dropped
  /-- The steps keep their identifiers and their order. -/
  ids_eq : ((ofEntries ids (entries ++ more)).steps.take
      (ofEntries ids entries).steps.length).map Step.id =
    (ofEntries ids entries).steps.map Step.id
  /-- The steps stay of their kinds. -/
  names_eq : ((ofEntries ids (entries ++ more)).steps.take
      (ofEntries ids entries).steps.length).map (fun step => step.kind.name) =
    (ofEntries ids entries).steps.map fun step => step.kind.name
  /-- The steps stay as they are, except that content made last may get an image if it has none,
  and menus may get more items and another place. -/
  isExtended : IsExtended (ofEntries ids entries).steps (ofEntries ids (entries ++ more)).steps

theorem isExtended_ofEntries (ids : Ids) (entries more : List Entry) :
    IsExtended (ofEntries ids entries).steps (ofEntries ids (entries ++ more)).steps := by
  induction more using List.reverseRecOn with
  | nil =>
      rw [List.append_nil]
      exact .refl _
  | append_singleton more entry inductionHypothesis =>
      rw [← List.append_assoc, ofEntries_append_singleton]
      cases reads : readEntry ids (ofEntries ids (entries ++ more)).steps entry with
      | ok later =>
          rw [read_of_ok reads]
          obtain ⟨demand, -, change⟩ := exists_change_of_readEntry reads
          exact inductionHypothesis.trans change.isExtended
      | error reason =>
          rw [read_of_error reads]
          exact inductionHypothesis

theorem dropped_ofEntries_append (ids : Ids) (entries more : List Entry) :
    (ofEntries ids (entries ++ more)).dropped.filter (fun drop => drop.index < entries.length) =
      (ofEntries ids entries).dropped := by
  induction more using List.reverseRecOn with
  | nil =>
      rw [List.append_nil, List.filter_eq_self]
      intro drop isDrop
      simpa using (dropsInOrder_ofEntries ids entries).bounded drop isDrop
  | append_singleton more entry inductionHypothesis =>
      rw [← List.append_assoc, ofEntries_append_singleton]
      cases reads : readEntry ids (ofEntries ids (entries ++ more)).steps entry with
      | ok later =>
          rw [read_of_ok reads]
          exact inductionHypothesis
      | error reason =>
          rw [read_of_error reads, Recovery.drop, List.filter_append, inductionHypothesis]
          simp

/-- What every extended step keeps is kept by the list of the first steps. -/
theorem IsExtended.map_eq {α : Type} (extended : IsExtended steps later) {keeps : Step → α}
    (isKept : ∀ (isLast : Prop) (step : Step) (kind : StepKind),
      MayBecome isLast step.kind kind → keeps { step with kind } = keeps step) :
    (later.take steps.length).map keeps = steps.map keeps := by
  apply List.ext_getElem?
  intro place
  rw [List.getElem?_map, List.getElem?_map]
  cases isStep : steps[place]? with
  | none =>
      have isBehind := List.getElem?_eq_none_iff.mp isStep
      rw [List.getElem?_take, if_neg (Nat.not_lt.mpr isBehind)]
  | some step =>
      obtain ⟨inBounds, -⟩ := List.getElem?_eq_some_iff.mp isStep
      obtain ⟨kind, isGrown, becomes⟩ := extended place step isStep
      rw [List.getElem?_take_of_lt inBounds, isGrown, Option.map_some, Option.map_some,
        isKept _ step kind becomes]

/-- Reading on only extends what has been recovered. -/
theorem extendsRecovery (ids : Ids) (entries more : List Entry) :
    ExtendsRecovery ids entries more where
  dropped_eq := dropped_ofEntries_append ids entries more
  ids_eq := (isExtended_ofEntries ids entries more).map_eq fun _ _ _ _ => rfl
  names_eq := (isExtended_ofEntries ids entries more).map_eq fun _ _ _ becomes => becomes.name_eq
  isExtended := isExtended_ofEntries ids entries more

end SiteScript.Recovery

import SiteScript.Proofs.Compile.Omission
import SiteScript.Proofs.Recovery.Made
import SiteScript.Proofs.Recovery.RoundTrip

/-!
# Complete steps

A page or post is recovered if its title is not blank, and an import if its address is not empty;
both are compiled only if there is a word in that text.  So there are titles and addresses without
a word that are let through: a step comes of them that nothing is emitted for.  They are the only
reason for which a recovered step is not complete.
-/

namespace SiteScript

open Recovery
open Text (clean)

namespace Recovery

/-! ## Supplies -/

/-- What brings content to a site. -/
inductive Supply where
  /-- A page or post is made. -/
  | content (draft : Draft)
  /-- An archive is imported from an address. -/
  | archive (url : String)
  deriving Repr, DecidableEq

namespace Supply

/-- The text without which nothing is supplied: a title or an address. -/
def text : Supply → String
  | .content draft => draft.content.title
  | .archive url => url

/-- Whether the text is enough for a step to be recovered: a title must not be blank, and an address
must not be empty. -/
def isTaken : Supply → Bool
  | .content draft => draft.content.title.toList.any fun c => !Text.isBlank c
  | .archive url => !url.isEmpty

/-- Whether there is a word in the text. -/
def isWorded (supply : Supply) : Bool :=
  supply.text.toList.any Text.isWordChar

end Supply

/-- What a kind of step supplies by itself. -/
def supplyOf? : StepKind → Option Supply
  | .addPage content => some (.content { type := .page, content })
  | .addPost content => some (.content { type := .post, content })
  | .importContent url => some (.archive url)
  | _ => none

/-- What a request of a command line supplies. -/
def Request.supply? : Request → Option Supply
  | .createPost flags => some (.content (.ofFlags flags))
  | .run code =>
    match Effect.ofCode? code with
    | some .insertPost => (Draft.ofCode code).toOption.map .content
    | _ => none
  | _ => none

end Recovery

/-- What an instruction supplies. -/
def Instruction.supply? : Instruction → Option Supply
  | .command line => (Request.ofWords? (Shell.split line)).bind Request.supply?
  | .runPhp code =>
    if Text.contains code "wp_insert_post" then (Draft.ofCode code).toOption.map .content else none
  | .importContent (.address url) => some (.archive url)
  | _ => none

/-- What an entry supplies. -/
def Entry.supply? (entry : Entry) : Option Supply :=
  entry.instruction?.bind Instruction.supply?

/-- What an entry supplies has a word in its text if that text is enough for a step. -/
def Entry.IsWorded (entry : Entry) : Prop :=
  ∀ supply, entry.supply? = some supply → supply.isTaken = true → supply.isWorded = true

namespace Recovery

variable {ids : Ids} {entries : List Entry} {kind : StepKind} {supply : Supply}

/-! ## What entries add -/

@[simp]
theorem supplyOf?_kind (draft : Draft) : supplyOf? draft.kind = some (.content draft) := by
  obtain ⟨type, details⟩ := draft
  cases type <;> rfl

/-- What is supplied by the steps that are asked for, if anything is. -/
def suppliesOf : Except Reason Demand → List Supply
  | .ok demand => demand.kinds.filterMap supplyOf?
  | .error _ => []

theorem suppliesOf_draft (draft : Draft) :
    suppliesOf draft.demand = [Supply.content draft].filter Supply.isTaken := by
  have isBlank : (Text.trim draft.content.title).isEmpty = !(Supply.content draft).isTaken := by
    rw [Bool.eq_iff_iff, String.isEmpty_iff, ← String.toList_inj, Text.toList_trim]
    simp [Text.trimChars_eq_nil_iff, Supply.isTaken]
  rw [Draft.demand, isBlank, List.filter_singleton]
  cases (Supply.content draft).isTaken with
  | true => simp [suppliesOf, Demand.kinds]
  | false => rfl

theorem suppliesOf_content (code : String) :
    suppliesOf (demandOfContent code) =
      ((Draft.ofCode code).toOption.map Supply.content).toList.filter Supply.isTaken := by
  rw [demandOfContent]
  cases Draft.ofCode code with
  | error reason => rfl
  | ok draft =>
      simp only [Except.bind, Except.toOption, Option.map_some, Option.toList_some]
      exact suppliesOf_draft draft

theorem suppliesOf_item (code : String) : suppliesOf (demandOfItem code) = [] := by
  cases asks : demandOfItem code with
  | error reason => rfl
  | ok demand =>
      obtain ⟨menu, title, rfl⟩ := exists_of_demandOfItem asks
      rfl

theorem suppliesOf_request (line : String) (request : Request) :
    suppliesOf (request.demand line) = request.supply?.toList.filter Supply.isTaken := by
  cases request with
  | createPost flags => exact suppliesOf_draft (.ofFlags flags)
  | createMenu name =>
      rw [Request.demand]
      split <;> rfl
  | run code =>
      rw [Request.demand, Request.supply?]
      cases Effect.ofCode? code with
      | none => rfl
      | some effect =>
          cases effect with
          | insertPost => exact suppliesOf_content code
          | addMenuItem => exact suppliesOf_item code
          | attachImage => rfl
  | importMedia | addMenuItem | assignMenu => rfl

theorem suppliesOf_instruction (instruction : Instruction) :
    suppliesOf instruction.demand = instruction.supply?.toList.filter Supply.isTaken := by
  cases instruction with
  | setSiteOptions options =>
      rw [Instruction.demand]
      split
      · rfl
      · exact List.filterMap_eq_nil_iff.mpr (List.forall_mem_map.mpr fun _ _ => rfl)
  | defineConstants constants =>
      rw [Instruction.demand]
      split <;> rfl
  | importContent file =>
      cases file with
      | address url =>
          rw [Instruction.demand, Instruction.supply?, Option.toList_some, List.filter_singleton,
            Supply.isTaken]
          cases url.isEmpty <;> rfl
      | _ => rfl
  | command line =>
      rw [Instruction.demand, Instruction.supply?, demandOfCommand]
      cases Request.ofWords? (Shell.split line) with
      | none => rfl
      | some request => exact suppliesOf_request line request
  | runPhp code =>
      rw [Instruction.demand, Instruction.supply?]
      split
      · exact suppliesOf_content code
      · rfl
  | login | installPlugin | installTheme => rfl

/-- The steps that an entry adds supply what the entry supplies, if its text is enough, and nothing
else. -/
theorem filterMap_supplyOf?_addedKinds (entry : Entry) :
    entry.addedKinds.filterMap supplyOf? = entry.supply?.toList.filter Supply.isTaken := by
  have supplies : suppliesOf entry.demand = entry.supply?.toList.filter Supply.isTaken := by
    cases entry with
    | known instruction => exact suppliesOf_instruction instruction
    | foreign value => rfl
  rw [← supplies, Entry.addedKinds]
  cases entry.demand <;> rfl

/-! ## What is recovered -/

/-- The recovered steps supply, in order, what the entries supply. -/
theorem filterMap_supplyOf?_bareKinds (ids : Ids) (entries : List Entry) :
    (bareKinds (ofEntries ids entries).steps).filterMap supplyOf? =
      entries.flatMap fun entry => entry.supply?.toList.filter Supply.isTaken := by
  rw [bareKinds_ofEntries, flatMap_addedKinds_accepted, List.filterMap_flatMap]
  simp only [filterMap_supplyOf?_addedKinds]

theorem exists_step_iff :
    (∃ step ∈ (ofEntries ids entries).steps, supplyOf? (bare step.kind) = some supply) ↔
      ∃ entry ∈ entries, entry.supply? = some supply ∧ supply.isTaken = true := by
  have sameSupplies := filterMap_supplyOf?_bareKinds ids entries
  rw [bareKinds, List.filterMap_map] at sameSupplies
  calc
    _ ↔ supply ∈ (ofEntries ids entries).steps.filterMap (supplyOf? ∘ fun step => bare step.kind) :=
        List.mem_filterMap.symm
    _ ↔ _ := by
        rw [sameSupplies]
        simp [List.mem_flatMap, List.mem_filter]

/-! ## What is complete -/

/-- The clean form of a text is empty exactly if there is no word in the text. -/
theorem clean_ne_empty_iff (text : String) :
    clean text ≠ "" ↔ text.toList.any Text.isWordChar = true := by
  rw [ne_eq, ← String.toList_inj, Text.toList_clean]
  simp [Text.cleanChars_eq_nil_iff]

theorem isSome_titled? (type : PostType) (title : String) :
    (CreatedContent.titled? type title).isSome = title.toList.any Text.isWordChar := by
  rw [Bool.eq_iff_iff, ← clean_ne_empty_iff, CreatedContent.titled?]
  split
  · rename_i isEmpty
    simpa using isEmpty
  · rename_i notEmpty
    simpa using notEmpty

/-- A step that makes a page or post by itself makes one exactly if there is a word in its
title. -/
theorem creates_eq_isWorded {draft : Draft}
    (supplies : supplyOf? (bare kind) = some (.content draft)) :
    kind.creates = (Supply.content draft).isWorded := by
  cases kind with
  | addPage content | addPost content =>
      cases supplies
      exact isSome_titled? _ _
  | _ => cases supplies

end Recovery

/-! ## Agreement -/

/-- Every page and post and every import that is recovered from a script is complete: it makes
content, or has an address, so that something is emitted for it. -/
structure Document.ReturnsCompleteSteps (ids : Recovery.Ids) (document : Document) : Prop where
  creates : ∀ step ∈ (document.recover ids).steps, (content? step).isSome = true →
    step.kind.created?.isSome = true
  imports : ∀ step ∈ (document.recover ids).steps, ∀ url, step.kind = .importContent url →
    clean url ≠ ""
  emits : ∀ step ∈ (document.recover ids).steps, (supplyOf? step.kind).isSome = true →
    ∀ settings steps position, Compile.block settings steps position step.kind ≠ []

namespace Recovery

variable {ids : Ids} {document : Document} {supply : Supply} {step : Step}

/-- A complete step has a word in the text that it supplies something by. -/
theorem isWorded_of_returns (returns : document.ReturnsCompleteSteps ids)
    (isStep : step ∈ (document.recover ids).steps)
    (supplies : supplyOf? (bare step.kind) = some supply) : supply.isWorded = true := by
  cases supply with
  | content draft =>
      rw [← creates_eq_isWorded supplies]
      apply returns.creates step isStep
      obtain ⟨id, kind⟩ := step
      cases kind <;> first | rfl | cases supplies
  | archive url =>
      have isImport : step.kind = .importContent url := by
        obtain ⟨id, kind⟩ := step
        cases kind <;> cases supplies
        rfl
      exact (clean_ne_empty_iff url).mp (returns.imports step isStep url isImport)

/-- If what the entries supply has words in it, so has what the recovered steps supply. -/
theorem isWorded_of_forall (areWorded : ∀ entry ∈ document.entries, entry.IsWorded)
    (isStep : step ∈ (document.recover ids).steps)
    (supplies : supplyOf? (bare step.kind) = some supply) : supply.isWorded = true := by
  obtain ⟨entry, isEntry, entrySupplies, isTaken⟩ := exists_step_iff.mp ⟨step, isStep, supplies⟩
  exact areWorded entry isEntry supply entrySupplies isTaken

/-- If there is a word in everything that is let through, the recovered steps are complete. -/
theorem returnsCompleteSteps_of_forall (areWorded : ∀ entry ∈ document.entries, entry.IsWorded) :
    document.ReturnsCompleteSteps ids := by
  have makesContent : ∀ step ∈ (document.recover ids).steps, (content? step).isSome = true →
      step.kind.created?.isSome = true := by
    intro step isStep isContent
    have supplies : ∃ draft, supplyOf? (bare step.kind) = some (.content draft) := by
      obtain ⟨id, kind⟩ := step
      cases kind <;> first | exact ⟨_, rfl⟩ | cases isContent
    obtain ⟨draft, supplies⟩ := supplies
    exact (creates_eq_isWorded supplies).trans (isWorded_of_forall areWorded isStep supplies)
  have hasAddress : ∀ step ∈ (document.recover ids).steps, ∀ url,
      step.kind = .importContent url → clean url ≠ "" := by
    intro step isStep url isImport
    have supplies : supplyOf? (bare step.kind) = some (.archive url) := by
      rw [isImport]
      rfl
    exact (clean_ne_empty_iff url).mpr (isWorded_of_forall areWorded isStep supplies)
  refine ⟨makesContent, hasAddress, fun step isStep supplies settings steps position nothing => ?_⟩
  have createsNone := Compile.created?_of_block_eq_nil nothing
  obtain ⟨id, kind⟩ := step
  cases kind with
  | addPage content | addPost content =>
      have creates := makesContent _ isStep rfl
      rw [createsNone] at creates
      cases creates
  | importContent url =>
      have notEmpty : (clean url).isEmpty ≠ true := by
        rw [ne_eq, String.isEmpty_iff]
        exact hasAddress _ isStep url rfl
      rw [Compile.block, Compile.importContent, if_neg notEmpty] at nothing
      cases nothing
  | _ => cases supplies

end Recovery

/-- The steps that are recovered from a script are complete exactly if there is a word in every
title and every address that is let through. -/
theorem Document.returnsCompleteSteps_iff (ids : Recovery.Ids) (document : Document) :
    document.ReturnsCompleteSteps ids ↔ ∀ entry ∈ document.entries, entry.IsWorded := by
  constructor
  · intro returns entry isEntry supply entrySupplies isTaken
    obtain ⟨step, isStep, supplies⟩ := exists_step_iff.mpr ⟨entry, isEntry, entrySupplies, isTaken⟩
    exact isWorded_of_returns returns isStep supplies
  · exact returnsCompleteSteps_of_forall

/-- A script with a title that is a control character, and an address that is a blank. -/
def unwordedDocument : Document :=
  { Document.empty with
    entries := [.known (.command "wp post create --post_title=\x01"),
      .known (.importContent (.address " "))] }

theorem not_returnsCompleteSteps_unwordedDocument :
    ¬ unwordedDocument.ReturnsCompleteSteps tally := by
  intro returns
  have isStep : { id := tally 1, kind := .importContent " " } ∈
      (unwordedDocument.recover tally).steps := by
    decide +kernel
  have noWord : clean " " = "" := by decide +kernel
  exact returns.imports _ isStep " " rfl noWord

end SiteScript

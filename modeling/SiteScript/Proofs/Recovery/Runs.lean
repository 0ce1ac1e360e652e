import Mathlib.Data.List.Induction
import SiteScript.Proofs.Recovery.Outcome

/-!
# Runs over the entries of a script

The entries of a script are read one after the other, and each is accepted or dropped.  An entry
that is dropped leaves the steps as they were, so the accepted ones alone lead to the same
steps, and then none of them is dropped.
-/

namespace SiteScript

namespace Recovery

variable {ids : Ids}

/-- Whether no entry at a place was dropped. -/
def isAcceptedAt (dropped : List Drop) (place : Nat) : Bool :=
  decide (place ∉ dropped.map Drop.index)

/-- The entries that were not dropped. -/
def acceptedOf (dropped : List Drop) (entries : List Entry) : List Entry :=
  (entries.zipIdx.filter fun place => isAcceptedAt dropped place.2).map Prod.fst

/-- The entries of which something is recovered. -/
def accepted (ids : Ids) (entries : List Entry) : List Entry :=
  acceptedOf (ofEntries ids entries).dropped entries

/-- What is recovered after an entry has been accepted. -/
def accept (recovery : Recovery) (steps : List Step) : Recovery :=
  { recovery with steps }

/-- What is recovered after the entry at a place has been dropped. -/
def drop (recovery : Recovery) (place : Nat) (entry : Entry) (reason : Reason) : Recovery :=
  { recovery with
    dropped := recovery.dropped ++ [{ index := place, kind := entry.kindName, reason }] }

/-! ## One more entry -/

theorem ofEntries_append_singleton (ids : Ids) (entries : List Entry) (entry : Entry) :
    ofEntries ids (entries ++ [entry]) =
      read ids (ofEntries ids entries) (entry, entries.length) := by
  rw [ofEntries, List.zipIdx_append, List.foldl_append, Nat.zero_add, List.zipIdx_singleton]
  rfl

theorem read_of_ok {recovery : Recovery} {entry : Entry} {later : List Step}
    (reads : readEntry ids recovery.steps entry = .ok later) (place : Nat) :
    read ids recovery (entry, place) = recovery.accept later := by
  rw [read_eq, reads, accept]

theorem read_of_error {recovery : Recovery} {entry : Entry} {reason : Reason}
    (reads : readEntry ids recovery.steps entry = .error reason) (place : Nat) :
    read ids recovery (entry, place) = recovery.drop place entry reason := by
  rw [read_eq, reads, drop]

theorem acceptedOf_append_singleton (dropped : List Drop) (entries : List Entry) (entry : Entry) :
    acceptedOf dropped (entries ++ [entry]) =
      acceptedOf dropped entries ++
        if isAcceptedAt dropped entries.length then [entry] else [] := by
  rw [acceptedOf, List.zipIdx_append, List.filter_append, List.map_append, Nat.zero_add,
    List.zipIdx_singleton, List.filter_cons, List.filter_nil]
  split <;> rfl

/-- A place behind all entries that were dropped is one where none was dropped. -/
theorem isAcceptedAt_of_bounded {dropped : List Drop} {bound : Nat}
    (bounded : ∀ drop ∈ dropped, drop.index < bound) : isAcceptedAt dropped bound = true := by
  rw [isAcceptedAt, decide_eq_true_iff]
  intro member
  obtain ⟨drop, isDrop, sameIndex⟩ := List.mem_map.mp member
  exact absurd (bounded drop isDrop) (by omega)

/-- An entry that is dropped behind other entries does not tell on those. -/
theorem acceptedOf_append_drop (dropped : List Drop) (entries : List Entry) {drop : Drop}
    (isBehind : entries.length ≤ drop.index) :
    acceptedOf (dropped ++ [drop]) entries = acceptedOf dropped entries := by
  rw [acceptedOf, acceptedOf]
  congr 1
  apply List.filter_congr
  intro place member
  have isBefore : place.2 < entries.length := by
    simpa using (List.mem_zipIdx member).2.1
  have differs : place.2 ≠ drop.index := by omega
  simp [isAcceptedAt, differs]

/-! ## Induction over runs -/

/-- Entries are dropped at their places, which come in order. -/
structure DropsInOrder (entries : List Entry) (dropped : List Drop) : Prop where
  increasing : (dropped.map Drop.index).Pairwise (· < ·)
  bounded : ∀ drop ∈ dropped, drop.index < entries.length

theorem dropsInOrder_ofEntries (ids : Ids) (entries : List Entry) :
    DropsInOrder entries (ofEntries ids entries).dropped := by
  induction entries using List.reverseRecOn with
  | nil => exact ⟨.nil, fun drop member => nomatch member⟩
  | append_singleton entries entry inductionHypothesis =>
      obtain ⟨increasing, bounded⟩ := inductionHypothesis
      rw [ofEntries_append_singleton]
      cases reads : readEntry ids (ofEntries ids entries).steps entry with
      | ok later =>
          rw [read_of_ok reads]
          refine ⟨increasing, fun drop member => ?_⟩
          rw [List.length_append]
          exact Nat.lt_add_right _ (bounded drop member)
      | error reason =>
          rw [read_of_error reads]
          constructor
          · rw [Recovery.drop, List.map_append]
            refine List.pairwise_append.mpr ⟨increasing, List.pairwise_singleton _ _, ?_⟩
            intro place isPlace last isLast
            obtain ⟨earlier, isDrop, rfl⟩ := List.mem_map.mp isPlace
            rw [List.mem_singleton.mp isLast]
            exact bounded earlier isDrop
          · intro drop member
            rw [List.length_append, List.length_singleton]
            rcases List.mem_append.mp member with isEarlier | isLast
            · exact Nat.lt_succ_of_lt (bounded drop isEarlier)
            · rw [List.mem_singleton.mp isLast]
              exact Nat.lt_succ_self _

theorem accepted_append_of_ok {entries : List Entry} {entry : Entry} {later : List Step}
    (reads : readEntry ids (ofEntries ids entries).steps entry = .ok later) :
    accepted ids (entries ++ [entry]) = accepted ids entries ++ [entry] := by
  rw [accepted, ofEntries_append_singleton, read_of_ok reads, acceptedOf_append_singleton,
    accept, if_pos (isAcceptedAt_of_bounded (dropsInOrder_ofEntries ids entries).bounded), accepted]

theorem accepted_append_of_error {entries : List Entry} {entry : Entry} {reason : Reason}
    (reads : readEntry ids (ofEntries ids entries).steps entry = .error reason) :
    accepted ids (entries ++ [entry]) = accepted ids entries := by
  have isDropped : isAcceptedAt ((ofEntries ids entries).dropped ++
      [{ index := entries.length, kind := entry.kindName, reason }]) entries.length = false := by
    simp [isAcceptedAt]
  rw [accepted, ofEntries_append_singleton, read_of_error reads, acceptedOf_append_singleton,
    Recovery.drop, isDropped, if_neg Bool.false_ne_true, List.append_nil,
    acceptedOf_append_drop _ _ (Nat.le_refl _), accepted]

/-- What holds at the start, and is kept by every entry that is accepted or dropped, holds of
the entries of a script, of those that are accepted and of what is recovered. -/
theorem run_induction {motive : List Entry → List Entry → Recovery → Prop}
    (atStart : motive [] [] start)
    (accepts : ∀ entries entry later,
      motive entries (accepted ids entries) (ofEntries ids entries) →
      readEntry ids (ofEntries ids entries).steps entry = .ok later →
        motive (entries ++ [entry]) (accepted ids entries ++ [entry])
          ((ofEntries ids entries).accept later))
    (drops : ∀ entries entry reason,
      motive entries (accepted ids entries) (ofEntries ids entries) →
      readEntry ids (ofEntries ids entries).steps entry = .error reason →
        motive (entries ++ [entry]) (accepted ids entries)
          ((ofEntries ids entries).drop entries.length entry reason))
    (entries : List Entry) : motive entries (accepted ids entries) (ofEntries ids entries) := by
  induction entries using List.reverseRecOn with
  | nil => exact atStart
  | append_singleton entries entry inductionHypothesis =>
      cases reads : readEntry ids (ofEntries ids entries).steps entry with
      | ok later =>
          rw [accepted_append_of_ok reads, ofEntries_append_singleton, read_of_ok reads]
          exact accepts entries entry later inductionHypothesis reads
      | error reason =>
          rw [accepted_append_of_error reads, ofEntries_append_singleton, read_of_error reads]
          exact drops entries entry reason inductionHypothesis reads

/-- The accepted entries lead to the same steps, and none of them is dropped. -/
theorem ofEntries_accepted (ids : Ids) (entries : List Entry) :
    ofEntries ids (accepted ids entries) =
      { steps := (ofEntries ids entries).steps, dropped := [] } := by
  refine run_induction
    (motive := fun _ accepted recovery =>
      ofEntries ids accepted = { steps := recovery.steps, dropped := [] }) rfl ?_ ?_ entries
  · intro entries entry later sameSteps reads
    have readsAgain : readEntry ids (ofEntries ids (accepted ids entries)).steps entry =
        .ok later := by
      rw [sameSteps]
      exact reads
    rw [ofEntries_append_singleton, read_of_ok readsAgain, sameSteps]
    rfl
  · exact fun entries entry reason sameSteps _ => sameSteps

end Recovery

open Recovery

/-- The script without the entries of which nothing is recovered. -/
def Document.withoutDropped (ids : Recovery.Ids) (document : Document) : Document :=
  { document with entries := acceptedOf (document.recover ids).dropped document.entries }

/-- The entries of a script that are dropped have no effect. -/
structure Document.DropsHaveNoEffect (ids : Recovery.Ids) (document : Document) : Prop where
  /-- Without them the same steps are recovered, and nothing is dropped. -/
  recover_withoutDropped : (document.withoutDropped ids).recover ids =
    { steps := (document.recover ids).steps, dropped := [] }
  /-- Wherever reading an entry fails, it leaves the steps as they were. -/
  steps_eq_of_error : ∀ entry ∈ document.entries, ∀ steps reason later,
    (Edit.entry ids entry).carryOut steps = (.error reason, later) → later = steps

/-- In every script the entries that are dropped have no effect. -/
theorem Document.dropsHaveNoEffect (ids : Recovery.Ids) (document : Document) :
    document.DropsHaveNoEffect ids where
  recover_withoutDropped := ofEntries_accepted ids document.entries
  steps_eq_of_error := by
    intro entry _ steps reason later fails
    rw [carryOut_entry] at fails
    cases reads : readEntry ids steps entry with
    | ok read =>
        rw [reads] at fails
        cases fails
    | error reason =>
        rw [reads] at fails
        cases fails
        rfl

end SiteScript

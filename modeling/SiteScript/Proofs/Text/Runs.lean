import Mathlib.Data.List.Chain
import SiteScript.Proofs.Text.CleanForm

/-!
# Maximal runs

The maximal runs of a list are told by taking the list apart: what is not kept, a run, and a
rest that does not go on with the run.  Every list can be taken apart like this in one way only.

Runs that are joined by a separator of which they are free have it neither first nor last nor
twice in a row.
-/

namespace SiteScript.Text

variable {α : Type} {keep : α → Bool}

/-! ## Taking lists apart -/

/-- The maximal runs of kept elements of a list, in order. -/
inductive HasRuns (keep : α → Bool) : List α → List (List α) → Prop
  | none {gap : List α} (notKept : ∀ a ∈ gap, ¬ keep a) : HasRuns keep gap []
  | cons {gap run rest : List α} {later : List (List α)} (notKept : ∀ a ∈ gap, ¬ keep a)
      (isRun : IsRun keep run) (ended : ∀ a ∈ rest.head?, ¬ keep a)
      (hasRuns : HasRuns keep rest later) : HasRuns keep (gap ++ (run ++ rest)) (run :: later)

theorem runs_cons_of_not {a : α} (notKept : ¬ keep a) (rest : List α) :
    runs keep (a :: rest) = runs keep rest := by
  rw [runs, leadingRun_cons, if_neg notKept]
  rfl

/-- What is not kept in front of a list does not change its runs. -/
theorem runs_append_of_not {gap : List α} (notKept : ∀ a ∈ gap, ¬ keep a) (rest : List α) :
    runs keep (gap ++ rest) = runs keep rest := by
  induction gap with
  | nil => rfl
  | cons a gap inductionHypothesis =>
      obtain ⟨firstNotKept, gapNotKept⟩ := List.forall_mem_cons.mp notKept
      rw [List.cons_append, runs_cons_of_not firstNotKept, inductionHypothesis gapNotKept]

/-- A run with a rest that does not go on with it. -/
theorem runs_append_of_isRun {run rest : List α} (isRun : IsRun keep run)
    (ended : ∀ a ∈ rest.head?, ¬ keep a) : runs keep (run ++ rest) = run :: runs keep rest := by
  cases rest with
  | nil => rw [List.append_nil, runs_of_isRun isRun, runs_eq_nil_iff.mpr (List.forall_mem_nil _)]
  | cons a rest =>
      have notKept := ended a rfl
      rw [runs_append_cons isRun notKept, runs_cons_of_not notKept]

namespace HasRuns

theorem runs_eq {list : List α} {found : List (List α)} (hasRuns : HasRuns keep list found) :
    runs keep list = found := by
  induction hasRuns with
  | none notKept => exact runs_eq_nil_iff.mpr notKept
  | cons notKept isRun ended _ inductionHypothesis =>
      rw [runs_append_of_not notKept, runs_append_of_isRun isRun ended, inductionHypothesis]

/-- An element that is not kept belongs to the gap in front of the first run. -/
theorem cons_of_not {a : α} {list : List α} {found : List (List α)} (notKept : ¬ keep a)
    (hasRuns : HasRuns keep list found) : HasRuns keep (a :: list) found := by
  cases hasRuns with
  | none noneKept => exact .none (List.forall_mem_cons.mpr ⟨notKept, noneKept⟩)
  | @cons gap run rest later noneKept isRun ended hasRuns =>
      rw [← List.cons_append]
      exact .cons (List.forall_mem_cons.mpr ⟨notKept, noneKept⟩) isRun ended hasRuns

/-- A kept element begins a run, or goes on with the one with which the list begins. -/
theorem exists_cons {a : α} {list : List α} {found : List (List α)} (kept : keep a)
    (hasRuns : HasRuns keep list found) : ∃ more, HasRuns keep (a :: list) more := by
  have alone : IsRun keep [a] := ⟨List.cons_ne_nil a [], List.forall_mem_singleton.mpr kept⟩
  have noneBefore : ∀ b ∈ ([] : List α), ¬ keep b := List.forall_mem_nil _
  cases hasRuns with
  | none notKept =>
      refine ⟨[[a]], .cons noneBefore alone (fun b isFirst => ?_) (.none notKept)⟩
      exact notKept b (List.mem_of_mem_head? isFirst)
  | @cons gap run rest later notKept isRun ended hasRuns =>
      cases gap with
      | nil =>
          have longer : IsRun keep (a :: run) :=
            ⟨List.cons_ne_nil a run, List.forall_mem_cons.mpr ⟨kept, isRun.2⟩⟩
          exact ⟨(a :: run) :: later, .cons noneBefore longer ended hasRuns⟩
      | cons b gap =>
          refine ⟨[a] :: run :: later, .cons noneBefore alone (fun c isFirst => ?_)
            (.cons notKept isRun ended hasRuns)⟩
          obtain rfl : b = c := Option.some.inj isFirst
          exact notKept b List.mem_cons_self

end HasRuns

theorem exists_hasRuns (keep : α → Bool) (list : List α) : ∃ found, HasRuns keep list found := by
  induction list with
  | nil => exact ⟨[], .none (List.forall_mem_nil _)⟩
  | cons a rest inductionHypothesis =>
      obtain ⟨found, hasRuns⟩ := inductionHypothesis
      by_cases kept : keep a
      · exact hasRuns.exists_cons kept
      · exact ⟨found, hasRuns.cons_of_not kept⟩

/-- Every list has exactly one sequence of maximal runs. -/
theorem hasRuns_iff {list : List α} {found : List (List α)} :
    HasRuns keep list found ↔ runs keep list = found := by
  constructor
  · exact HasRuns.runs_eq
  · rintro rfl
    obtain ⟨found, hasRuns⟩ := exists_hasRuns keep list
    rwa [hasRuns.runs_eq]

theorem hasRuns_runs (keep : α → Bool) (list : List α) : HasRuns keep list (runs keep list) :=
  hasRuns_iff.mpr rfl

/-! ## Separators -/

/-- An element that only stands between others: neither first nor last, and never twice in a
row. -/
structure Separates (separator : α) (list : List α) : Prop where
  notFirst : list.head? ≠ some separator
  notLast : list.getLast? ≠ some separator
  notTwice : list.IsChain fun a b => ¬ (a = separator ∧ b = separator)

variable {separator : α}

namespace Separates

/-- A list without an element has it nowhere. -/
theorem of_notMem {list : List α} (notMem : separator ∉ list) : Separates separator list where
  notFirst isFirst := notMem (List.mem_of_mem_head? isFirst)
  notLast isLast := notMem (List.mem_of_getLast? isLast)
  notTwice := by
    rw [List.isChain_iff_forall_rel_of_append_cons_cons]
    rintro a b front back rfl ⟨rfl, -⟩
    exact notMem (List.mem_append_right front List.mem_cons_self)

/-- A separator stands between a list without it and one in which it separates. -/
theorem append {first later : List α} (firstNotEmpty : first ≠ []) (notMem : separator ∉ first)
    (laterNotEmpty : later ≠ []) (separates : Separates separator later) :
    Separates separator (first ++ separator :: later) where
  notFirst := by
    rw [List.head?_append_of_ne_nil first firstNotEmpty]
    exact (of_notMem notMem).notFirst
  notLast := by
    rw [List.getLast?_append_cons, List.getLast?_cons_of_ne_nil laterNotEmpty]
    exact separates.notLast
  notTwice := by
    rw [List.isChain_append, List.isChain_cons]
    refine ⟨(of_notMem notMem).notTwice, ⟨fun b isFirst both => ?_, separates.notTwice⟩,
      fun a isLast b _ both => ?_⟩
    · exact separates.notFirst (both.2 ▸ isFirst)
    · exact (of_notMem notMem).notLast (both.1 ▸ isLast)

end Separates

/-- Lists that are joined by an element of which they are free. -/
theorem separates_intercalate {items : List (List α)}
    (free : ∀ item ∈ items, item ≠ [] ∧ separator ∉ item) :
    Separates separator (List.intercalate [separator] items) := by
  induction items with
  | nil => exact .of_notMem List.not_mem_nil
  | cons item rest inductionHypothesis =>
      obtain ⟨⟨notEmpty, notMem⟩, restFree⟩ := List.forall_mem_cons.mp free
      cases rest with
      | nil =>
          rw [List.intercalate_singleton]
          exact .of_notMem notMem
      | cons next rest =>
          have laterNotEmpty : List.intercalate [separator] (next :: rest) ≠ [] := by
            rw [intercalate_eq_append_flatMap]
            exact List.append_ne_nil_of_left_ne_nil (restFree next List.mem_cons_self).1 _
          rw [List.intercalate_cons_cons, List.append_assoc, List.singleton_append]
          exact .append notEmpty notMem laterNotEmpty (inductionHypothesis restFree)

/-- Joined runs are separated. -/
theorem separates_intercalate_runs {keep : α → Bool} (notKept : ¬ keep separator)
    {items : List (List α)} (areRuns : ∀ item ∈ items, IsRun keep item) :
    Separates separator (List.intercalate [separator] items) :=
  separates_intercalate fun item isItem =>
    ⟨(areRuns item isItem).1, fun inItem => notKept ((areRuns item isItem).2 separator inItem)⟩

end SiteScript.Text

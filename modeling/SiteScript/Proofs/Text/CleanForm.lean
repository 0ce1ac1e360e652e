import Mathlib.Data.List.TakeWhile
import SiteScript.Text.Clean

/-!
# The clean form of texts

Cleaning keeps the words of a text and joins them by single spaces, so a clean form
has the words of the text it comes from, and cleaning it again changes nothing.

The texts that are clean already are told by reading them once: a space may come
only directly behind a word, and the text may not end with one.  As this reading
goes on from one text to the next, it says when texts that are put together from
fixed parts and clean parts are clean.
-/

namespace SiteScript.Text

variable {α : Type} {keep : α → Bool}

/-! ## Runs -/

/-- A run: at least one element, and none that is not kept. -/
def IsRun (keep : α → Bool) (run : List α) : Prop :=
  run ≠ [] ∧ ∀ a ∈ run, keep a

instance (keep : α → Bool) (run : List α) : Decidable (IsRun keep run) :=
  inferInstanceAs (Decidable (_ ∧ _))

/-- A run put in front of runs. -/
theorem isRun_of_mem_consRun {leading run : List α} {later : List (List α)}
    (kept : ∀ a ∈ leading, keep a) (areRuns : ∀ run ∈ later, IsRun keep run)
    (member : run ∈ consRun leading later) : IsRun keep run := by
  unfold consRun at member
  split at member
  · exact areRuns run member
  · rename_i notEmpty
    rcases List.mem_cons.mp member with equal | member
    · subst equal
      exact ⟨by simpa using notEmpty, kept⟩
    · exact areRuns run member

/-- The leading run of a list holds kept elements only, and what comes after it are runs. -/
theorem leadingRun_kept (list : List α) :
    (∀ a ∈ (leadingRun keep list).1, keep a) ∧
      ∀ run ∈ (leadingRun keep list).2, IsRun keep run := by
  induction list with
  | nil => simp
  | cons a rest inductionHypothesis =>
      obtain ⟨kept, areRuns⟩ := inductionHypothesis
      rw [leadingRun_cons]
      split
      · rename_i keptFirst
        exact ⟨by simpa using ⟨keptFirst, kept⟩, areRuns⟩
      · exact ⟨by simp, fun run member => isRun_of_mem_consRun kept areRuns member⟩

/-- The runs of a list are runs. -/
theorem isRun_of_mem_runs {list run : List α} (member : run ∈ runs keep list) :
    IsRun keep run :=
  isRun_of_mem_consRun (leadingRun_kept list).1 (leadingRun_kept list).2 member

/-- A list has no runs exactly when it has no kept elements. -/
theorem runs_eq_nil_iff {list : List α} : runs keep list = [] ↔ ∀ a ∈ list, ¬ keep a := by
  induction list with
  | nil => simp [runs, consRun]
  | cons a rest inductionHypothesis =>
      rw [runs, leadingRun_cons]
      by_cases kept : keep a
      · simp [kept, consRun]
      · rw [if_neg kept, List.forall_mem_cons]
        simpa [runs, kept, consRun] using inductionHypothesis

/-- Kept elements in front of a list belong to its leading run. -/
theorem leadingRun_append {run : List α} (kept : ∀ a ∈ run, keep a) (rest : List α) :
    leadingRun keep (run ++ rest) =
      (run ++ (leadingRun keep rest).1, (leadingRun keep rest).2) := by
  induction run with
  | nil => rfl
  | cons a run inductionHypothesis =>
      have keptRun : ∀ b ∈ run, keep b := fun b member => kept b (List.mem_cons_of_mem a member)
      rw [List.cons_append, leadingRun_cons, if_pos (kept a List.mem_cons_self),
        inductionHypothesis keptRun]
      rfl

/-- A run that stands alone. -/
theorem runs_of_isRun {run : List α} (isRun : IsRun keep run) : runs keep run = [run] := by
  have leading := leadingRun_append isRun.2 []
  rw [List.append_nil] at leading
  simp [runs, leading, consRun, isRun.1]

/-- A run that is ended by an element that is not kept. -/
theorem runs_append_cons {run : List α} (isRun : IsRun keep run) {a : α} (notKept : ¬ keep a)
    (rest : List α) : runs keep (run ++ a :: rest) = run :: runs keep rest := by
  rw [runs, leadingRun_append isRun.2, leadingRun_cons, if_neg notKept]
  simp [runs, consRun, isRun.1]

/-- Runs that are joined by an element that is not kept are found again. -/
theorem runs_intercalate {list : List (List α)} (areRuns : ∀ run ∈ list, IsRun keep run)
    {a : α} (notKept : ¬ keep a) : runs keep (List.intercalate [a] list) = list := by
  induction list with
  | nil => rfl
  | cons run rest inductionHypothesis =>
      have isRun := areRuns run List.mem_cons_self
      have restAreRuns : ∀ later ∈ rest, IsRun keep later := fun later member =>
        areRuns later (List.mem_cons_of_mem run member)
      cases rest with
      | nil => simpa using runs_of_isRun isRun
      | cons next rest =>
          rw [List.intercalate_cons_cons, List.append_assoc, List.singleton_append,
            runs_append_cons isRun notKept, inductionHypothesis restAreRuns]

/-! ## Clean forms -/

theorem not_isWordChar_space : ¬ isWordChar ' ' := by
  decide

/-- A clean form has the words of its text. -/
theorem words_cleanChars (text : List Char) : words (cleanChars text) = words text :=
  runs_intercalate (fun _ member => isRun_of_mem_runs member) not_isWordChar_space

/-- Cleaning a clean form changes nothing. -/
@[simp]
theorem cleanChars_cleanChars (text : List Char) :
    cleanChars (cleanChars text) = cleanChars text := by
  rw [cleanChars, words_cleanChars, cleanChars]

@[simp]
theorem clean_clean (text : String) : clean (clean text) = clean text := by
  simp [clean]

/-- A text is clean exactly when its characters are. -/
theorem clean_eq_self_iff {text : String} :
    clean text = text ↔ cleanChars text.toList = text.toList := by
  rw [← String.toList_inj, toList_clean]

/-- A clean form is empty exactly when its text has no word. -/
theorem cleanChars_eq_nil_iff {text : List Char} :
    cleanChars text = [] ↔ ∀ c ∈ text, ¬ isWordChar c := by
  rw [← runs_eq_nil_iff]
  constructor
  · intro empty
    have noWords := words_cleanChars text
    rw [empty] at noWords
    exact noWords.symm
  · intro noRuns
    rw [cleanChars, words, noRuns, List.intercalate_nil]

/-! ## Reading clean texts -/

/-- Reads a text that continues a clean one.  The state says whether the text so far ends with
a word, so that a space may follow; there is no state behind a text that cannot be part of a
clean one. -/
def spacing (behindWord : Bool) : List Char → Option Bool
  | [] => some behindWord
  | c :: rest =>
    if isWordChar c then spacing true rest
    else if c = ' ' ∧ behindWord then spacing false rest
    else none

theorem spacing_append (behindWord : Bool) (first second : List Char) :
    spacing behindWord (first ++ second) =
      (spacing behindWord first).bind (spacing · second) := by
  induction first generalizing behindWord with
  | nil => rfl
  | cons c rest inductionHypothesis =>
      simp only [List.cons_append, spacing, inductionHypothesis]
      split
      · rfl
      · split <;> rfl

/-- Behind a word a space may follow, and all that may follow anything else. -/
theorem spacing_behindWord {text : List Char} {state : Bool} (notEmpty : text ≠ [])
    (read : spacing false text = some state) : spacing true text = some state := by
  cases text with
  | nil => exact absurd rfl notEmpty
  | cons c rest =>
      simp only [spacing, Bool.false_eq_true, and_false, if_false] at read ⊢
      split at read
      · rename_i isWord
        rw [if_pos isWord, read]
      · contradiction

/-- A word leaves the state behind a word. -/
theorem spacing_of_isRun (behindWord : Bool) {word : List Char}
    (isRun : IsRun isWordChar word) : spacing behindWord word = some true := by
  obtain ⟨notEmpty, areWordChars⟩ := isRun
  induction word generalizing behindWord with
  | nil => exact absurd rfl notEmpty
  | cons c rest inductionHypothesis =>
      rw [spacing, if_pos (areWordChars c List.mem_cons_self)]
      cases rest with
      | nil => rfl
      | cons d rest =>
          exact inductionHypothesis true (by simp) fun a member =>
            areWordChars a (List.mem_cons_of_mem c member)

/-- Texts that may stand anywhere may stand one space apart. -/
theorem spacing_intercalate {list : List (List Char)} (notEmpty : list ≠ [])
    (itemsSpaced : ∀ item ∈ list, ∀ behindWord, spacing behindWord item = some true)
    (behindWord : Bool) : spacing behindWord (List.intercalate [' '] list) = some true := by
  induction list generalizing behindWord with
  | nil => exact absurd rfl notEmpty
  | cons item rest inductionHypothesis =>
      obtain ⟨itemSpaced, restSpaced⟩ := List.forall_mem_cons.mp itemsSpaced
      cases rest with
      | nil => simpa using itemSpaced behindWord
      | cons next rest =>
          rw [List.intercalate_cons_cons, List.append_assoc, spacing_append,
            itemSpaced behindWord, Option.bind_some, List.singleton_append]
          exact inductionHypothesis (by simp) restSpaced false

/-- A text that can be read to its end is its leading run and, behind one space each, its later
runs; there is a leading run unless the text continues a word. -/
theorem eq_of_spacing {behindWord : Bool} {text : List Char}
    (read : spacing behindWord text = some true) :
    text = (leadingRun isWordChar text).1 ++
        (leadingRun isWordChar text).2.flatMap (' ' :: ·) ∧
      (behindWord = false → (leadingRun isWordChar text).1 ≠ []) := by
  induction text generalizing behindWord with
  | nil => simpa [spacing] using read
  | cons c rest inductionHypothesis =>
      rw [spacing] at read
      rw [leadingRun_cons]
      split at read
      · rename_i isWord
        rw [if_pos isWord]
        refine ⟨?_, by simp⟩
        rw [List.cons_append, ← (inductionHypothesis read).1]
      · rename_i notWord
        rw [if_neg notWord]
        split at read
        · rename_i space
          obtain ⟨equal, leading⟩ := inductionHypothesis read
          have notEmpty := leading rfl
          refine ⟨?_, by simp [space.2]⟩
          simp only [consRun, List.isEmpty_iff, notEmpty, if_false, List.nil_append,
            List.flatMap_cons, List.cons_append]
          rw [← equal, space.1]
        · contradiction

theorem intercalate_eq_append_flatMap {a : α} (run : List α) (later : List (List α)) :
    List.intercalate [a] (run :: later) = run ++ later.flatMap (a :: ·) := by
  induction later generalizing run with
  | nil => simp
  | cons next later inductionHypothesis =>
      rw [List.intercalate_cons_cons, inductionHypothesis]
      simp

/-- The clean texts, told by reading them. -/
theorem cleanChars_eq_self_iff {text : List Char} :
    cleanChars text = text ↔ text = [] ∨ spacing false text = some true := by
  constructor
  · intro isClean
    rw [cleanChars] at isClean
    by_cases noWords : words text = []
    · left
      rw [← isClean, noWords, List.intercalate_nil]
    · right
      rw [← isClean]
      refine spacing_intercalate noWords (fun word isWord behindWord => ?_) false
      exact spacing_of_isRun behindWord (isRun_of_mem_runs isWord)
  · rintro (empty | read)
    · rw [empty]
      rfl
    · obtain ⟨equal, leading⟩ := eq_of_spacing read
      have notEmpty := leading rfl
      rw [cleanChars, words, runs, consRun, if_neg (by simpa using notEmpty),
        intercalate_eq_append_flatMap]
      exact equal.symm

/-- A clean text may stand behind a word, and a space may stand behind it. -/
theorem spacing_of_clean {text : List Char} (isClean : cleanChars text = text) :
    spacing true text = some true := by
  rcases cleanChars_eq_self_iff.mp isClean with empty | read
  · rw [empty]
    rfl
  · refine spacing_behindWord ?_ read
    rintro rfl
    simp [spacing] at read

/-- The characters of a text that can be read. -/
theorem isWordChar_or_eq_space_of_spacing {behindWord state : Bool} {text : List Char}
    (read : spacing behindWord text = some state) {c : Char} (member : c ∈ text) :
    isWordChar c ∨ c = ' ' := by
  induction text generalizing behindWord with
  | nil => simp at member
  | cons d rest inductionHypothesis =>
      rw [spacing] at read
      split at read
      · rename_i isWord
        rcases List.mem_cons.mp member with equal | member
        · exact Or.inl (equal ▸ isWord)
        · exact inductionHypothesis read member
      · split at read
        · rename_i space
          rcases List.mem_cons.mp member with equal | member
          · exact Or.inr (equal.trans space.1)
          · exact inductionHypothesis read member
        · contradiction

/-- A clean text has no control characters. -/
theorem not_isControl_of_clean {text : List Char} (isClean : cleanChars text = text) {c : Char}
    (member : c ∈ text) : ¬ isControl c := by
  rcases isWordChar_or_eq_space_of_spacing (spacing_of_clean isClean) member with isWord | space
  · simp only [isWordChar, Bool.and_eq_true, Bool.not_eq_true'] at isWord
    simp [isWord.1]
  · subst space
    decide

/-- A text without forbidden characters is accepted. -/
theorem checkControls_eq_ok {text : String} (noneForbidden : ∀ c ∈ text.toList, ¬ isForbidden c) :
    checkControls text = .ok () := by
  rw [checkControls, List.filter_eq_nil_iff.mpr noneForbidden]

/-- Nothing in a clean form is forbidden. -/
@[simp]
theorem checkControls_clean (text : String) : checkControls (clean text) = .ok () := by
  apply checkControls_eq_ok
  intro c member forbidden
  rw [toList_clean] at member
  exact not_isControl_of_clean (cleanChars_cleanChars text.toList) member
    (isControl_of_isForbidden forbidden)

/-! ## Blanks at the ends -/

/-- Nothing is left of a text without its outer blanks exactly when all of it is blank. -/
theorem trimChars_eq_nil_iff {text : List Char} :
    trimChars text = [] ↔ ∀ c ∈ text, isBlank c := by
  rw [trimChars, trimEnd, List.reverse_eq_nil_iff, List.dropWhile_eq_nil_iff]
  constructor
  · intro blankEnd
    induction text with
    | nil => simp
    | cons c rest inductionHypothesis =>
        rw [List.dropWhile_cons] at blankEnd
        split at blankEnd
        · rename_i blank
          exact List.forall_mem_cons.mpr ⟨blank, inductionHypothesis blankEnd⟩
        · exact fun d member => blankEnd d (List.mem_reverse.mpr member)
  · intro allBlank c member
    exact allBlank c ((List.dropWhile_suffix isBlank).mem (List.mem_reverse.mp member))

/-- A text without blanks has none at its ends. -/
theorem trimChars_eq_self {text : List Char} (noBlanks : ∀ c ∈ text, ¬ isBlank c) :
    trimChars text = text := by
  have keepsAll : ∀ list : List Char, (∀ c ∈ list, ¬ isBlank c) →
      list.dropWhile isBlank = list := by
    intro list noBlanks
    rw [List.dropWhile_eq_self_iff]
    exact fun inside => noBlanks _ (List.getElem_mem inside)
  rw [trimChars, trimEnd, keepsAll text noBlanks,
    keepsAll _ fun c member => noBlanks c (List.mem_reverse.mp member), List.reverse_reverse]

/-- A clean form consists of blanks only if it is empty. -/
theorem trimChars_cleanChars_eq_nil_iff {text : List Char} :
    trimChars (cleanChars text) = [] ↔ cleanChars text = [] := by
  rw [trimChars_eq_nil_iff]
  constructor
  · intro allBlank
    rw [← cleanChars_cleanChars, cleanChars_eq_nil_iff]
    intro c member isWord
    simp [isWordChar, allBlank c member] at isWord
  · intro empty
    simp [empty]

end SiteScript.Text

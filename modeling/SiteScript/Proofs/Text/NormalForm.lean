import SiteScript.Proofs.Text.Runs

/-!
# Clean texts as normal forms

Cleaning replaces control characters by spaces and joins what stands between blanks.  Its result is
the only text without control characters in which spaces, and no other blanks, stand between
words, and which has the words of the text that is cleaned.
-/

namespace SiteScript.Text

variable {α : Type}

/-! ## Spaces for control characters -/

/-- A text with a space in the place of every control character. -/
def spaceControls (text : List Char) : List Char :=
  text.map fun c => if isControl c then ' ' else c

/-- A replacement that leaves kept elements alone and makes no other element one that is kept does
not change the runs. -/
theorem runs_map {keep keepReplaced : α → Bool} {replace : α → α}
    (sameKept : ∀ a, keepReplaced (replace a) = keep a) (leavesKept : ∀ a, keep a → replace a = a)
    (list : List α) : runs keepReplaced (list.map replace) = runs keep list := by
  have sameLeading : leadingRun keepReplaced (list.map replace) = leadingRun keep list := by
    induction list with
    | nil => rfl
    | cons a rest inductionHypothesis =>
        rw [List.map_cons, leadingRun_cons, leadingRun_cons, sameKept, inductionHypothesis]
        split
        · rename_i kept
          rw [leavesKept a kept]
        · rfl
  rw [runs, runs, sameLeading]

/-- The words of a text are what stands between blanks once its control characters are spaces. -/
theorem runs_spaceControls (text : List Char) :
    runs (fun c => !isBlank c) (spaceControls text) = words text := by
  have space : isBlank ' ' := by decide
  refine runs_map (fun c => ?_) (fun c isWord => ?_) text
  · by_cases control : isControl c
    · simp [control, isWordChar, space]
    · simp [control, isWordChar]
  · simp only [isWordChar, Bool.and_eq_true, Bool.not_eq_true'] at isWord
    simp [isWord.1]

/-! ## Words -/

/-- Whether two texts have the same words, in the same order. -/
def SameWords (first second : String) : Prop :=
  ∀ found, HasRuns isWordChar first.toList found ↔ HasRuns isWordChar second.toList found

theorem sameWords_iff {first second : String} :
    SameWords first second ↔ words first.toList = words second.toList := by
  simp only [SameWords, hasRuns_iff, words]
  constructor
  · intro same
    exact (same _).mpr rfl
  · intro same found
    rw [same]

/-- Two texts have the same clean form exactly when they have the same words. -/
theorem clean_eq_clean_iff {first second : String} :
    clean first = clean second ↔ SameWords first second := by
  rw [sameWords_iff, ← String.toList_inj, toList_clean, toList_clean]
  constructor
  · intro sameClean
    rw [← words_cleanChars, sameClean, words_cleanChars]
  · intro sameWords
    rw [cleanChars, sameWords, cleanChars]

theorem sameWords_clean (text : String) : SameWords (clean text) text :=
  clean_eq_clean_iff.mp (clean_clean text)

/-- Nothing is left of a text exactly when it consists of control characters and blanks. -/
theorem clean_eq_empty_iff {text : String} :
    clean text = "" ↔ ∀ c ∈ text.toList, isControl c ∨ isBlank c := by
  have notWord : ∀ c, ¬ isWordChar c ↔ isControl c ∨ isBlank c := by
    intro c
    cases control : isControl c <;> simp [isWordChar, control]
  rw [← String.toList_inj, toList_clean, String.toList_empty, cleanChars_eq_nil_iff]
  simp only [notWord]

/-! ## Normal forms -/

/-- A text in normal form that has the words of another one. -/
structure IsNormalFormOf (text form : String) : Prop where
  noControls : ∀ c ∈ form.toList, ¬ isControl c
  /-- No blanks but spaces. -/
  onlySpaces : ∀ c ∈ form.toList, isBlank c → c = ' '
  separates : Separates ' ' form.toList
  sameWords : SameWords form text

/-- Words that are separated by spaces are read to their end. -/
theorem spacing_of_separated {text : List Char} (wordsOrSpaces : ∀ c ∈ text, isWordChar c ∨ c = ' ')
    (notLast : text.getLast? ≠ some ' ')
    (notTwice : text.IsChain fun a b => ¬ (a = ' ' ∧ b = ' ')) {behindWord : Bool}
    (begins : behindWord = false → text ≠ [] ∧ text.head? ≠ some ' ') :
    spacing behindWord text = some true := by
  induction text generalizing behindWord with
  | nil =>
      cases behindWord with
      | false => exact absurd rfl (begins rfl).1
      | true => rfl
  | cons c rest inductionHypothesis =>
      obtain ⟨wordOrSpace, restWordsOrSpaces⟩ := List.forall_mem_cons.mp wordsOrSpaces
      obtain ⟨firstNotTwice, restNotTwice⟩ := List.isChain_cons.mp notTwice
      have restNotLast : rest.getLast? ≠ some ' ' := by
        intro isLast
        exact notLast (by rw [List.getLast?_cons, isLast, Option.getD_some])
      have onward : ∀ state, (state = false → rest ≠ [] ∧ rest.head? ≠ some ' ') →
          spacing state rest = some true :=
        fun _ => inductionHypothesis restWordsOrSpaces restNotLast restNotTwice
      rw [spacing]
      by_cases isWord : isWordChar c
      · rw [if_pos isWord]
        exact onward true fun impossible => absurd impossible (by decide)
      · have isSpace := wordOrSpace.resolve_left isWord
        have behind : behindWord = true := by
          cases behindWord with
          | true => rfl
          | false => exact absurd (congrArg some isSpace) (begins rfl).2
        rw [if_neg isWord, if_pos ⟨isSpace, behind⟩]
        refine onward false fun _ => ⟨?_, fun isFirst => firstNotTwice ' ' isFirst ⟨isSpace, rfl⟩⟩
        rintro rfl
        exact notLast (congrArg some isSpace)

namespace IsNormalFormOf

variable {text form : String}

/-- A text in normal form is clean. -/
theorem clean_eq_self (isNormalForm : IsNormalFormOf text form) : clean form = form := by
  obtain ⟨noControls, onlySpaces, separates, -⟩ := isNormalForm
  rw [clean_eq_self_iff, cleanChars_eq_self_iff]
  by_cases empty : form.toList = []
  · exact Or.inl empty
  · refine Or.inr (spacing_of_separated (fun c member => ?_) separates.notLast separates.notTwice
      fun _ => ⟨empty, separates.notFirst⟩)
    by_cases blank : isBlank c
    · exact Or.inr (onlySpaces c member blank)
    · exact Or.inl (by simp [isWordChar, noControls c member, blank])

theorem of_clean (text : String) : IsNormalFormOf text (clean text) where
  noControls c member := by
    rw [toList_clean] at member
    exact not_isControl_of_clean (cleanChars_cleanChars text.toList) member
  onlySpaces c member blank := by
    rw [toList_clean] at member
    have read := spacing_of_clean (cleanChars_cleanChars text.toList)
    refine (isWordChar_or_eq_space_of_spacing read member).resolve_left fun isWord => ?_
    simp [isWordChar, blank] at isWord
  separates := by
    rw [toList_clean]
    exact separates_intercalate_runs not_isWordChar_space fun _ => isRun_of_mem_runs
  sameWords := sameWords_clean text

end IsNormalFormOf

/-- The clean form of a text is the only text in normal form that has its words. -/
theorem clean_eq_iff {text form : String} : clean text = form ↔ IsNormalFormOf text form := by
  constructor
  · rintro rfl
    exact .of_clean text
  · intro isNormalForm
    rw [← isNormalForm.clean_eq_self, clean_eq_clean_iff.mpr isNormalForm.sameWords]

end SiteScript.Text

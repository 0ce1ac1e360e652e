import SiteScript.Proofs.Shell.Spelling

/-!
# Splitting undoes writing

A word that is given by its parts is one way to write what it stands for.  So the line of
some words splits into exactly their arguments, and any arguments can be written as a line by
quoting them.
-/

namespace SiteScript.Shell

/-! ## Well-formed words -/

/-- A part that can be written: what stands outside of quotes is not empty and holds neither
quotes nor blanks. -/
def Segment.WellFormed : Segment → Prop
  | .bare text => text.toList ≠ [] ∧
      ∀ c ∈ text.toList, c ≠ '\'' ∧ c ≠ '"' ∧ Text.isBlank c = false
  | .quoted _ => True

instance (segment : Segment) : Decidable segment.WellFormed :=
  match segment with
  | .bare _ => @instDecidableAnd _ _ inferInstance (List.decidableBAll _ _)
  | .quoted _ => inferInstanceAs (Decidable True)

/-- A word that can be written: it has at least one part. -/
def Word.WellFormed (word : Word) : Prop :=
  word ≠ [] ∧ ∀ segment ∈ word, segment.WellFormed

/-- What a word stands for, as characters. -/
def Word.meaning (word : Word) : List Char :=
  word.flatMap Segment.meaning

/-! ## Writing words -/

/-- A part of a word is one way to write what it stands for. -/
theorem writesPart_segment {segment : Segment} (wellFormed : segment.WellFormed) :
    WritesPart segment.meaning segment.chars := by
  cases segment with
  | bare text => exact .bare wellFormed.1 wellFormed.2
  | quoted text =>
      rw [Segment.chars, quoteChars_eq]
      exact .quoted .single (encloses_escape .single text.toList)

/-- A word is one way to write what it stands for. -/
theorem writesWord_word {word : Word} (wellFormed : Word.WellFormed word) :
    WritesWord (Word.meaning word) (word.flatMap Segment.chars) := by
  obtain ⟨notEmpty, segmentsWellFormed⟩ := wellFormed
  induction word with
  | nil => exact absurd rfl notEmpty
  | cons segment rest inductionHypothesis =>
      obtain ⟨segmentWellFormed, restWellFormed⟩ := List.forall_mem_cons.mp segmentsWellFormed
      have writes := writesPart_segment segmentWellFormed
      cases rest with
      | nil =>
          rw [Word.meaning, List.flatMap_singleton, List.flatMap_singleton]
          exact .single writes
      | cons next rest =>
          have writesLater := inductionHypothesis (List.cons_ne_nil next rest) restWellFormed
          rw [Word.meaning, List.flatMap_cons, List.flatMap_cons]
          exact .cons writes writesLater

/-! ## Lines -/

/-- How some words are written: each stands in front of blanks, of which there is at least one if
another word follows. -/
inductive Writes : List Word → List Char → Prop
  | nil : Writes [] []
  | cons {word : Word} {words : List Word} {gap rest : List Char}
      (wellFormed : Word.WellFormed word) (areBlank : ∀ c ∈ gap, Text.isBlank c = true)
      (apart : words ≠ [] → gap ≠ []) (writes : Writes words rest) :
      Writes (word :: words) (word.flatMap Segment.chars ++ gap ++ rest)

/-- Whether a text is a line of some words, with any blanks between them and around them. -/
def IsLineOf (words : List Word) (text : String) : Prop :=
  ∃ front rest, (∀ c ∈ front, Text.isBlank c = true) ∧ Writes words rest ∧
    text.toList = front ++ rest

theorem Writes.writesLine {words : List Word} {text : List Char} (writes : Writes words text) :
    WritesLine (words.map Word.argument) text := by
  induction writes with
  | nil => exact .nil
  | @cons word words gap rest wellFormed areBlank apart _ inductionHypothesis =>
      have writesWord := writesWord_word wellFormed
      rw [← String.toList_ofList (l := Word.meaning word)] at writesWord
      exact .cons writesWord areBlank (fun follows => apart (mt List.map_eq_nil_iff.mpr follows))
        inductionHypothesis

/-- A line of some words has their arguments. -/
theorem IsLineOf.isLineWith {words : List Word} {text : String} (isLine : IsLineOf words text) :
    IsLineWith (words.map Word.argument) text := by
  obtain ⟨front, rest, areBlank, writes, equal⟩ := isLine
  exact ⟨front, rest, areBlank, writes.writesLine, equal⟩

/-- A line splits into the arguments of its words. -/
theorem IsLineOf.split_eq {words : List Word} {text : String} (isLine : IsLineOf words text) :
    split text = words.map Word.argument :=
  isLine.isLineWith.split_eq

/-- Words with one space between them. -/
theorem writes_intercalate {words : List Word}
    (wellFormed : ∀ word ∈ words, Word.WellFormed word) :
    Writes words (List.intercalate [' '] (words.map fun word => word.flatMap Segment.chars)) := by
  induction words with
  | nil => exact .nil
  | cons word rest inductionHypothesis =>
      obtain ⟨wordWellFormed, restWellFormed⟩ := List.forall_mem_cons.mp wellFormed
      cases rest with
      | nil =>
          have writes := Writes.cons wordWellFormed (List.forall_mem_nil _) (absurd rfl) .nil
          rw [List.append_nil, List.append_nil] at writes
          rw [List.map_singleton, List.intercalate_singleton]
          exact writes
      | cons next rest =>
          have isBlank : ∀ c ∈ [' '], Text.isBlank c = true := List.forall_mem_singleton.mpr rfl
          rw [List.map_cons, List.map_cons, List.intercalate_cons_cons, ← List.map_cons]
          exact .cons wordWellFormed isBlank (fun _ => List.cons_ne_nil ' ' [])
            (inductionHypothesis restWellFormed)

theorem isLineOf_line {words : List Word} (wellFormed : ∀ word ∈ words, Word.WellFormed word) :
    IsLineOf words (line words) :=
  ⟨[], _, List.forall_mem_nil _, writes_intercalate wellFormed, String.toList_ofList⟩

/-- The line of some words splits into their arguments. -/
theorem split_line {words : List Word} (wellFormed : ∀ word ∈ words, Word.WellFormed word) :
    split (line words) = words.map Word.argument :=
  (isLineOf_line wellFormed).split_eq

/-! ## Quoting what has been split -/

/-- Words that stand between quotes as a whole. -/
def quotedWords (arguments : List String) : List Word :=
  arguments.map fun argument => [.quoted argument]

theorem line_quotedWords_singleton (text : String) : line (quotedWords [text]) = quote text := by
  rw [← String.toList_inj]
  simp [line, quotedWords, Segment.chars]

/-- Arguments of any kind stand in a line if they are quoted. -/
theorem isLineWith_quotedWords (arguments : List String) :
    IsLineWith arguments (line (quotedWords arguments)) := by
  have wellFormed : ∀ word ∈ quotedWords arguments, Word.WellFormed word := by
    refine List.forall_mem_map.mpr fun argument _ => ⟨List.cons_ne_nil _ _, ?_⟩
    exact List.forall_mem_singleton.mpr trivial
  have sameArguments : (quotedWords arguments).map Word.argument = arguments := by
    rw [quotedWords, List.map_map]
    simp [Function.comp_def, Word.argument, Segment.meaning]
  have isLine := (isLineOf_line wellFormed).isLineWith
  rwa [sameArguments] at isLine

theorem split_quotedWords (arguments : List String) :
    split (line (quotedWords arguments)) = arguments :=
  (isLineWith_quotedWords arguments).split_eq

/-- A line splits into one argument for each of its words, a quoted text into that text, and the
arguments of any line, quoted again, into themselves. -/
theorem IsLineOf.splitsBack {words : List Word} {text : String} (isLine : IsLineOf words text) :
    split text = words.map Word.argument ∧ (∀ text, split (quote text) = [text]) ∧
      ∀ text, split (line (quotedWords (split text))) = split text := by
  refine ⟨isLine.split_eq, fun text => ?_, fun text => split_quotedWords (split text)⟩
  rw [← line_quotedWords_singleton, split_quotedWords]

/-- A word with a backslash outside of quotes and the letters of an escape between them, an empty
word, and one that ends with a backslash between quotes. -/
def oddWords : List Word :=
  [[.bare "a\\", .quoted "it's\\n"], [.quoted ""], [.bare "--b=", .quoted "\"\\"]]

/-- A line of these words, with blanks of several kinds. -/
def oddLine : String :=
  "\ta\\'it\\'s\\\\n' \u3000''\n--b='\"\\\\'\u00a0"

theorem splitsBack_oddLine :
    IsLineOf oddWords oddLine ∧ split oddLine = ["a\\it's\\n", "", "--b=\"\\"] := by
  have areBlank : ∀ {gap : List Char}, gap.all Text.isBlank = true →
      ∀ c ∈ gap, Text.isBlank c = true := List.all_eq_true.mp
  have isLine : IsLineOf oddWords oddLine :=
    ⟨['\t'], _, areBlank rfl,
      @Writes.cons _ _ [' ', '\u3000'] _ ⟨by decide, by decide⟩ (areBlank rfl) (by decide) <|
      @Writes.cons _ _ ['\n'] _ ⟨by decide, by decide⟩ (areBlank rfl) (by decide) <|
      @Writes.cons _ _ ['\u00a0'] _ ⟨by decide, by decide⟩ (areBlank rfl) (by decide) .nil,
      by decide⟩
  refine ⟨isLine, isLine.splitsBack.1.trans ?_⟩
  decide

end SiteScript.Shell

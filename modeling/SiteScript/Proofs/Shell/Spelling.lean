import SiteScript.Proofs.Shell.Literals

/-!
# How arguments are written

An argument may be written in many ways: as it is, between either kind of quotes, or in
several parts that are written differently.  Only blanks outside of quotes end a word, so a line
splits into its arguments whichever way they are written.
-/

namespace SiteScript.Shell

open Php (Mark)

/-! ## Words -/

/-- How a text may be written between two quotes.  Backslashes and that quote are escaped; the other
quote and line ends may be. -/
inductive Encloses (mark : Mark) : List Char → List Char → Prop
  | nil : Encloses mark [] []
  | plain {c : Char} {text body : List Char} (notMark : c ≠ mark.char) (notBackslash : c ≠ '\\')
      (encloses : Encloses mark text body) : Encloses mark (c :: text) (c :: body)
  | escaped {c : Char} {text body : List Char} (isEscapable : c = '\\' ∨ c = '\'' ∨ c = '"')
      (encloses : Encloses mark text body) : Encloses mark (c :: text) ('\\' :: c :: body)
  | lineEnd {text body : List Char} (encloses : Encloses mark text body) :
      Encloses mark ('\n' :: text) ('\\' :: 'n' :: body)

/-- How a part of a word may be written. -/
inductive WritesPart : List Char → List Char → Prop
  /-- As it is, where it holds neither quotes nor blanks. -/
  | bare {text : List Char} (notEmpty : text ≠ [])
      (plain : ∀ c ∈ text, c ≠ '\'' ∧ c ≠ '"' ∧ Text.isBlank c = false) : WritesPart text text
  /-- Between two quotes of either kind. -/
  | quoted (mark : Mark) {text body : List Char} (encloses : Encloses mark text body) :
      WritesPart text (mark.char :: body ++ [mark.char])

/-- How a word may be written: in one part or in several. -/
inductive WritesWord : List Char → List Char → Prop
  | single {text chars : List Char} (writes : WritesPart text chars) : WritesWord text chars
  | cons {text chars laterText laterChars : List Char} (writes : WritesPart text chars)
      (writesLater : WritesWord laterText laterChars) :
      WritesWord (text ++ laterText) (chars ++ laterChars)

/-- How words may be written: each stands in front of blanks, of which there is at least one if
another word follows. -/
inductive WritesLine : List String → List Char → Prop
  | nil : WritesLine [] []
  | cons {argument : String} {later : List String} {word gap rest : List Char}
      (writes : WritesWord argument.toList word) (areBlank : ∀ c ∈ gap, Text.isBlank c = true)
      (apart : later ≠ [] → gap ≠ []) (writesLater : WritesLine later rest) :
      WritesLine (argument :: later) (word ++ gap ++ rest)

/-- Whether a line has the given arguments, with any blanks between them and around them. -/
def IsLineWith (arguments : List String) (line : String) : Prop :=
  ∃ front rest, (∀ c ∈ front, Text.isBlank c = true) ∧ WritesLine arguments rest ∧
    line.toList = front ++ rest

/-! ## Reading words -/

namespace Encloses

variable {mark : Mark} {text body : List Char}

theorem isEnclosable (encloses : Encloses mark text body) : IsEnclosable mark body := by
  induction encloses with
  | nil => exact .nil
  | plain notMark notBackslash _ inductionHypothesis =>
      exact .plain notMark notBackslash inductionHypothesis
  | escaped _ _ inductionHypothesis => exact .escaped _ inductionHypothesis
  | lineEnd _ inductionHypothesis => exact .escaped 'n' inductionHypothesis

/-- What stands between two quotes is unescaped to the text that is written there. -/
theorem unescape_eq (encloses : Encloses mark text body) : Php.unescape body = text := by
  induction encloses with
  | nil => rfl
  | plain _ notBackslash _ inductionHypothesis =>
      rw [Php.unescape_cons notBackslash, inductionHypothesis]
  | @escaped c _ _ isEscapable _ inductionHypothesis =>
      have notLetter : c ≠ 'n' := by
        rcases isEscapable with rfl | rfl | rfl <;> decide
      rw [Php.unescape, if_neg notLetter, if_pos isEscapable, inductionHypothesis]
  | lineEnd _ inductionHypothesis => rw [Php.unescape, if_pos rfl, inductionHypothesis]

end Encloses

/-- Quotes enclose an escaped text. -/
theorem encloses_escape (mark : Php.Mark) (text : List Char) :
    Encloses mark text (Php.escape mark text) := by
  rw [Php.escape]
  induction text with
  | nil => exact .nil
  | cons c rest inductionHypothesis =>
      rw [List.flatMap_cons, Php.escapeChar]
      split
      · rename_i isEscaped
        exact .escaped (Php.eq_of_isEscaped isEscaped) inductionHypothesis
      split
      · rename_i isLineEnd
        rw [isLineEnd]
        exact .lineEnd inductionHypothesis
      · rename_i notEscaped _
        obtain ⟨notBackslash, notMark⟩ := not_or.mp notEscaped
        exact .plain notMark notBackslash inductionHypothesis

namespace Splitting

/-- What stands outside of quotes is added character by character. -/
theorem foldl_step_bare {splitting : Splitting} (outside : splitting.mode = .bare)
    {text : List Char} (notEmpty : text ≠ [])
    (plain : ∀ c ∈ text, c ≠ '\'' ∧ c ≠ '"' ∧ Text.isBlank c = false) :
    text.foldl step splitting = splitting.add text := by
  induction text generalizing splitting with
  | nil => exact absurd rfl notEmpty
  | cons c rest inductionHypothesis =>
      obtain ⟨notQuote, notDoubleQuote, notBlank⟩ := plain c List.mem_cons_self
      have added : splitting.step c = splitting.add [c] := by
        simp [step, outside, notQuote, notDoubleQuote, notBlank]
      rw [List.foldl_cons, added]
      cases rest with
      | nil => rfl
      | cons d rest =>
          rw [inductionHypothesis (by simp [outside]) (by simp)
            fun a member => plain a (List.mem_cons_of_mem c member)]
          simp

/-- A part of a word adds what it stands for. -/
theorem foldl_step_part {splitting : Splitting} (outside : splitting.mode = .bare)
    {text chars : List Char} (writes : WritesPart text chars) :
    chars.foldl step splitting = splitting.add text := by
  cases writes with
  | bare notEmpty plain => exact foldl_step_bare outside notEmpty plain
  | quoted mark encloses =>
      rw [foldl_step_literal outside encloses.isEnclosable, encloses.unescape_eq]

/-- A word adds what it stands for. -/
theorem foldl_step_word {splitting : Splitting} (outside : splitting.mode = .bare)
    {text chars : List Char} (writes : WritesWord text chars) :
    chars.foldl step splitting = splitting.add text := by
  induction writes generalizing splitting with
  | single writes => exact foldl_step_part outside writes
  | cons writes _ inductionHypothesis =>
      rw [List.foldl_append, foldl_step_part outside writes,
        inductionHypothesis (by rw [mode_add, outside]), add_add]

/-! ## Reading lines -/

/-- A blank is neither quote. -/
theorem ne_quote_of_isBlank {c : Char} (blank : Text.isBlank c = true) :
    ¬ (c = '\'' ∨ c = '"') := by
  rintro (rfl | rfl) <;> exact absurd blank (by decide)

theorem step_blank {c : Char} (blank : Text.isBlank c = true) {splitting : Splitting}
    (outside : splitting.mode = .bare) : splitting.step c = splitting.endWord := by
  simp [step, outside, ne_quote_of_isBlank blank, blank]

/-- Blanks between words are passed over. -/
theorem foldl_step_gap {gap : List Char} (areBlank : ∀ c ∈ gap, Text.isBlank c = true)
    (read : List (List Char)) : gap.foldl step (between read) = between read := by
  induction gap with
  | nil => rfl
  | cons c gap inductionHypothesis =>
      obtain ⟨blank, restBlank⟩ := List.forall_mem_cons.mp areBlank
      rw [List.foldl_cons, step_blank blank rfl]
      exact inductionHypothesis restBlank

/-- Blanks behind a word end it. -/
theorem foldl_step_gap_add {gap : List Char} (areBlank : ∀ c ∈ gap, Text.isBlank c = true)
    (notEmpty : gap ≠ []) (read : List (List Char)) (argument : List Char) :
    gap.foldl step ((between read).add argument) = between (read ++ [argument]) := by
  cases gap with
  | nil => exact absurd rfl notEmpty
  | cons c gap =>
      obtain ⟨blank, restBlank⟩ := List.forall_mem_cons.mp areBlank
      have ended : ((between read).add argument).endWord = between (read ++ [argument]) := by
        simp [between, add, endWord]
      rw [List.foldl_cons, step_blank blank rfl, ended, foldl_step_gap restBlank]

end Splitting

open Splitting in
/-- Written words are read one after the other, behind those that have been read. -/
theorem WritesLine.finish_foldl_step {arguments : List String} {text : List Char}
    (writes : WritesLine arguments text) (read : List (List Char)) :
    (text.foldl step (between read)).finish = read ++ arguments.map String.toList := by
  induction writes generalizing read with
  | nil => rw [List.foldl_nil, finish_between, List.map_nil, List.append_nil]
  | @cons argument later word gap rest writes areBlank apart writesLater inductionHypothesis =>
      rw [List.foldl_append, List.foldl_append, foldl_step_word rfl writes, List.map_cons]
      by_cases isLast : later = []
      · subst isLast
        cases writesLater
        by_cases noGap : gap = []
        · rw [noGap, List.foldl_nil, List.foldl_nil, finish_add, List.map_nil]
        · rw [foldl_step_gap_add areBlank noGap, List.foldl_nil, finish_between, List.map_nil]
      · rw [foldl_step_gap_add areBlank (apart isLast), inductionHypothesis, List.append_assoc,
          List.singleton_append]

/-- A line splits into its arguments. -/
theorem IsLineWith.split_eq {arguments : List String} {line : String}
    (isLine : IsLineWith arguments line) : split line = arguments := by
  obtain ⟨front, rest, areBlank, writes, equal⟩ := isLine
  rw [split, splitChars, equal, List.foldl_append, Splitting.start_eq_between,
    Splitting.foldl_step_gap areBlank, writes.finish_foldl_step, List.nil_append, List.map_map]
  simp [Function.comp_def]

end SiteScript.Shell

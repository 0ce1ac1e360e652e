import Mathlib.Data.Bool.AllAny
import SiteScript.Php.Reading

/-!
# Quoted literals

A text is written as a literal by escaping backslashes, line ends and the quote that ends the
literal.  Reading goes up to that quote and no further, whatever the text is, and unescaping gives
the text back.
-/

namespace SiteScript.Php

/-! ## Quotes -/

/-- The quotes between which a text may stand. -/
inductive Mark where
  | single
  | double
  deriving Repr, DecidableEq

/-- The quote as a character. -/
def Mark.char : Mark → Char
  | .single => '\''
  | .double => '"'

variable {mark : Mark}

theorem Mark.char_ne_backslash (mark : Mark) : mark.char ≠ '\\' := by
  cases mark <;> decide

theorem Mark.not_isBlank_char (mark : Mark) : ¬ Text.isBlank mark.char := by
  cases mark <;> decide

theorem Mark.not_isPackedChar_char (mark : Mark) : ¬ isPackedChar mark.char := by
  cases mark <;> decide

@[simp]
theorem afterQuote?_mark (mark : Mark) (rest : List Char) :
    afterQuote? (mark.char :: rest) = some rest := by
  cases mark <;> rfl

/-! ## Bodies -/

/-- What may stand between two quotes: any characters apart from that quote and the backslash, and
backslashes with any character apart from a line end behind them. -/
inductive IsBody (mark : Mark) : List Char → Prop
  | nil : IsBody mark []
  | plain {c : Char} {rest : List Char} (notMark : c ≠ mark.char) (notBackslash : c ≠ '\\')
      (isBody : IsBody mark rest) : IsBody mark (c :: rest)
  | escaped {c : Char} {rest : List Char} (notLineEnd : c ≠ '\n') (isBody : IsBody mark rest) :
      IsBody mark ('\\' :: c :: rest)

theorem IsBody.append {first second : List Char} (isBody : IsBody mark first)
    (isOther : IsBody mark second) : IsBody mark (first ++ second) := by
  induction isBody with
  | nil => exact isOther
  | plain notMark notBackslash _ inductionHypothesis =>
      exact .plain notMark notBackslash inductionHypothesis
  | escaped notLineEnd _ inductionHypothesis => exact .escaped notLineEnd inductionHypothesis

/-- Text without quotes and backslashes. -/
theorem IsBody.of_plain {body : List Char} (plain : ∀ c ∈ body, c ≠ mark.char ∧ c ≠ '\\') :
    IsBody mark body := by
  induction body with
  | nil => exact .nil
  | cons c body inductionHypothesis =>
      obtain ⟨⟨notMark, notBackslash⟩, restPlain⟩ := List.forall_mem_cons.mp plain
      exact .plain notMark notBackslash (inductionHypothesis restPlain)

/-- The body of a literal is read up to the quote that ends it. -/
theorem literalBody?_append {body : List Char} (isBody : IsBody mark body)
    (read rest : List Char) :
    literalBody? mark.char read (body ++ mark.char :: rest) =
      some (read.reverse ++ body, rest) := by
  induction isBody generalizing read with
  | nil =>
      rw [List.nil_append, List.append_nil, literalBody?, if_pos rfl]
      exact fun _ _ isBackslash => absurd isBackslash mark.char_ne_backslash
  | plain notMark notBackslash _ inductionHypothesis =>
      rw [List.cons_append, literalBody?, if_neg notMark, if_neg notBackslash,
        inductionHypothesis]
      · simp
      · exact fun _ _ isBackslash => absurd isBackslash notBackslash
  | escaped notLineEnd _ inductionHypothesis =>
      rw [List.cons_append, List.cons_append, literalBody?, if_neg notLineEnd,
        inductionHypothesis]
      simp

/-! ## Escaping -/

/-- A character between two quotes. -/
def escapeChar (mark : Mark) (c : Char) : List Char :=
  if c = '\\' ∨ c = mark.char then ['\\', c]
  else if c = '\n' then ['\\', 'n']
  else [c]

/-- A text between two quotes. -/
def escape (mark : Mark) (text : List Char) : List Char :=
  text.flatMap (escapeChar mark)

theorem unescape_cons {c : Char} (notBackslash : c ≠ '\\') (rest : List Char) :
    unescape (c :: rest) = c :: unescape rest := by
  rw [unescape]
  exact fun _ _ isBackslash => absurd isBackslash notBackslash

/-- What is escaped by itself stands for itself. -/
theorem eq_of_isEscaped {c : Char} (isEscaped : c = '\\' ∨ c = mark.char) :
    c = '\\' ∨ c = '\'' ∨ c = '"' := by
  rcases isEscaped with isBackslash | isMark
  · exact Or.inl isBackslash
  · cases mark
    · exact Or.inr (Or.inl isMark)
    · exact Or.inr (Or.inr isMark)

/-- A character is unescaped by itself, whatever stands behind it. -/
theorem unescape_escapeChar_append (mark : Mark) (c : Char) (rest : List Char) :
    unescape (escapeChar mark c ++ rest) = c :: unescape rest := by
  rw [escapeChar]
  split
  · rename_i isEscaped
    have standsForItself := eq_of_isEscaped isEscaped
    have notLetter : c ≠ 'n' := by
      rcases standsForItself with rfl | rfl | rfl <;> decide
    rw [List.cons_append, List.singleton_append, unescape, if_neg notLetter,
      if_pos standsForItself]
  split
  · rename_i isLineEnd
    rw [List.cons_append, List.singleton_append, unescape, if_pos rfl, isLineEnd]
  · rename_i notEscaped _
    rw [List.singleton_append, unescape_cons (not_or.mp notEscaped).1]

/-- An escaped text is unescaped. -/
@[simp]
theorem unescape_escape (mark : Mark) (text : List Char) :
    unescape (escape mark text) = text := by
  rw [escape]
  induction text with
  | nil => rfl
  | cons c rest inductionHypothesis =>
      rw [List.flatMap_cons, unescape_escapeChar_append, inductionHypothesis]

theorem isBody_escapeChar (mark : Mark) (c : Char) : IsBody mark (escapeChar mark c) := by
  rw [escapeChar]
  split
  · rename_i isEscaped
    have notLineEnd : c ≠ '\n' := by
      rcases eq_of_isEscaped isEscaped with rfl | rfl | rfl <;> decide
    exact .escaped notLineEnd .nil
  split
  · exact .escaped (by decide) .nil
  · rename_i notEscaped _
    obtain ⟨notBackslash, notMark⟩ := not_or.mp notEscaped
    exact .plain notMark notBackslash .nil

/-- An escaped text may stand between its quotes. -/
theorem isBody_escape (mark : Mark) (text : List Char) : IsBody mark (escape mark text) := by
  rw [escape]
  induction text with
  | nil => exact .nil
  | cons c rest inductionHypothesis =>
      exact (isBody_escapeChar mark c).append inductionHypothesis

end SiteScript.Php

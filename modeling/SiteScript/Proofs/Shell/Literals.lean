import Mathlib.Data.List.Basic
import SiteScript.Proofs.Php.Literals
import SiteScript.Shell

/-!
# Words that are literals

Between two quotes a command line and a program escape alike.  A literal that is split as a
command line is one word, and that word is what the literal stands for; and a quoted text
is read back as that text in either way.
-/

namespace SiteScript.Shell

open Php (Mark)

/-! ## States -/

namespace Splitting

@[simp]
theorem mode_add (splitting : Splitting) (text : List Char) :
    (splitting.add text).mode = splitting.mode :=
  rfl

@[simp]
theorem add_add (splitting : Splitting) (first second : List Char) :
    (splitting.add first).add second = splitting.add (first ++ second) := by
  simp [add]

/-- Words have been read, and none is being read. -/
def between (read : List (List Char)) : Splitting :=
  ⟨.bare, none, (read.map List.reverse).reverse⟩

theorem start_eq_between : start = between [] :=
  rfl

theorem finish_between (read : List (List Char)) : (between read).finish = read := by
  simp [between, finish, endWord]

theorem finish_add (read : List (List Char)) (argument : List Char) :
    ((between read).add argument).finish = read ++ [argument] := by
  simp [between, finish, add, endWord]

end Splitting

/-! ## Between quotes -/

/-- What may stand between two quotes of a line: any characters apart from that quote and the
backslash, and backslashes with any character behind them. -/
inductive IsEnclosable (mark : Mark) : List Char → Prop
  | nil : IsEnclosable mark []
  | plain {c : Char} {rest : List Char} (notMark : c ≠ mark.char) (notBackslash : c ≠ '\\')
      (isEnclosable : IsEnclosable mark rest) : IsEnclosable mark (c :: rest)
  | escaped (c : Char) {rest : List Char} (isEnclosable : IsEnclosable mark rest) :
      IsEnclosable mark ('\\' :: c :: rest)

variable {mark : Mark} {body : List Char}

/-- The body of a literal of a program may stand between the same quotes of a line. -/
theorem IsEnclosable.of_isBody (isBody : Php.IsBody mark body) : IsEnclosable mark body := by
  induction isBody with
  | nil => exact .nil
  | plain notMark notBackslash _ inductionHypothesis =>
      exact .plain notMark notBackslash inductionHypothesis
  | escaped _ _ inductionHypothesis => exact .escaped _ inductionHypothesis

/-- A backslash and the character behind it stand for the same in a program and in a line. -/
theorem unescape_backslash_cons (c : Char) (rest : List Char) :
    Php.unescape ('\\' :: c :: rest) = unescape c ++ Php.unescape rest := by
  rw [Php.unescape, unescape]
  split
  · rfl
  split <;> rfl

namespace Splitting

/-- Between quotes the body of a literal adds what it stands for. -/
theorem foldl_step_body (isEnclosable : IsEnclosable mark body) (splitting : Splitting)
    (text : List Char) :
    body.foldl step { splitting.add text with mode := .quoted mark.char } =
      { splitting.add (text ++ Php.unescape body) with mode := .quoted mark.char } := by
  induction isEnclosable generalizing text with
  | nil => rw [List.foldl_nil, Php.unescape, List.append_nil]
  | @plain c rest notMark notBackslash _ inductionHypothesis =>
      have added : step { splitting.add text with mode := .quoted mark.char } c =
          { splitting.add (text ++ [c]) with mode := .quoted mark.char } := by
        simp [step, notMark, notBackslash, add]
      rw [List.foldl_cons, added, inductionHypothesis, Php.unescape_cons notBackslash,
        List.append_assoc, List.singleton_append]
  | @escaped c rest _ inductionHypothesis =>
      have added : step (step { splitting.add text with mode := .quoted mark.char } '\\') c =
          { splitting.add (text ++ unescape c) with mode := .quoted mark.char } := by
        simp [step, Ne.symm mark.char_ne_backslash, add]
      rw [List.foldl_cons, List.foldl_cons, added, inductionHypothesis, unescape_backslash_cons,
        List.append_assoc]

/-- A literal adds what it stands for. -/
theorem foldl_step_literal {splitting : Splitting} (outside : splitting.mode = .bare)
    (isEnclosable : IsEnclosable mark body) :
    (mark.char :: body ++ [mark.char]).foldl step splitting =
      splitting.add (Php.unescape body) := by
  obtain ⟨mode, word, words⟩ := splitting
  subst outside
  have opened : step ⟨.bare, word, words⟩ mark.char =
      { (add ⟨.bare, word, words⟩ []) with mode := .quoted mark.char } := by
    cases mark <;> rfl
  rw [List.cons_append, List.foldl_cons, opened, List.foldl_append, foldl_step_body isEnclosable]
  simp [step, add]

end Splitting

theorem split_literal (isEnclosable : IsEnclosable mark body) :
    split (.ofList (mark.char :: body ++ [mark.char])) = [.ofList (Php.unescape body)] := by
  rw [split, splitChars, String.toList_ofList, Splitting.start_eq_between,
    Splitting.foldl_step_literal rfl isEnclosable, Splitting.finish_add]
  rfl

/-! ## Quoted texts -/

/-- Quoting writes a text as a literal. -/
theorem quoteChars_eq (text : List Char) :
    quoteChars text = Mark.single.char :: Php.escape .single text ++ [Mark.single.char] := by
  have sameEscape : quoteChar = Php.escapeChar .single := by
    funext c
    rw [quoteChar, Php.escapeChar, Mark.char]
    by_cases backslash : c = '\\'
    · simp [backslash]
    · simp only [backslash, if_false, false_or]
      split
      · rename_i isQuote
        rw [isQuote]
      · rfl
  rw [quoteChars, Php.escape, sameEscape]
  rfl

/-- How a quoted text is read, with what stands between its quotes. -/
structure IsReadAs (text : String) (inner : List Char) : Prop where
  quoted : (quote text).toList = '\'' :: inner ++ ['\'']
  isEnclosable : IsEnclosable .single inner
  unescaped : .ofList (Php.unescape inner) = text
  split : split (quote text) = [text]
  /-- In a program it is the literal that has this between its quotes. -/
  literal : ∀ rest, Php.value? ((quote text).toList ++ rest) = some (.literal inner, rest)

theorem isReadAs_escape (text : String) : IsReadAs text (Php.escape .single text.toList) := by
  have isBody := Php.isBody_escape .single text.toList
  have isEnclosable := IsEnclosable.of_isBody isBody
  have quoted : (quote text).toList =
      Mark.single.char :: Php.escape .single text.toList ++ [Mark.single.char] := by
    rw [toList_quote, quoteChars_eq]
  have unescaped : .ofList (Php.unescape (Php.escape .single text.toList)) = text := by
    rw [Php.unescape_escape, String.ofList_toList]
  refine ⟨quoted, isEnclosable, unescaped, ?_, fun rest => ?_⟩
  · rw [← String.ofList_toList (s := quote text), quoted, split_literal isEnclosable, unescaped]
  · have read := Php.literalBody?_append isBody [] rest
    rw [List.reverse_nil, List.nil_append] at read
    rw [quoted, List.cons_append, List.cons_append, List.append_assoc, List.singleton_append]
    simp only [Mark.char] at read ⊢
    rw [Php.value?, read]
    rfl

/-- A literal is split into one word, which is what the literal stands for.  So a quoted text is
split into that text, and read as that text where it stands in a program. -/
theorem IsEnclosable.splitsAsLiteral (isEnclosable : IsEnclosable mark body) :
    split (.ofList (mark.char :: body ++ [mark.char])) = [.ofList (Php.unescape body)] ∧
      ∀ text, ∃ inner, IsReadAs text inner :=
  ⟨split_literal isEnclosable, fun text => ⟨_, isReadAs_escape text⟩⟩

/-- The other quote as it is, the enclosing quote escaped, a backslash in front of a letter and of a
line end, and an escaped line end and backslash. -/
def oddBody : List Char :=
  ['\'', '\\', '"', '\\', 't', '\\', '\n', '\\', 'n', '\\', '\\']

theorem splitsAsLiteral_oddBody :
    IsEnclosable .double oddBody ∧ split "\"'\\\"\\t\\\n\\n\\\\\"" = ["'\"\\t\\\n\n\\"] := by
  have isEnclosable : IsEnclosable .double oddBody :=
    .plain (by decide) (by decide) <| .escaped _ <| .escaped _ <| .escaped _ <| .escaped _ <|
      .escaped _ .nil
  exact ⟨isEnclosable, isEnclosable.splitsAsLiteral.1⟩

end SiteScript.Shell

import SiteScript.Proofs.Php.Fields
import SiteScript.Text.Search

/-!
# Reading lookups

The program that adds an item to a menu looks up the menu by its name and the page by its
title.  Both are read back, because nothing in front of them can be taken for a lookup.
-/

namespace SiteScript.Php

open Text (leftmost?)

variable {α : Type}

/-! ## The leftmost place -/

theorem leftmost?_of_eq_some {recognise : List Char → Option α} {input : List Char} {found : α}
    (recognised : recognise input = some found) : leftmost? recognise input = some found := by
  cases input with
  | nil => exact recognised
  | cons c rest => rw [leftmost?, recognised]

/-- A text at no place of which anything is recognised is skipped. -/
theorem leftmost?_append {recognise : List Char → Option α} {text rest : List Char}
    (fails : ∀ before c after, text = before ++ c :: after →
      recognise (c :: (after ++ rest)) = none) :
    leftmost? recognise (text ++ rest) = leftmost? recognise rest := by
  induction text with
  | nil => rfl
  | cons c text inductionHypothesis =>
      rw [List.cons_append, leftmost?, fails [] c text rfl]
      refine inductionHypothesis fun before d after equal => ?_
      exact fails (c :: before) d after (by rw [equal, List.cons_append])

/-- A text is skipped if it has none of the characters with which anything recognised begins. -/
theorem leftmost?_append_of_not_mem {recognise : List Char → Option α} {first : Char}
    (begins : ∀ c rest, c ≠ first → recognise (c :: rest) = none) {text : List Char}
    (notIn : first ∉ text) (rest : List Char) :
    leftmost? recognise (text ++ rest) = leftmost? recognise rest := by
  apply leftmost?_append
  intro before c after equal
  apply begins
  rintro rfl
  exact notIn (by rw [equal]; simp)

/-! ## Packed texts -/

theorem packedText?_written {symbols : List Char} (packed : ∀ c ∈ symbols, isPackedChar c)
    (rest : List Char) :
    packedText? ((Value.packed symbols).written ++ rest) = some (symbols, rest) := by
  have opened : after? "base64_decode(".toList ((Value.packed symbols).written ++ rest) =
      some ('"' :: (symbols ++ '"' :: (')' :: rest))) := by
    rw [Value.written, List.append_assoc, List.cons_append, List.append_assoc]
    exact after?_append Value.packedOpening.toList _
  rw [packedText?, opened]
  simp only [Option.bind_eq_bind, Option.bind_some]
  rw [skipBlanks_cons_of_not (by decide)]
  simp only [after?, if_true, Option.bind_some]
  rw [dropWhile_isPackedChar packed (by decide)]
  simp only [after?, if_true, Option.bind_some]
  rw [skipBlanks_cons_of_not (by decide), takeWhile_isPackedChar packed (by decide)]
  simp only [after?, if_true, Option.bind_some]
  rfl

/-! ## The lookup of a menu -/

theorem menuLookup?_eq_none {c : Char} (differs : c ≠ 'w') (rest : List Char) :
    menuLookup? (c :: rest) = none := by
  have begins : "wp_get_nav_menu_object(".toList = 'w' :: "p_get_nav_menu_object(".toList := by
    decide
  rw [menuLookup?, begins, after?, if_neg differs]
  rfl

/-- A written lookup of a menu is read. -/
theorem menuLookup?_written {symbols : List Char} (packed : ∀ c ∈ symbols, isPackedChar c)
    (rest : List Char) :
    menuLookup? ("wp_get_nav_menu_object(".toList ++
      ((Value.packed symbols).written ++ ')' :: rest)) = some symbols := by
  obtain ⟨c, tail, equal, notBlank, -⟩ := (Value.packed symbols).exists_writtenIn_eq .double
  rw [Value.writtenIn_double] at equal
  rw [menuLookup?, after?_append]
  simp only [Option.bind_eq_bind, Option.bind_some]
  rw [equal, List.cons_append, skipBlanks_cons_of_not notBlank, ← List.cons_append, ← equal,
    packedText?_written packed]
  simp only [Option.bind_some]
  rw [skipBlanks_cons_of_not (by decide)]
  rfl

/-! ## The lookup of a title -/

theorem titleLookup?_eq_none {c : Char} (differs : c ≠ '"') (rest : List Char) :
    titleLookup? (c :: rest) = none := by
  have begins : "\"title\"".toList = '"' :: "title\"".toList := by decide
  rw [titleLookup?, begins, after?, if_neg differs]
  rfl

theorem titleLookup?_quote_eq_none {c : Char} (differs : c ≠ 't') (rest : List Char) :
    titleLookup? ('"' :: c :: rest) = none := by
  have begins : "\"title\"".toList = '"' :: 't' :: "itle\"".toList := by decide
  rw [titleLookup?, begins, after?, if_pos rfl, after?, if_neg differs]
  rfl

/-- A quoted text in front of a closing parenthesis is no lookup, whatever it says. -/
theorem titleLookup?_quoted_eq_none {text : List Char} (noQuote : '"' ∉ text)
    (rest : List Char) : titleLookup? ('"' :: (text ++ '"' :: ')' :: rest)) = none := by
  have begins : "\"title\"".toList = '"' :: ("title".toList ++ ['"']) := by decide
  have noQuoteInTitle : '"' ∉ "title".toList := by decide
  rw [titleLookup?, begins, after?, if_pos rfl]
  cases found : after? ("title".toList ++ ['"']) (text ++ '"' :: ')' :: rest) with
  | none => rfl
  | some behind =>
      have equal := eq_append_of_after? found
      rw [List.append_assoc, List.singleton_append] at equal
      have notQuote : ∀ {list : List Char}, '"' ∉ list → ∀ c ∈ list, c != '"' := by
        intro list notIn c member
        rw [bne_iff_ne]
        rintro rfl
        exact notIn member
      have sameRest := congrArg (List.dropWhile (· != '"')) equal
      rw [List.dropWhile_append_of_pos (notQuote noQuote),
        List.dropWhile_append_of_pos (notQuote noQuoteInTitle),
        List.dropWhile_cons_of_neg (by decide), List.dropWhile_cons_of_neg (by decide)] at sameRest
      rw [← (List.cons.inj sameRest).2]
      rfl

/-- Whether every quote of a text has a character behind it that no title lookup has there. -/
def quotesOther : List Char → Bool
  | [] => true
  | c :: rest => (c != '"' || rest.head?.any (· != 't')) && quotesOther rest

theorem leftmost?_titleLookup?_append {text : List Char} (other : quotesOther text)
    (rest : List Char) :
    leftmost? titleLookup? (text ++ rest) = leftmost? titleLookup? rest := by
  induction text with
  | nil => rfl
  | cons c text inductionHypothesis =>
      simp only [quotesOther, Bool.and_eq_true, Bool.or_eq_true, bne_iff_ne] at other
      obtain ⟨here, otherBehind⟩ := other
      have fails : titleLookup? (c :: (text ++ rest)) = none := by
        rcases here with notQuote | followed
        · exact titleLookup?_eq_none notQuote _
        · cases text with
          | nil => cases followed
          | cons d text =>
              by_cases quote : c = '"'
              · rw [quote]
                exact titleLookup?_quote_eq_none (by simpa using followed) _
              · exact titleLookup?_eq_none quote _
      rw [List.cons_append, leftmost?, fails]
      exact inductionHypothesis otherBehind

/-- A packed text in front of a closing parenthesis is skipped. -/
theorem leftmost?_titleLookup?_written {symbols : List Char}
    (packed : ∀ c ∈ symbols, isPackedChar c) (rest : List Char) :
    leftmost? titleLookup? ((Value.packed symbols).written ++ rest) =
      leftmost? titleLookup? rest := by
  have noQuote : '"' ∉ symbols := fun quote => absurd (packed '"' quote) (by decide)
  have skips : ∀ {text : List Char}, '"' ∉ text → ∀ rest,
      leftmost? titleLookup? (text ++ rest) = leftmost? titleLookup? rest :=
    leftmost?_append_of_not_mem fun _ rest differs => titleLookup?_eq_none differs rest
  rw [Value.written, List.append_assoc, skips (by decide), List.cons_append, List.append_assoc]
  rw [leftmost?, List.cons_append, List.cons_append, titleLookup?_quoted_eq_none noQuote]
  simp only []
  rw [skips noQuote]
  have closing : quotesOther ['"', ')'] := by decide
  exact leftmost?_titleLookup?_append closing rest

/-- A written lookup of a title is read. -/
theorem titleLookup?_written {symbols : List Char} (packed : ∀ c ∈ symbols, isPackedChar c)
    (rest : List Char) :
    titleLookup? ("\"title\"".toList ++ (' ' :: '=' :: '>' :: ' ' ::
      ((Value.packed symbols).written ++ rest))) = some symbols := by
  have blank : Text.isBlank ' ' := by decide
  obtain ⟨c, tail, equal, notBlank, -⟩ := (Value.packed symbols).exists_writtenIn_eq .double
  rw [Value.writtenIn_double] at equal
  rw [titleLookup?, after?_append]
  simp only [Option.bind_eq_bind, Option.bind_some]
  rw [skipBlanks, List.dropWhile_cons_of_pos blank, List.dropWhile_cons_of_neg (by decide)]
  simp only [after?, if_true, Option.bind_some]
  rw [skipBlanks, List.dropWhile_cons_of_pos blank, equal, List.cons_append,
    List.dropWhile_cons_of_neg notBlank, ← List.cons_append, ← equal, packedText?_written packed]
  rfl

/-! ## The program that adds an item to a menu -/

theorem exists_source_addMenuItem (menu : String) (target : CreatedContent) :
    ∃ behind, (Program.addMenuItem menu target).source.toList =
      "$menu = ".toList ++ ("wp_get_nav_menu_object(".toList ++
        ((Value.packed (symbolsOf menu)).written ++ ')' ::
          ("; $posts = get_posts(array(\"post_type\" => \"".toList ++ (target.type.name.toList ++
            ("\", ".toList ++ ("\"title\"".toList ++ (' ' :: '=' :: '>' :: ' ' ::
              ((Value.packed (symbolsOf target.title)).written ++ behind)))))))) := by
  have split : ∃ tail, (Program.addMenuItem menu target).parts =
      [.fixed "$menu = wp_get_nav_menu_object(", .literal menu, .fixed "); $posts = ",
        .fixed ("get_posts(array(\"post_type\" => \"" ++ target.type.name ++
          "\", \"title\" => "), .literal target.title] ++ tail := ⟨_, rfl⟩
  obtain ⟨tail, split⟩ := split
  have source : (Program.addMenuItem menu target).source.toList =
      (Program.addMenuItem menu target).parts.flatMap fun part => part.source.toList :=
    String.toList_ofList
  refine ⟨tail.flatMap fun part => part.source.toList, source.trans ?_⟩
  rw [split, List.flatMap_append]
  simp only [Part.source, textExpression_eq, symbolsOf, String.toList_append,
    List.flatMap_cons, List.flatMap_nil, Value.written, Value.packedOpening]
  repeat rw [String.toList_ofList]
  simp only [List.cons_append, List.nil_append, List.append_assoc]

/-- The menu that is looked up. -/
theorem leftmost?_menuLookup? (menu : String) (target : CreatedContent) :
    leftmost? menuLookup? (Program.addMenuItem menu target).source.toList =
      some (symbolsOf menu) := by
  obtain ⟨behind, equal⟩ := exists_source_addMenuItem menu target
  rw [equal, leftmost?_append_of_not_mem (fun _ rest differs => menuLookup?_eq_none differs rest)
    (by decide)]
  exact leftmost?_of_eq_some (menuLookup?_written isPackedChar_of_mem_symbolsOf _)

/-- The title that is looked up. -/
theorem leftmost?_titleLookup? (menu : String) (target : CreatedContent) :
    leftmost? titleLookup? (Program.addMenuItem menu target).source.toList =
      some (symbolsOf target.title) := by
  obtain ⟨behind, equal⟩ := exists_source_addMenuItem menu target
  rw [equal, leftmost?_titleLookup?_append (by decide +kernel),
    leftmost?_titleLookup?_append (by decide +kernel),
    leftmost?_titleLookup?_written isPackedChar_of_mem_symbolsOf]
  have between : ∀ type : PostType, quotesOther
      (')' :: ("; $posts = get_posts(array(\"post_type\" => \"".toList ++
        (type.name.toList ++ "\", ".toList))) := by
    intro type
    cases type <;> decide +kernel
  have skipped := leftmost?_titleLookup?_append (between target.type)
    ("\"title\"".toList ++ (' ' :: '=' :: '>' :: ' ' ::
      ((Value.packed (symbolsOf target.title)).written ++ behind)))
  rw [List.cons_append, List.append_assoc, List.append_assoc] at skipped
  rw [skipped]
  exact leftmost?_of_eq_some (titleLookup?_written isPackedChar_of_mem_symbolsOf behind)

end SiteScript.Php

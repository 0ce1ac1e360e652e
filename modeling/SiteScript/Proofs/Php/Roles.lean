import SiteScript.Proofs.Php.Fields
import SiteScript.Proofs.Php.Frame

/-!
# Programs that add roles

The identifier of a role is the one payload that is not in Base64.  It is made of words of the
author, so a program that adds a role may have in it what only other programs have in their fixed
text, but only as far as letters, digits and underscores go.
-/

namespace SiteScript.Php

open Text (occursIn leftmost?)

/-- A text without double quotes occurs in a woven text if it occurs in a chunk or in a payload. -/
theorem occursIn_chars_eq {part : List Char} (notEmpty : part ≠ []) (noQuote : '"' ∉ part)
    {woven : Woven} (quotes : quotesPayloads woven.chunks) :
    occursIn part woven.chars =
      (woven.chunks.any (occursIn part) || woven.payloads.any (occursIn part)) := by
  rw [occursIn_chars notEmpty noQuote quotes, Woven.chunks, Woven.payloads, List.any_cons,
    List.any_map, List.any_map, Bool.or_assoc, Bool.eq_iff_iff]
  simp only [Bool.or_eq_true, List.any_eq_true, Function.comp_apply, and_or_left, exists_or,
    or_comm]

/-- A text does not occur in characters that it needs others than. -/
theorem occursIn_eq_false {part text : List Char} {c : Char} (inPart : c ∈ part)
    (notIn : c ∉ text) : occursIn part text = false := by
  rw [Bool.eq_false_iff]
  intro occurs
  obtain ⟨before, after, rfl⟩ := Text.occursIn_iff.mp occurs
  exact notIn (List.mem_append_left after (List.mem_append_right before inPart))

/-- The identifier of a role, and its packed texts. -/
theorem payloads_addRole (name : String) (capabilities : List String) :
    (Program.addRole name capabilities).woven.payloads =
      [(slug name).toList, symbolsOf name, symbolsOf (",".intercalate capabilities)] :=
  payloads_eq (.addRole name capabilities)

/-- A text that cannot occur in Base64 occurs in a program that adds a role as fixed text or in the
identifier of the role. -/
theorem contains_addRole (name : String) (capabilities : List String) {part : String}
    (noQuote : '"' ∉ part.toList) {c : Char} (inPart : c ∈ part.toList)
    (notPacked : isPackedChar c = false) :
    Text.contains (Program.addRole name capabilities).source part =
      ((Program.addRole "" []).woven.chunks.any (occursIn part.toList) ||
        Text.contains (slug name) part) := by
  have notInPacked : ∀ text : String, occursIn part.toList (symbolsOf text) = false := by
    intro text
    apply occursIn_eq_false inPart
    intro isSymbol
    rw [isPackedChar_of_mem_symbolsOf c isSymbol] at notPacked
    cases notPacked
  have sameChunks : (Program.addRole "" []).woven.chunks =
      (Program.addRole name capabilities).woven.chunks :=
    chunks_outline (.addRole name capabilities)
  rw [Text.contains, toList_source, occursIn_chars_eq (List.ne_nil_of_mem inPart) noQuote
    (quotesPayloads_of_isFrame (isFrame_chunks _)), payloads_addRole, sameChunks]
  simp only [List.any_cons, List.any_nil, notInPacked, Bool.or_false, Text.contains]

/-! ## No lookups -/

/-- No menu is looked up where the name of the function does not occur. -/
theorem leftmost?_menuLookup?_eq_none {text : List Char}
    (notIn : occursIn "wp_get_nav_menu_object(".toList text = false) :
    leftmost? menuLookup? text = none := by
  induction text with
  | nil => decide
  | cons c rest inductionHypothesis =>
      rw [occursIn, Bool.or_eq_false_iff] at notIn
      have fails : menuLookup? (c :: rest) = none := by
        rw [menuLookup?]
        cases found : after? "wp_get_nav_menu_object(".toList (c :: rest) with
        | none => rfl
        | some behind =>
            have begins : "wp_get_nav_menu_object(".toList.isPrefixOf (c :: rest) = true := by
              rw [List.isPrefixOf_iff_prefix, eq_append_of_after? found]
              exact List.prefix_append _ _
            rw [notIn.1] at begins
            cases begins
      rw [leftmost?, fails]
      exact inductionHypothesis notIn.2

/-- A program that adds a role looks up no menu, whatever the role is called. -/
theorem leftmost?_menuLookup?_addRole (name : String) (capabilities : List String) :
    leftmost? menuLookup? (Program.addRole name capabilities).source.toList = none := by
  apply leftmost?_menuLookup?_eq_none
  have noParenthesis : '(' ∉ (slug name).toList := by
    intro inSlug
    exact absurd (isIdentifierChar_of_mem_slug inSlug) (by decide)
  have notFixed : (Program.addRole "" []).woven.chunks.any
      (occursIn "wp_get_nav_menu_object(".toList) = false := by
    decide +kernel
  have inCall : '(' ∈ "wp_get_nav_menu_object(".toList := by
    decide
  have noCall := contains_addRole name capabilities (by decide) inCall (by decide)
  rwa [Text.contains, notFixed, Text.contains, occursIn_eq_false inCall noParenthesis] at noCall

end SiteScript.Php

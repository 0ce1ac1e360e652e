import Mathlib.Data.List.Nodup
import SiteScript.Proofs.Php.Fields
import SiteScript.Proofs.Php.Frame

/-!
# Programs told by their texts

The text of a program tells its kind and its payloads: without the payloads it is the text of the
program's outline, and between double quotes the payloads end where they end in the text.  So two
programs with the same text make, or look up, the same page or post.
-/

namespace SiteScript.Php

/-! ## Payloads -/

/-- Texts that end at the next double quote are the same in the same text, and so is what is behind
them. -/
theorem append_quote_inj {first second rest other : List Char} (noQuote : '"' ∉ first)
    (noQuoteInSecond : '"' ∉ second) (same : first ++ '"' :: rest = second ++ '"' :: other) :
    first = second ∧ rest = other := by
  have notQuote : ∀ {text : List Char}, '"' ∉ text → ∀ c ∈ text, c != '"' := by
    intro text notIn c member
    rw [bne_iff_ne]
    rintro rfl
    exact notIn member
  have sameText := congrArg (List.takeWhile (· != '"')) same
  rw [List.takeWhile_append_of_pos (notQuote noQuote),
    List.takeWhile_append_of_pos (notQuote noQuoteInSecond),
    List.takeWhile_cons_of_neg (by decide), List.takeWhile_cons_of_neg (by decide),
    List.append_nil, List.append_nil] at sameText
  subst sameText
  exact ⟨rfl, (List.cons.inj (List.append_cancel_left same)).2⟩

/-- The payloads of a text are told by the text, if they are quoted and its chunks are known. -/
theorem Woven.payloads_eq_of_chars_eq {first second : Woven}
    (sameChunks : first.chunks = second.chunks) (quotes : quotesPayloads first.chunks)
    (noQuotes : ∀ payload ∈ first.payloads, '"' ∉ payload)
    (noQuotesInSecond : ∀ payload ∈ second.payloads, '"' ∉ payload)
    (same : first.chars = second.chars) : first.payloads = second.payloads := by
  obtain ⟨chunk, pieces⟩ := first
  obtain ⟨other, otherPieces⟩ := second
  obtain ⟨rfl, sameLater⟩ := List.cons.inj sameChunks
  have samePieces := List.append_cancel_left same
  clear same sameChunks
  induction pieces generalizing chunk otherPieces with
  | nil =>
      have noneLater : otherPieces = [] := List.map_eq_nil_iff.mp sameLater.symm
      rw [noneLater]
  | cons piece rest inductionHypothesis =>
      obtain ⟨payload, behind⟩ := piece
      cases otherPieces with
      | nil => cases sameLater
      | cons otherPiece otherRest =>
          obtain ⟨otherPayload, otherBehind⟩ := otherPiece
          obtain ⟨sameBehind, sameRest⟩ := List.cons.inj sameLater
          simp only at sameBehind
          subst sameBehind
          obtain ⟨noQuote, restNoQuotes⟩ := List.forall_mem_cons.mp noQuotes
          obtain ⟨otherNoQuote, otherNoQuotes⟩ := List.forall_mem_cons.mp noQuotesInSecond
          simp only [Woven.chunks, List.map_cons, quotesPayloads, Bool.and_eq_true,
            beq_iff_eq] at quotes
          obtain ⟨⟨-, begins⟩, restQuotes⟩ := quotes
          obtain ⟨afterQuote, rfl⟩ := List.head?_eq_some_iff.mp begins
          simp only [List.flatMap_cons, List.append_assoc, List.cons_append] at samePieces
          obtain ⟨samePayload, sameTail⟩ := append_quote_inj noQuote otherNoQuote samePieces
          have ofRest := inductionHypothesis ('"' :: afterQuote) restQuotes restNoQuotes otherRest
            otherNoQuotes sameRest (List.append_cancel_left sameTail)
          rw [Woven.payloads, Woven.payloads, List.map_cons, List.map_cons]
          exact congrArg₂ List.cons samePayload ofRest

theorem noQuote_of_mem_payloads {program : Program} {payload : List Char}
    (isPayload : payload ∈ program.woven.payloads) : '"' ∉ payload := by
  intro quote
  exact absurd (isPayloadChar_of_mem isPayload quote) (by decide)

/-! ## Programs -/

variable {program other : Program}

/-- Different outlines have different fixed texts. -/
theorem nodup_frames : (outlines.map fun outline => outline.woven.frame).Nodup := by
  simp only [outlines, outlinesOf, Program.woven, Program.parts, lookup, PostType.name, weave,
    Part.weave, Woven.frame, Woven.chunks, Woven.addFixed, Woven.addPayload, Woven.empty,
    List.cons_append, List.nil_append, List.foldr_cons, List.foldr_nil, List.map_cons,
    List.map_nil, String.toList_append]
  repeat rw [String.toList_ofList]
  decide +kernel

/-- Programs with the same text have the same outline. -/
theorem outline_eq_of_source_eq (same : program.source = other.source) :
    program.outline = other.outline := by
  have sameFrame : program.woven.frame = other.woven.frame := by
    rw [← String.ofList_inj, ← strip_source, ← strip_source, same]
  apply List.inj_on_of_nodup_map nodup_frames (outline_mem_outlines program)
    (outline_mem_outlines other)
  rw [Woven.frame, Woven.frame, chunks_outline, chunks_outline]
  exact sameFrame

/-- Programs with the same text have the same payloads. -/
theorem payloads_eq_of_source_eq (same : program.source = other.source) :
    program.woven.payloads = other.woven.payloads := by
  have sameChunks : program.woven.chunks = other.woven.chunks := by
    rw [← chunks_outline, outline_eq_of_source_eq same, chunks_outline]
  refine Woven.payloads_eq_of_chars_eq sameChunks
    (quotesPayloads_of_isFrame (isFrame_chunks program)) (fun _ => noQuote_of_mem_payloads)
    (fun _ => noQuote_of_mem_payloads) ?_
  rw [← toList_source, ← toList_source, same]

/-! ## Pages and posts -/

/-- The text that a payload in Base64 carries. -/
def carried (payload : List Char) : String :=
  (Link.decode (.ofList payload)).toOption.getD ""

@[simp]
theorem carried_symbolsOf (text : String) : carried (symbolsOf text) = Link.packable text := by
  rw [carried, symbolsOf, String.ofList_toList, Link.decode_pack]
  rfl

/-- The page or post that a program makes, with the title that the program carries. -/
def Program.made? : Program → Option CreatedContent
  | .insertPost type _ title _ => some { type, title := Link.packable title }
  | _ => none

/-- The page or post that a program looks up, with the title that the program carries. -/
def Program.lookedUp? : Program → Option CreatedContent
  | .attachImage target | .setHomepage target | .setPostsPage target | .addMenuItem _ target =>
    some { target with title := Link.packable target.title }
  | .insertPost .. | .addRole .. => none

/-- What a program makes is told by its outline and its payloads. -/
theorem made?_eq (program : Program) :
    program.made? = program.outline.made?.map fun created =>
      { created with title := carried (program.woven.payloads.getD 1 []) } := by
  cases program with
  | insertPost type status title body =>
      rw [payloads_eq]
      simp [Program.made?, Program.outline]
  | _ => rfl

/-- What a program looks up is told by its outline and its payloads. -/
theorem lookedUp?_eq (program : Program) :
    program.lookedUp? = program.outline.lookedUp?.map fun target =>
      { target with title := carried (program.woven.payloads.getLastD []) } := by
  cases program with
  | insertPost | addRole => rfl
  | _ =>
      rw [payloads_eq]
      simp [Program.lookedUp?, Program.outline]

/-- Programs with the same text make the same page or post. -/
theorem made?_congr (same : program.source = other.source) : program.made? = other.made? := by
  rw [made?_eq, made?_eq other, outline_eq_of_source_eq same, payloads_eq_of_source_eq same]

/-- Programs with the same text look up the same page or post. -/
theorem lookedUp?_congr (same : program.source = other.source) :
    program.lookedUp? = other.lookedUp? := by
  rw [lookedUp?_eq, lookedUp?_eq other, outline_eq_of_source_eq same,
    payloads_eq_of_source_eq same]

end SiteScript.Php

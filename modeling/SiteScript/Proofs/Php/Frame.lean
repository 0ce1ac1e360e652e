import SiteScript.Proofs.Php.Woven

/-!
# The fixed text of programs

A payload stands between double quotes that belong to the fixed text, and holds none
itself.  So what a program contains is told by its fixed text and its payloads apart
from each other, and taking the payloads out leaves one of finitely many texts.  What
this needs of the fixed text is decided for the programs without any texts.
-/

namespace SiteScript.Php

open Text (occursIn occursIn_append_cons)

/-! ## Well-formed fixed text -/

/-- Whether chunks put double quotes around the payloads between them. -/
def quotesPayloads : List (List Char) → Bool
  | chunk :: next :: rest =>
    chunk.getLast? == some '"' && next.head? == some '"' && quotesPayloads (next :: rest)
  | _ => true

/-- The texts behind which a payload begins. -/
def openings : List String :=
  ["base64_decode(\"", "add_role(\""]

/-- Whether a text, given last character first, ends with an opening. -/
def opensPayload (read : List Char) : Bool :=
  openings.any fun opening => opening.toList.reverse.isPrefixOf read

/-- A text without what stands between an opening and the next double quote.  What has been
kept in front of it is given last character first. -/
def stripFrom (kept : List Char) : List Char → List Char
  | [] => []
  | c :: rest =>
    if opensPayload kept && c != '"' then stripFrom kept rest
    else c :: stripFrom (c :: kept) rest

/-- Whether every payload between chunks is behind an opening, and nothing else is. -/
def opensPayloads (kept : List Char) : List (List Char) → Bool
  | [] => true
  | chunk :: rest =>
    stripFrom kept chunk == chunk &&
      (rest.isEmpty || opensPayload (chunk.reverse ++ kept)) &&
      opensPayloads (chunk.reverse ++ kept) rest

/-- The printable characters of ASCII that mean nothing to a command line between single
quotes. -/
def isPlainChar (c : Char) : Bool :=
  0x20 ≤ c.toNat && c.toNat ≤ 0x7E && c != '\'' && c != '\\'

/-- Whether chunks are those of a program: they quote and open the payloads between them, are
printable, and stay clean behind and in front of words. -/
def isFrame (chunks : List (List Char)) : Bool :=
  quotesPayloads chunks && opensPayloads [] chunks &&
    chunks.all (fun chunk => chunk.all isPlainChar && Text.spacing true chunk == some true)

section

variable {chunks : List (List Char)}

theorem quotesPayloads_of_isFrame (framed : isFrame chunks) : quotesPayloads chunks := by
  simp only [isFrame, Bool.and_eq_true] at framed
  exact framed.1.1

theorem opensPayloads_of_isFrame (framed : isFrame chunks) : opensPayloads [] chunks := by
  simp only [isFrame, Bool.and_eq_true] at framed
  exact framed.1.2

theorem isPlainChar_of_isFrame (framed : isFrame chunks) {chunk : List Char}
    (isChunk : chunk ∈ chunks) {c : Char} (member : c ∈ chunk) : isPlainChar c := by
  simp only [isFrame, Bool.and_eq_true, List.all_eq_true] at framed
  exact (framed.2 chunk isChunk).1 c member

theorem spacing_of_isFrame (framed : isFrame chunks) {chunk : List Char}
    (isChunk : chunk ∈ chunks) : Text.spacing true chunk = some true := by
  simp only [isFrame, Bool.and_eq_true, List.all_eq_true, beq_iff_eq] at framed
  exact (framed.2 chunk isChunk).2

end

/-- The fixed text of every program is well-formed. -/
theorem isFrame_chunks (program : Program) : isFrame program.woven.chunks := by
  refine chunks_of_outlines ?_ program
  -- The literals are turned into lists here, since evaluating them would go through UTF-8.
  simp only [outlines, outlinesOf, Program.woven, Program.parts, lookup, PostType.name, weave,
    Part.weave, Woven.chunks, Woven.addFixed, Woven.addPayload, Woven.empty, List.cons_append,
    List.nil_append, List.foldr_cons, List.foldr_nil, List.map_cons, List.map_nil,
    List.forall_mem_cons, List.not_mem_nil, false_implies, implies_true, String.toList_append]
  repeat rw [String.toList_ofList]
  decide +kernel

/-! ## Occurrences -/

/-- A text without double quotes occurs in a woven text if it occurs in a chunk or in a
payload. -/
theorem occursIn_chars {part : List Char} (notEmpty : part ≠ []) (noQuote : '"' ∉ part)
    {woven : Woven} (quotes : quotesPayloads woven.chunks) :
    occursIn part woven.chars =
      (occursIn part woven.first ||
        woven.later.any fun piece => occursIn part piece.1 || occursIn part piece.2) := by
  obtain ⟨first, later⟩ := woven
  have inNothing : occursIn part [] = false := by simpa [occursIn] using notEmpty
  induction later generalizing first with
  | nil => simp [Woven.chars]
  | cons piece rest inductionHypothesis =>
      obtain ⟨payload, chunk⟩ := piece
      simp only [Woven.chunks, List.map_cons, quotesPayloads, Bool.and_eq_true,
        beq_iff_eq] at quotes
      obtain ⟨⟨ends, begins⟩, quotesRest⟩ := quotes
      obtain ⟨before, rfl⟩ := List.getLast?_eq_some_iff.mp ends
      obtain ⟨behind, rfl⟩ := List.head?_eq_some_iff.mp begins
      have ofRest := inductionHypothesis ('"' :: behind) quotesRest
      have dropQuote : ∀ text, occursIn part ('"' :: text) = occursIn part text := by
        intro text
        rw [← List.nil_append ('"' :: text), occursIn_append_cons noQuote, inNothing,
          Bool.false_or]
      simp only [Woven.chars, List.cons_append, dropQuote] at ofRest
      simp only [Woven.chars, List.flatMap_cons, List.append_assoc, List.cons_append,
        List.nil_append, List.any_cons]
      rw [occursIn_append_cons noQuote, occursIn_append_cons noQuote, ofRest,
        occursIn_append_cons noQuote, inNothing, dropQuote, Bool.or_false, Bool.or_assoc]

/-- A text that cannot occur in Base64 occurs in a program without a role only as fixed text. -/
theorem occursIn_woven {program : Program} (noRole : program.addsRole = false)
    {part : List Char} (noQuote : '"' ∉ part) {c : Char} (inPart : c ∈ part)
    (notPacked : isPackedChar c = false) :
    occursIn part program.woven.chars = program.woven.chunks.any (occursIn part) := by
  have notEmpty : part ≠ [] := List.ne_nil_of_mem inPart
  have notInPayload : ∀ piece ∈ program.woven.later, occursIn part piece.1 = false := by
    intro piece member
    rw [Bool.eq_false_iff]
    intro occurs
    obtain ⟨before, after, equal⟩ := Text.occursIn_iff.mp occurs
    have inPayload : c ∈ piece.1 := by
      rw [equal]
      exact List.mem_append_left after (List.mem_append_right before inPart)
    have packed := isPackedChar_of_mem noRole (List.mem_map_of_mem member) inPayload
    rw [notPacked] at packed
    contradiction
  rw [occursIn_chars notEmpty noQuote (quotesPayloads_of_isFrame (isFrame_chunks program)),
    Woven.chunks, List.any_cons, List.any_map]
  congr 1
  rw [Bool.eq_iff_iff, List.any_eq_true, List.any_eq_true]
  constructor
  · rintro ⟨piece, member, occurs⟩
    rw [notInPayload piece member, Bool.false_or] at occurs
    exact ⟨piece, member, occurs⟩
  · rintro ⟨piece, member, occurs⟩
    exact ⟨piece, member, by rw [notInPayload piece member, Bool.false_or]; exact occurs⟩

/-- A text that cannot occur in Base64 occurs in a program without a role exactly if it does in
the program's outline. -/
theorem contains_source {program : Program} (noRole : program.addsRole = false)
    {part : String} (noQuote : '"' ∉ part.toList) {c : Char} (inPart : c ∈ part.toList)
    (notPacked : isPackedChar c = false) :
    Text.contains program.source part =
      program.outline.woven.chunks.any (occursIn part.toList) := by
  rw [Text.contains, toList_source, occursIn_woven noRole noQuote inPart notPacked,
    chunks_outline]

/-! ## Taking the payloads out -/

/-- A program text without its payloads. -/
def strip (code : String) : String :=
  .ofList (stripFrom [] code.toList)

/-- The program texts that are left without payloads. -/
def frames : List String :=
  outlines.map fun outline => strip outline.source

theorem length_stripFrom_le (kept text : List Char) :
    (stripFrom kept text).length ≤ text.length := by
  induction text generalizing kept with
  | nil => simp [stripFrom]
  | cons c rest inductionHypothesis =>
      rw [stripFrom]
      split
      · exact Nat.le_succ_of_le (inductionHypothesis kept)
      · exact Nat.succ_le_succ (inductionHypothesis (c :: kept))

/-- Fixed text stays if nothing of it would be taken out of it alone. -/
theorem stripFrom_append {kept text : List Char} (stays : stripFrom kept text = text)
    (rest : List Char) :
    stripFrom kept (text ++ rest) = text ++ stripFrom (text.reverse ++ kept) rest := by
  induction text generalizing kept with
  | nil => rfl
  | cons c text inductionHypothesis =>
      rw [stripFrom] at stays
      rw [List.cons_append, stripFrom]
      split at stays
      · have shorter := length_stripFrom_le kept text
        rw [stays, List.length_cons] at shorter
        omega
      · rename_i kept_c
        rw [if_neg kept_c, inductionHypothesis (List.cons.inj stays).2]
        simp

/-- A payload behind an opening is taken out. -/
theorem stripFrom_payload {kept payload : List Char} (opened : opensPayload kept)
    (noQuote : ∀ c ∈ payload, c ≠ '"') (rest : List Char) :
    stripFrom kept (payload ++ rest) = stripFrom kept rest := by
  induction payload with
  | nil => rfl
  | cons c payload inductionHypothesis =>
      obtain ⟨notQuote, noQuoteRest⟩ := List.forall_mem_cons.mp noQuote
      rw [List.cons_append, stripFrom, if_pos (by simp [opened, notQuote]),
        inductionHypothesis noQuoteRest]

/-- Without its payloads a woven text is its fixed text. -/
theorem stripFrom_chars {woven : Woven} {kept : List Char}
    (opens : opensPayloads kept woven.chunks)
    (noQuotes : ∀ payload ∈ woven.payloads, ∀ c ∈ payload, c ≠ '"') :
    stripFrom kept woven.chars = woven.frame := by
  obtain ⟨first, later⟩ := woven
  induction later generalizing first kept with
  | nil =>
      simp only [Woven.chunks, List.map_nil, opensPayloads, Bool.and_eq_true,
        beq_iff_eq] at opens
      simpa [Woven.chars, Woven.frame, Woven.chunks] using opens.1.1
  | cons piece rest inductionHypothesis =>
      obtain ⟨payload, chunk⟩ := piece
      rw [Woven.chunks, opensPayloads] at opens
      simp only [List.map_cons, List.isEmpty_cons, Bool.false_or, Bool.and_eq_true,
        beq_iff_eq] at opens
      obtain ⟨⟨stays, opened⟩, opensRest⟩ := opens
      obtain ⟨noQuote, noQuotesRest⟩ := List.forall_mem_cons.mp noQuotes
      have ofRest := inductionHypothesis chunk opensRest noQuotesRest
      simp only [Woven.chars] at ofRest
      simp only [Woven.chars, List.flatMap_cons, List.append_assoc]
      rw [stripFrom_append stays, stripFrom_payload opened noQuote, ofRest]
      simp [Woven.frame, Woven.chunks]

theorem strip_source (program : Program) : strip program.source = .ofList program.woven.frame := by
  have noQuotes : ∀ payload ∈ program.woven.payloads, ∀ c ∈ payload, c ≠ '"' := by
    intro payload isPayload c member quote
    have isPayloadChar := isPayloadChar_of_mem isPayload member
    rw [quote] at isPayloadChar
    exact absurd isPayloadChar (by decide)
  rw [strip, toList_source,
    stripFrom_chars (opensPayloads_of_isFrame (isFrame_chunks program)) noQuotes]

/-- Without its payloads a program is one of finitely many texts. -/
theorem strip_source_mem_frames (program : Program) : strip program.source ∈ frames := by
  have sameFrame : program.outline.woven.frame = program.woven.frame :=
    congrArg List.flatten (chunks_outline program)
  rw [strip_source, ← sameFrame, ← strip_source]
  exact List.mem_map_of_mem (outline_mem_outlines program)

/-! ## Characters and spaces -/

/-- A program is printable and needs no escapes between single quotes. -/
theorem isPlainChar_of_mem_source {program : Program} {c : Char}
    (member : c ∈ program.source.toList) : isPlainChar c := by
  rw [toList_source, Woven.mem_chars] at member
  rcases member with ⟨chunk, isChunk, inChunk⟩ | ⟨payload, isPayload, inPayload⟩
  · exact isPlainChar_of_isFrame (isFrame_chunks program) isChunk inChunk
  · exact of_isPayloadChar isPlainChar (by decide) (isPayloadChar_of_mem isPayload inPayload)

/-- A woven text of clean chunks and of payloads without blanks is clean. -/
theorem spacing_chars {woven : Woven}
    (chunksSpaced : ∀ chunk ∈ woven.chunks, Text.spacing true chunk = some true)
    (areWordChars : ∀ payload ∈ woven.payloads, ∀ c ∈ payload, Text.isWordChar c) :
    Text.spacing true woven.chars = some true := by
  have payloadSpaced : ∀ payload ∈ woven.payloads, Text.spacing true payload = some true := by
    intro payload member
    by_cases empty : payload = []
    · rw [empty]
      rfl
    · exact Text.spacing_of_isRun true ⟨empty, areWordChars payload member⟩
  obtain ⟨first, later⟩ := woven
  obtain ⟨firstSpaced, laterSpaced⟩ := List.forall_mem_cons.mp chunksSpaced
  rw [Woven.chars, Text.spacing_append, firstSpaced, Option.bind_some]
  clear chunksSpaced areWordChars firstSpaced
  induction later with
  | nil => rfl
  | cons piece rest inductionHypothesis =>
      obtain ⟨chunkSpaced, restSpaced⟩ := List.forall_mem_cons.mp laterSpaced
      obtain ⟨pieceSpaced, restPayloadSpaced⟩ := List.forall_mem_cons.mp payloadSpaced
      rw [List.flatMap_cons, Text.spacing_append, Text.spacing_append, pieceSpaced,
        Option.bind_some, chunkSpaced, Option.bind_some]
      exact inductionHypothesis restPayloadSpaced restSpaced

/-- A program is clean behind and in front of words. -/
theorem spacing_source (program : Program) :
    Text.spacing true program.source.toList = some true := by
  rw [toList_source]
  refine spacing_chars (fun chunk => spacing_of_isFrame (isFrame_chunks program)) ?_
  intro payload isPayload c member
  exact of_isPayloadChar Text.isWordChar (by decide) (isPayloadChar_of_mem isPayload member)

end SiteScript.Php

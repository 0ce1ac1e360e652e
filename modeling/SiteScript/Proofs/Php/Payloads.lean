import SiteScript.Proofs.Php.Slugs

/-!
# Payloads of programs

A program is its fixed text with payloads filled in, each behind an opening and in front of a
double quote.  A payload is a text in Base64 or the identifier of a role, and the payloads of a
program are its texts, in a fixed order.
-/

namespace SiteScript.Php

open Text

/-! ## Filled texts -/

/-- What is filled into the fixed text of a program. -/
inductive Payload where
  | text (text : String)
  /-- The identifier of a role. -/
  | identifier (identifier : String)

namespace Payload

/-- The fixed text behind which a payload stands. -/
def opening : Payload → String
  | .text _ => "base64_decode(\""
  | .identifier _ => "add_role(\""

/-- How a payload is written: a text in the padded Base64 of its UTF-8 octets, and an identifier as
it is. -/
inductive IsWritten : Payload → List Char → Prop
  | text {text : String}
      (arePacked : ∀ c ∈ Base64.encode (Utf8.encode text.toList), isPackedChar c) :
    IsWritten (.text text) (Base64.encode (Utf8.encode text.toList))
  | identifier {identifier : String} (notEmpty : identifier ≠ "")
      (areIdentifierChars : ∀ c ∈ identifier.toList, isIdentifierChar c) :
    IsWritten (.identifier identifier) identifier.toList

end Payload

/-- Whether a text is the given fixed text with payloads filled in, each behind its opening and in
front of a double quote. -/
inductive Fills : List Char → List Payload → List Char → Prop
  | fixed (text : List Char) : Fills text [] text
  | payload {before rest chars filled : List Char} {payload : Payload} {later : List Payload}
      (opens : payload.opening.toList <:+ before) (isWritten : payload.IsWritten chars)
      (fills : Fills ('"' :: rest) later ('"' :: filled)) :
    Fills (before ++ '"' :: rest) (payload :: later) (before ++ chars ++ '"' :: filled)

/-- More fixed text may stand in front. -/
theorem Fills.append {fixed filled : List Char} {payloads : List Payload}
    (fills : Fills fixed payloads filled) (text : List Char) :
    Fills (text ++ fixed) payloads (text ++ filled) := by
  cases fills with
  | fixed => exact .fixed (text ++ fixed)
  | payload opens isWritten fills =>
      rw [← List.append_assoc, ← List.append_assoc, ← List.append_assoc]
      exact .payload (opens.trans (List.suffix_append text _)) isWritten fills

/-! ## Programs -/

theorem isWritten_text (text : String) : (Payload.text text).IsWritten (Link.pack text).toList := by
  have arePacked := @Link.forall_mem_pack isPackedChar (by decide) (by decide) text
  rw [Link.pack, String.toList_ofList] at arePacked ⊢
  exact .text arePacked

/-- The payloads of a program in order. -/
def Program.payloads : Program → List Payload
  | .insertPost _ status title body => [.text status, .text title, .text body]
  | .attachImage target => [.text target.title]
  | .addRole name capabilities =>
    [.identifier (slug name), .text name, .text (",".intercalate capabilities)]
  | .setHomepage target => [.text target.title]
  | .setPostsPage target => [.text target.title]
  | .addMenuItem menu target => [.text menu, .text target.title]

/-- The payload of a part that yields a text. -/
def Part.payload? : Part → Option Payload
  | .literal value => some (.text value)
  | _ => none

/-- Texts are filled into the fixed text of parts without identifiers. -/
theorem fills_weave {parts : List Part} (noSlug : ∀ value, .slug value ∉ parts)
    (packed : ∀ value, .literal value ∈ parts → Link.packable value = value) :
    Fills (weave parts).frame (parts.filterMap Part.payload?) (weave parts).chars := by
  induction parts with
  | nil => exact .fixed []
  | cons part rest inductionHypothesis =>
      have ofRest := inductionHypothesis
        (fun value inRest => noSlug value (List.mem_cons_of_mem part inRest))
        (fun value inRest => packed value (List.mem_cons_of_mem part inRest))
      rw [weave, List.foldr_cons, ← weave]
      cases part with
      | fixed source =>
          simp only [Part.weave, Woven.frame_addFixed, Woven.chars_addFixed]
          exact ofRest.append source.toList
      | literal value =>
          have closing : "\")".toList = ['"', ')'] := by decide
          have behind : Fills ('"' :: ([')'] ++ (weave rest).frame)) _
              ('"' :: ([')'] ++ (weave rest).chars)) := ofRest.append ['"', ')']
          simp only [Part.weave, Woven.frame_addFixed, Woven.chars_addFixed,
            Woven.frame_addPayload, Woven.chars_addPayload, packed value List.mem_cons_self, closing]
          rw [← List.append_assoc "base64_decode(\"".toList (Link.pack value).toList]
          exact .payload List.suffix_rfl (isWritten_text value) behind
      | slug value => exact absurd List.mem_cons_self (noSlug value)

theorem isWritten_slug (name : String) :
    (Payload.identifier (slug name)).IsWritten (slug name).toList :=
  .identifier (slug_ne_empty name) fun _ => isIdentifierChar_of_mem_slug

/-- An identifier is filled in behind its opening and in front of fixed text that begins with a
double quote. -/
theorem fills_weave_slug {identifier source : String} {rest : List Part} {later : List Payload}
    (begins : source.toList.head? = some '"')
    (isWritten : (Payload.identifier identifier).IsWritten identifier.toList)
    (fills : Fills (weave rest).frame later (weave rest).chars) :
    Fills (weave (.fixed "add_role(\"" :: .slug identifier :: .fixed source :: rest)).frame
      (.identifier identifier :: later)
      (weave (.fixed "add_role(\"" :: .slug identifier :: .fixed source :: rest)).chars := by
  obtain ⟨behind, closing⟩ := List.head?_eq_some_iff.mp begins
  have ofSource := fills.append source.toList
  rw [closing] at ofSource
  rw [weave, List.foldr_cons, List.foldr_cons, List.foldr_cons, ← weave]
  simp only [Part.weave, Woven.frame_addFixed, Woven.chars_addFixed, Woven.frame_addPayload,
    Woven.chars_addPayload, closing]
  rw [← List.append_assoc "add_role(\"".toList identifier.toList]
  exact .payload List.suffix_rfl isWritten ofSource

/-- The payloads of a program are filled into its fixed text. -/
theorem fills_source {program : Program}
    (packed : ∀ text, .text text ∈ program.payloads → Link.packable text = text) :
    Fills (strip program.source).toList program.payloads program.source.toList := by
  rw [strip_source, String.toList_ofList, toList_source]
  have ofTexts : (∀ value, .slug value ∉ program.parts) →
      program.parts.filterMap Part.payload? = program.payloads →
        Fills program.woven.frame program.payloads program.woven.chars := by
    intro noSlug samePayloads
    rw [← samePayloads]
    refine fills_weave noSlug fun value isLiteral => packed value ?_
    rw [← samePayloads]
    exact List.mem_filterMap.mpr ⟨.literal value, isLiteral, rfl⟩
  cases program with
  | addRole name capabilities =>
      refine fills_weave_slug (by decide) (isWritten_slug name) (fills_weave (by simp) ?_)
      intro value isLiteral
      exact packed value (by simpa [Program.payloads] using isLiteral)
  | _ =>
      refine ofTexts (fun value => ?_) rfl
      simp only [Program.parts, lookup, List.cons_append, List.nil_append, List.mem_cons,
        List.not_mem_nil, reduceCtorEq, or_self, not_false_eq_true]

end SiteScript.Php

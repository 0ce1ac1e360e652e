import SiteScript.Php.Program
import SiteScript.Php.Reading
import SiteScript.Proofs.Link.Packing
import SiteScript.Text.Search

/-!
# Programs as woven texts

A program is fixed text in which payloads stand: texts in Base64, and the identifier
of a role.  Only the payloads depend on the texts of the author, so what has to be
known about the fixed text is checked once, on the few programs whose texts are empty.
-/

namespace SiteScript.Php

/-! ## Woven texts -/

/-- A text made of fixed chunks with payloads between them. -/
structure Woven where
  /-- The chunk in front of the first payload. -/
  first : List Char
  /-- The payloads, each with the chunk behind it. -/
  later : List (List Char × List Char)

namespace Woven

/-- The whole text. -/
def chars (woven : Woven) : List Char :=
  woven.first ++ woven.later.flatMap fun piece => piece.1 ++ piece.2

/-- The chunks in order. -/
def chunks (woven : Woven) : List (List Char) :=
  woven.first :: woven.later.map Prod.snd

/-- The payloads in order. -/
def payloads (woven : Woven) : List (List Char) :=
  woven.later.map Prod.fst

/-- The text without its payloads. -/
def frame (woven : Woven) : List Char :=
  woven.chunks.flatten

/-- A text without chunks and payloads. -/
def empty : Woven :=
  ⟨[], []⟩

/-- A text with more fixed text in front. -/
def addFixed (text : List Char) (woven : Woven) : Woven :=
  ⟨text ++ woven.first, woven.later⟩

/-- A text with a payload in front. -/
def addPayload (payload : List Char) (woven : Woven) : Woven :=
  ⟨[], (payload, woven.first) :: woven.later⟩

@[simp]
theorem chars_addFixed (text : List Char) (woven : Woven) :
    (woven.addFixed text).chars = text ++ woven.chars := by
  simp [chars, addFixed]

@[simp]
theorem chars_addPayload (payload : List Char) (woven : Woven) :
    (woven.addPayload payload).chars = payload ++ woven.chars := by
  simp [chars, addPayload]

@[simp]
theorem payloads_addFixed (text : List Char) (woven : Woven) :
    (woven.addFixed text).payloads = woven.payloads :=
  rfl

@[simp]
theorem payloads_addPayload (payload : List Char) (woven : Woven) :
    (woven.addPayload payload).payloads = payload :: woven.payloads :=
  rfl

@[simp]
theorem frame_addFixed (text : List Char) (woven : Woven) :
    (woven.addFixed text).frame = text ++ woven.frame := by
  simp [frame, chunks, addFixed]

@[simp]
theorem frame_addPayload (payload : List Char) (woven : Woven) :
    (woven.addPayload payload).frame = woven.frame := by
  simp [frame, chunks, addPayload]

/-- Every character of a woven text is in a chunk or in a payload. -/
theorem mem_chars {woven : Woven} {c : Char} :
    c ∈ woven.chars ↔
      (∃ chunk ∈ woven.chunks, c ∈ chunk) ∨ ∃ payload ∈ woven.payloads, c ∈ payload := by
  simp only [chars, chunks, payloads, List.mem_append, List.mem_flatMap, List.mem_cons,
    List.mem_map, Prod.exists, exists_eq_or_imp]
  constructor
  · rintro (inFirst | ⟨payload, chunk, member, (inPayload | inChunk)⟩)
    · exact Or.inl (Or.inl inFirst)
    · exact Or.inr ⟨payload, ⟨payload, chunk, member, rfl⟩, inPayload⟩
    · exact Or.inl (Or.inr ⟨chunk, ⟨payload, chunk, member, rfl⟩, inChunk⟩)
  · rintro ((inFirst | ⟨_, ⟨payload, chunk, member, rfl⟩, inChunk⟩) |
      ⟨_, ⟨payload, chunk, member, rfl⟩, inPayload⟩)
    · exact Or.inl inFirst
    · exact Or.inr ⟨payload, chunk, member, Or.inr inChunk⟩
    · exact Or.inr ⟨payload, chunk, member, Or.inl inPayload⟩

end Woven

/-! ## Programs -/

/-- A text with a part of a program in front. -/
def Part.weave : Part → Woven → Woven
  | .fixed source, woven => woven.addFixed source.toList
  | .literal value, woven =>
    ((woven.addFixed "\")".toList).addPayload
      (Link.pack (Link.packable value)).toList).addFixed "base64_decode(\"".toList
  | .slug value, woven => woven.addPayload value.toList

/-- The parts of a program as a woven text. -/
def weave (parts : List Part) : Woven :=
  parts.foldr Part.weave .empty

/-- A program as a woven text. -/
def Program.woven (program : Program) : Woven :=
  weave program.parts

/-- An expression that yields a text has the packed text in it. -/
theorem textExpression_eq (value : String) :
    textExpression value = "base64_decode(\"" ++ Link.pack (Link.packable value) ++ "\")" := by
  rw [textExpression, Link.encode_eq]

theorem chars_weave (parts : List Part) :
    (weave parts).chars = parts.flatMap fun part => part.source.toList := by
  induction parts with
  | nil => rfl
  | cons part rest inductionHypothesis =>
      rw [weave, List.foldr_cons, ← weave, List.flatMap_cons, ← inductionHypothesis]
      cases part with
      | fixed source => simp [Part.weave, Part.source]
      | literal value => simp [Part.weave, Part.source, textExpression_eq]
      | slug value => simp [Part.weave, Part.source]

/-- The text of a program. -/
@[simp]
theorem toList_source (program : Program) : program.source.toList = program.woven.chars := by
  rw [Program.source, String.toList_ofList, Program.woven, chars_weave]

/-! ## Payloads -/

/-- What is asked of the characters of payloads that are not in Base64. -/
def Part.SlugHolds (holds : Char → Bool) : Part → Prop
  | .slug value => ∀ c ∈ value.toList, holds c
  | _ => True

/-- What holds of the characters of Base64 and of identifiers holds of all payloads. -/
theorem forall_mem_payloads (holds : Char → Bool) (ofPad : holds '=')
    (ofSymbol : ∀ value : Fin 0x40, holds (Text.Base64.symbol value)) {parts : List Part}
    (ofSlug : ∀ part ∈ parts, part.SlugHolds holds) :
    ∀ payload ∈ (weave parts).payloads, ∀ c ∈ payload, holds c := by
  induction parts with
  | nil => simp [weave, Woven.payloads, Woven.empty]
  | cons part rest inductionHypothesis =>
      obtain ⟨ofPart, ofSlugs⟩ := List.forall_mem_cons.mp ofSlug
      have ofRest := inductionHypothesis ofSlugs
      rw [weave, List.foldr_cons, ← weave]
      cases part with
      | fixed source => simpa [Part.weave] using ofRest
      | literal value =>
          intro payload member
          simp only [Part.weave, Woven.payloads_addFixed, Woven.payloads_addPayload] at member
          rcases List.mem_cons.mp member with equal | member
          · rw [equal]
            exact Link.forall_mem_pack holds ofPad ofSymbol
          · exact ofRest payload member
      | slug value =>
          intro payload member
          simp only [Part.weave, Woven.payloads_addPayload] at member
          rcases List.mem_cons.mp member with equal | member
          · rw [equal]
            exact ofPart
          · exact ofRest payload member

/-- The characters of payloads: those of Base64 and of identifiers. -/
def isPayloadChar (c : Char) : Bool :=
  isPackedChar c || c == '_'

/-- What holds of the characters of payloads is decided on ASCII. -/
theorem of_isPayloadChar (holds : Char → Bool)
    (ofAscii : ∀ code : Fin 0x80, isPayloadChar (Char.ofNat code) → holds (Char.ofNat code))
    {c : Char} (isPayload : isPayloadChar c) : holds c := by
  have small : c.toNat < 0x80 := by
    have parts := isPayload
    simp only [isPayloadChar, isPackedChar, Bool.or_eq_true, Bool.and_eq_true,
      decide_eq_true_eq, beq_iff_eq] at parts
    rcases parts with (((((⟨-, below⟩ | ⟨-, below⟩) | ⟨-, below⟩) | equal) | equal) | equal) |
      equal
    · exact Nat.lt_of_le_of_lt below (by decide)
    · exact Nat.lt_of_le_of_lt below (by decide)
    · exact Nat.lt_of_le_of_lt below (by decide)
    all_goals
      rw [equal]
      decide
  have ofCode := ofAscii ⟨c.toNat, small⟩
  rw [Char.ofNat_toNat] at ofCode
  exact ofCode isPayload

/-- The characters of identifiers. -/
def isIdentifierChar (c : Char) : Bool :=
  ('a' ≤ c && c ≤ 'z') || ('0' ≤ c && c ≤ '9') || c == '_'

theorem isPayloadChar_of_isIdentifierChar {c : Char} (isIdentifier : isIdentifierChar c) :
    isPayloadChar c := by
  simp only [isIdentifierChar, isPayloadChar, isPackedChar, Bool.or_eq_true] at isIdentifier ⊢
  rcases isIdentifier with (letter | digit) | underscore
  · simp [letter]
  · simp [digit]
  · simp [underscore]

theorem isPayloadChar_of_isSlugChar {c : Char} (isSlug : isSlugChar c) : isPayloadChar c := by
  simp only [isSlugChar, isPayloadChar, isPackedChar, Bool.or_eq_true] at isSlug ⊢
  rcases isSlug with (lower | upper) | digit
  · simp [lower]
  · simp [upper]
  · simp [digit]

/-- The lower case of a letter or digit of ASCII. -/
theorem isIdentifierChar_toLower {c : Char} (isSlug : isSlugChar c) :
    isIdentifierChar c.toLower := by
  have lowered := of_isPayloadChar (fun d => !isSlugChar d || isIdentifierChar d.toLower)
    (by decide) (isPayloadChar_of_isSlugChar isSlug)
  simpa [isSlug] using lowered

/-- An identifier made from a name. -/
theorem isIdentifierChar_of_mem_slug {name : String} {c : Char}
    (member : c ∈ (slug name).toList) : isIdentifierChar c := by
  unfold slug at member
  split at member
  · have all : "custom_role".toList.all isIdentifierChar := by
      decide
    exact List.all_eq_true.mp all c member
  · rename_i runs notEmpty
    rw [String.toList_ofList] at member
    obtain ⟨run, rest, equal⟩ := List.exists_cons_of_ne_nil notEmpty
    rw [equal, List.map_cons, Text.intercalate_eq_append_flatMap] at member
    have ofRun : ∀ run ∈ Text.runs isSlugChar name.toList, c ∈ run.map Char.toLower →
        isIdentifierChar c := by
      intro run isRun inRun
      obtain ⟨d, inRun, lower⟩ := List.mem_map.mp inRun
      rw [← lower]
      exact isIdentifierChar_toLower ((Text.isRun_of_mem_runs isRun).2 d inRun)
    rw [equal] at ofRun
    rcases List.mem_append.mp member with inFirst | inLater
    · exact ofRun run List.mem_cons_self inFirst
    · obtain ⟨later, isLater, inLater⟩ := List.mem_flatMap.mp inLater
      rcases List.mem_cons.mp inLater with underscore | inLater
      · rw [underscore]
        decide
      · obtain ⟨other, isOther, lower⟩ := List.mem_map.mp isLater
        rw [← lower] at inLater
        exact ofRun other (List.mem_cons_of_mem run isOther) inLater

/-- Whether a program adds a role; the others have no payloads but texts in Base64. -/
def Program.addsRole : Program → Bool
  | .addRole .. => true
  | _ => false

/-- What is asked of the payloads of a program holds if it holds of the identifier of a role. -/
theorem slugHolds_of_mem_parts (holds : Char → Bool) {program : Program}
    (ofRole : ∀ name, program.addsRole → ∀ c ∈ (slug name).toList, holds c) :
    ∀ part ∈ program.parts, part.SlugHolds holds := by
  cases program with
  | addRole name capabilities =>
      simp only [Program.parts, List.forall_mem_cons, Part.SlugHolds, true_and]
      exact ⟨ofRole name rfl, fun part member => absurd member List.not_mem_nil⟩
  | _ =>
      simp only [Program.parts, lookup, List.cons_append, List.nil_append,
        List.forall_mem_cons, Part.SlugHolds, true_and]
      exact fun part member => absurd member List.not_mem_nil

/-- The characters of the payloads of a program. -/
theorem isPayloadChar_of_mem {program : Program} {payload : List Char}
    (isPayload : payload ∈ program.woven.payloads) {c : Char} (member : c ∈ payload) :
    isPayloadChar c := by
  refine forall_mem_payloads isPayloadChar (by decide) (by decide) ?_ payload isPayload c member
  refine slugHolds_of_mem_parts isPayloadChar fun name _ d inSlug => ?_
  exact isPayloadChar_of_isIdentifierChar (isIdentifierChar_of_mem_slug inSlug)

theorem isPackedChar_of_mem {program : Program} (noRole : program.addsRole = false)
    {payload : List Char} (isPayload : payload ∈ program.woven.payloads) {c : Char}
    (member : c ∈ payload) : isPackedChar c := by
  refine forall_mem_payloads isPackedChar (by decide) (by decide) ?_ payload isPayload c member
  refine slugHolds_of_mem_parts isPackedChar fun name role => ?_
  rw [noRole] at role
  contradiction

/-! ## Fixed text -/

/-- The program of the same kind and the same type of content, without any texts. -/
def Program.outline : Program → Program
  | .insertPost type _ _ _ => .insertPost type "" "" ""
  | .attachImage target => .attachImage ⟨target.type, ""⟩
  | .addRole _ _ => .addRole "" []
  | .setHomepage target => .setHomepage ⟨target.type, ""⟩
  | .setPostsPage target => .setPostsPage ⟨target.type, ""⟩
  | .addMenuItem _ target => .addMenuItem "" ⟨target.type, ""⟩

/-- The programs without any texts that handle content of a type. -/
def outlinesOf (type : PostType) : List Program :=
  [.insertPost type "" "" "", .attachImage ⟨type, ""⟩, .setHomepage ⟨type, ""⟩,
    .setPostsPage ⟨type, ""⟩, .addMenuItem "" ⟨type, ""⟩]

/-- All programs without any texts. -/
def outlines : List Program :=
  .addRole "" [] :: outlinesOf .page ++ outlinesOf .post

theorem outline_mem_outlines (program : Program) : program.outline ∈ outlines := by
  have ofType : ∀ (type : PostType) {outline : Program}, outline ∈ outlinesOf type →
      outline ∈ outlines := by
    intro type outline member
    cases type <;> simp [outlines, member]
  cases program with
  | addRole name capabilities => exact List.mem_cons_self
  | insertPost type status title body =>
      exact ofType type (by simp [Program.outline, outlinesOf])
  | addMenuItem menu target =>
      exact ofType target.type (by simp [Program.outline, outlinesOf])
  | _ target => exact ofType target.type (by simp [Program.outline, outlinesOf])

/-- The fixed text of a program is that of its outline. -/
theorem chunks_outline (program : Program) :
    program.outline.woven.chunks = program.woven.chunks := by
  cases program <;>
    simp only [Program.outline, Program.woven, Program.parts, lookup, weave, Part.weave,
      Woven.chunks, Woven.addFixed, Woven.addPayload, Woven.empty, List.foldr_cons,
      List.foldr_nil, List.cons_append, List.nil_append, List.map_cons, List.map_nil]

/-- What holds of the fixed text of all outlines holds of the fixed text of every program. -/
theorem chunks_of_outlines {holds : List (List Char) → Bool}
    (ofOutlines : ∀ outline ∈ outlines, holds outline.woven.chunks) (program : Program) :
    holds program.woven.chunks := by
  rw [← chunks_outline]
  exact ofOutlines program.outline (outline_mem_outlines program)

end SiteScript.Php

import SiteScript.Proofs.Php.Fields
import SiteScript.Proofs.Recovery.Runs
import SiteScript.Proofs.Shell.Splitting

/-!
# Insertions written by hand

A program that makes a page or post gives its fields as an array, in any order.  Each value is a
text, packed or as a literal.  Whatever the texts are, every field is read as the text that
was written for it, because reading goes on behind a value and never inside it.
-/

namespace SiteScript

namespace Php

/-! ## Assignments -/

/-- The ways to write a text as a value. -/
inductive Wrapping where
  /-- As Base64 of its octets. -/
  | packed
  /-- As a quoted literal. -/
  | literal
  deriving Repr, DecidableEq

/-- A text as a value between the given quotes. -/
def Wrapping.value (mark : Mark) (text : String) : Wrapping → Value
  | .packed => .packed (Link.pack text).toList
  | .literal => .literal (escape mark text.toList)

theorem Wrapping.wellFormed_value (wrapping : Wrapping) (mark : Mark) (text : String) :
    (wrapping.value mark text).WellFormed mark := by
  cases wrapping with
  | packed => exact Link.forall_mem_pack isPackedChar (by decide) (by decide)
  | literal => exact isBody_escape mark text.toList

/-- A field to which a text is assigned, and the blanks in front of it and behind it. -/
structure Assignment where
  name : FieldName
  text : String
  wrapping : Wrapping
  style : Style
  front : List Char
  back : List Char
  deriving Repr, DecidableEq

namespace Assignment

/-- The field with its value. -/
def field (assignment : Assignment) : Field :=
  { name := assignment.name
    value := assignment.wrapping.value assignment.style.valueMark assignment.text }

/-- How an assignment is written. -/
def written (assignment : Assignment) : List Char :=
  assignment.front ++ assignment.field.writtenIn assignment.style ++ assignment.back

/-- Only blanks may stand around the arrow and around the assignment. -/
structure WellFormed (assignment : Assignment) : Prop where
  styled : assignment.style.WellFormed
  front : ∀ c ∈ assignment.front, Text.isBlank c = true
  back : ∀ c ∈ assignment.back, Text.isBlank c = true

end Assignment

/-! ## Fields of assignments -/

namespace ReadsFields

/-- Blanks are no quotes. -/
theorem of_blanks {gap : List Char} (areBlank : ∀ c ∈ gap, Text.isBlank c = true) :
    ReadsFields gap [] := by
  have notMark : ∀ (mark : Mark), ∀ c ∈ gap, c ≠ mark.char := by
    rintro mark c inGap rfl
    exact mark.not_isBlank_char (areBlank mark.char inGap)
  exact of_noQuotes fun c inGap => ⟨notMark .double c inGap, notMark .single c inGap⟩

theorem assignment {assignment : Assignment} (wellFormed : assignment.WellFormed) :
    ReadsFields assignment.written [assignment.field] :=
  ((of_blanks wellFormed.front).append (writtenIn wellFormed.styled
    (Wrapping.wellFormed_value _ _ _))).append (of_blanks wellFormed.back)

/-- Texts that are read as one field each, with commas between them. -/
theorem intercalate {α : Type} {list : List α} {text : α → List Char} {field : α → Field}
    (reads : ∀ a ∈ list, ReadsFields (text a) [field a]) :
    ReadsFields (List.intercalate [','] (list.map text)) (list.map field) := by
  cases list with
  | nil => exact fun _ => rfl
  | cons first later =>
      obtain ⟨readsFirst, readsLater⟩ := List.forall_mem_cons.mp reads
      have comma : ReadsFields [','] [] := of_noQuotes (List.all_iff_forall_prop.mp (by decide))
      rw [List.map_cons, Text.intercalate_eq_append_flatMap, List.flatMap_map, List.map_cons]
      exact readsFirst.append (flatMap fun a isLater => comma.append (readsLater a isLater))

end ReadsFields

/-! ## Insertions -/

/-- The fields of a page or post that a program makes, each of them at most once. -/
structure Insertion where
  assignments : List Assignment
  distinct : (assignments.map Assignment.name).Nodup
  wellFormed : ∀ assignment ∈ assignments, assignment.WellFormed

namespace Insertion

/-- The text of the program. -/
def source (insertion : Insertion) : String :=
  .ofList ("wp_insert_post(array(".toList ++
    List.intercalate [','] (insertion.assignments.map Assignment.written) ++ "));".toList)

/-- The text that is assigned to a field, which is empty if there is none. -/
def text (insertion : Insertion) (name : FieldName) : String :=
  ((insertion.assignments.find? fun assignment => assignment.name = name).map
    Assignment.text).getD ""

/-- The page or post that is made. -/
def content (insertion : Insertion) : Content :=
  { title := insertion.text .title
    body := insertion.text .body
    status := insertion.text .status
    image := none }

/-- The step that makes it. -/
def kind (insertion : Insertion) : StepKind :=
  if insertion.text .type = "page" then .addPage insertion.content else .addPost insertion.content

theorem toList_source (insertion : Insertion) :
    insertion.source.toList = "wp_insert_post(array(".toList ++
      List.intercalate [','] (insertion.assignments.map Assignment.written) ++ "));".toList :=
  String.toList_ofList

/-- The fields of the program are the assigned ones. -/
theorem fields_source (insertion : Insertion) :
    fields insertion.source = insertion.assignments.map Assignment.field := by
  have opening : ReadsFields "wp_insert_post(array(".toList [] :=
    .of_noQuotes (List.all_iff_forall_prop.mp (by decide))
  have closing : ReadsFields "));".toList [] :=
    .of_noQuotes (List.all_iff_forall_prop.mp (by decide))
  have readsEach := ReadsFields.intercalate fun assignment isThere =>
    ReadsFields.assignment (insertion.wellFormed assignment isThere)
  have readsAll := ((opening.append readsEach).append closing).fieldsFrom_eq
  rw [fields, toList_source, readsAll]
  exact List.append_nil _

/-- The program makes a page or post, which its text says. -/
theorem contains_source (insertion : Insertion) :
    Text.contains insertion.source "wp_insert_post" = true := by
  have opening : "wp_insert_post(array(".toList = "wp_insert_post".toList ++ "(array(".toList := by
    decide
  have split : ∃ behind, insertion.source.toList = [] ++ "wp_insert_post".toList ++ behind := by
    rw [toList_source, opening, List.append_assoc, List.append_assoc]
    exact ⟨_, rfl⟩
  obtain ⟨behind, split⟩ := split
  exact Text.occursIn_iff.mpr ⟨[], behind, split⟩

end Insertion

end Php

namespace Recovery

open Php

/-! ## Drafts by their texts -/

/-- The draft with the given text in every field. -/
def Draft.ofTexts (texts : FieldName → String) : Draft :=
  { type := postTypeNamed (texts .type)
    content := {
      title := texts .title
      body := texts .body
      status := texts .status
      image := none } }

theorem start_eq_ofTexts : Draft.start = .ofTexts fun _ => "" :=
  rfl

/-- The step that makes the page or post with the given texts; what is no page is a post. -/
def kindOf (texts : FieldName → String) : StepKind :=
  let content :=
    { title := texts .title, body := texts .body, status := texts .status, image := none }
  if texts .type = "page" then .addPage content else .addPost content

theorem Draft.kind_ofTexts (texts : FieldName → String) :
    (Draft.ofTexts texts).kind = kindOf texts := by
  by_cases isPage : texts .type = "page"
  · simp [Draft.kind, Draft.ofTexts, kindOf, postTypeNamed, PostType.name, isPage]
  · simp [Draft.kind, Draft.ofTexts, kindOf, postTypeNamed, PostType.name, isPage]

theorem set_ofTexts (texts : FieldName → String) (name : FieldName) (text : String) :
    (Draft.ofTexts texts).set name text = .ofTexts (Function.update texts name text) := by
  cases name <;> rfl

/-- A wrapped text is unwrapped. -/
theorem valueText_value (wrapping : Wrapping) (mark : Mark) (text : String) :
    valueText (wrapping.value mark text) = .ok text := by
  cases wrapping with
  | packed => rw [Wrapping.value, valueText, String.ofList_toList, Link.decode_pack]
  | literal => rw [Wrapping.value, valueText, unescape_escape, String.ofList_toList]

theorem addField_assignment (texts : FieldName → String) (assignment : Assignment) :
    (Draft.ofTexts texts).addField assignment.field =
      .ok (.ofTexts (Function.update texts assignment.name assignment.text)) := by
  rw [Draft.addField, Assignment.field, valueText_value, ← set_ofTexts]
  rfl

/-- The texts of the fields after some assignments. -/
def textsAfter (texts : FieldName → String) (assignments : List Assignment) :
    FieldName → String :=
  assignments.foldl (fun texts assignment =>
    Function.update texts assignment.name assignment.text) texts

theorem textsAfter_cons (texts : FieldName → String) (assignment : Assignment)
    (later : List Assignment) :
    textsAfter texts (assignment :: later) =
      textsAfter (Function.update texts assignment.name assignment.text) later :=
  rfl

/-- Assignments are made one after the other. -/
theorem foldlM_addField (assignments : List Assignment) (texts : FieldName → String) :
    (assignments.map Assignment.field).foldlM Draft.addField (.ofTexts texts) =
      .ok (.ofTexts (textsAfter texts assignments)) := by
  induction assignments generalizing texts with
  | nil => rfl
  | cons assignment later inductionHypothesis =>
      rw [List.map_cons, List.foldlM_cons, addField_assignment, textsAfter_cons]
      exact inductionHypothesis _

/-- Of assignments to different fields each one counts. -/
theorem textsAfter_apply {assignments : List Assignment}
    (distinct : (assignments.map Assignment.name).Nodup) (texts : FieldName → String)
    (name : FieldName) :
    textsAfter texts assignments name =
      ((assignments.find? fun assignment => assignment.name = name).map Assignment.text).getD
        (texts name) := by
  induction assignments generalizing texts with
  | nil => rfl
  | cons assignment later inductionHypothesis =>
      obtain ⟨notLater, laterDistinct⟩ := List.nodup_cons.mp distinct
      rw [textsAfter_cons, inductionHypothesis laterDistinct, List.find?_cons]
      by_cases same : assignment.name = name
      · have noneLater : later.find? (fun other => other.name = name) = none := by
          rw [List.find?_eq_none]
          intro other isLater
          rw [decide_eq_true_eq, ← same]
          exact fun equal => notLater (equal ▸ List.mem_map_of_mem isLater)
        rw [noneLater, decide_eq_true same, ← same]
        exact Function.update_self _ _ _
      · rw [decide_eq_false same, Function.update_of_ne (Ne.symm same)]

/-- A program is read as the draft with the texts that are assigned in it. -/
theorem ofCode_source (insertion : Insertion) :
    Draft.ofCode insertion.source = .ok (.ofTexts insertion.text) := by
  have texts := funext (textsAfter_apply insertion.distinct fun _ => "")
  rw [Draft.ofCode, insertion.fields_source, start_eq_ofTexts, foldlM_addField, texts]
  rfl

theorem kind_ofTexts (insertion : Insertion) :
    (Draft.ofTexts insertion.text).kind = insertion.kind :=
  Draft.kind_ofTexts insertion.text

end Recovery

/-! ## Running an insertion -/

/-- The entries that run a program: as they are, or as the quoted argument of a command. -/
inductive Entry.RunsCode (code : String) : Entry → Prop
  | runPhp : RunsCode code (.known (.runPhp code))
  | command {line : String}
      (isLine : Shell.IsLineOf [[.bare "wp"], [.bare "eval"], [.quoted code]] line) :
      RunsCode code (.known (.command line))

namespace Recovery

open Php

variable {insertion : Insertion} {entry : Entry}

theorem readContentCode_source (ids : Ids) (steps : List Step)
    (titled : Text.trim (insertion.text .title) ≠ "") :
    readContentCode ids steps insertion.source = .ok (push ids steps insertion.kind) := by
  have notBlank : (Text.trim (Draft.ofTexts insertion.text).content.title).isEmpty = false := by
    rw [Bool.eq_false_iff, ne_eq, String.isEmpty_iff]
    exact titled
  rw [readContentCode, ofCode_source, ← kind_ofTexts]
  simp only [bind, Except.bind, pushContent, notBlank, Bool.false_eq_true, if_false]

theorem readEntry_of_runsCode (ids : Ids) (steps : List Step)
    (titled : Text.trim (insertion.text .title) ≠ "") (runs : entry.RunsCode insertion.source) :
    readEntry ids steps entry = .ok (push ids steps insertion.kind) := by
  cases runs with
  | runPhp =>
      rw [readEntry, readInstruction, if_pos insertion.contains_source,
        readContentCode_source ids steps titled]
  | @command line isLine =>
      have words : Shell.split line = ["wp", "eval", insertion.source] := by
        rw [isLine.split_eq]
        simp [Shell.Word.argument, Shell.Segment.meaning]
      have asked : Request.ofWords? ["wp", "eval", insertion.source] =
          some (.run insertion.source) := rfl
      have effect : Effect.ofCode? insertion.source = some .insertPost := by
        rw [Effect.ofCode?, if_pos insertion.contains_source]
      rw [readEntry, readInstruction, readCommand, words, asked]
      simp only [readRequest, effect]
      exact readContentCode_source ids steps titled

/-- An insertion with a title is read as one step, which makes a page or post with exactly the
texts that were assigned to the fields. -/
theorem readsInsertion (titled : Text.trim (insertion.text .title) ≠ "")
    (runs : entry.RunsCode insertion.source) (ids : Ids) (before : List Entry) :
    ofEntries ids (before ++ [entry]) =
      (ofEntries ids before).accept (push ids (ofEntries ids before).steps insertion.kind) := by
  rw [ofEntries_append_singleton]
  exact read_of_ok (readEntry_of_runsCode ids _ titled runs) _

/-- The fields in another order, with a content that is shaped like further fields, a title with
both quotes and a backslash, and no status. -/
def misleadingInsertion : Insertion where
  assignments :=
    [{ name := .body
       text := "', 'post_title' => 'Other',\n\"post_status\" => \"draft\\"
       wrapping := .literal
       style :=
         { nameMark := .single, beforeArrow := [], behindArrow := ['\n'], valueMark := .single }
       front := []
       back := [' '] },
      { name := .type, text := "page", wrapping := .packed, style := .plain, front := ['\n', '\t']
        back := [] },
      { name := .title, text := "It's \"new\"\\", wrapping := .literal, style := .plain
        front := [' ']
        back := [] }]
  distinct := by decide
  wellFormed := by
    simp only [List.forall_mem_cons, List.not_mem_nil, false_implies, implies_true, and_true]
    have areBlank : ∀ {gap : List Char}, gap.all Text.isBlank = true →
        ∀ c ∈ gap, Text.isBlank c = true := List.all_eq_true.mp
    have noneBlank : ∀ c ∈ [], Text.isBlank c = true := List.forall_mem_nil _
    exact ⟨⟨⟨noneBlank, areBlank (by decide)⟩, noneBlank, areBlank (by decide)⟩,
      ⟨Style.wellFormed_plain, areBlank (by decide), noneBlank⟩,
      Style.wellFormed_plain, areBlank (by decide), noneBlank⟩

theorem readsInsertion_misleadingInsertion :
    ofEntries (fun _ => "made") [.known (.command (Shell.line
        [[.bare "wp"], [.bare "eval"], [.quoted misleadingInsertion.source]]))] =
      { steps := [{ id := "made"
                    kind := .addPage {
                      title := "It's \"new\"\\"
                      body := "', 'post_title' => 'Other',\n\"post_status\" => \"draft\\"
                      status := ""
                      image := none } }]
        dropped := [] } := by
  have titled : Text.trim (misleadingInsertion.text .title) ≠ "" := by decide +kernel
  have wellFormed : ∀ word ∈ ([[.bare "wp"], [.bare "eval"],
      [.quoted misleadingInsertion.source]] : List Shell.Word), Shell.Word.WellFormed word := by
    simp only [List.forall_mem_cons, List.not_mem_nil, false_implies, implies_true, and_true]
    exact ⟨⟨by decide, by decide⟩, ⟨by decide, by decide⟩, List.cons_ne_nil _ _,
      List.forall_mem_singleton.mpr trivial⟩
  exact readsInsertion titled (.command (Shell.isLineOf_line wellFormed)) (fun _ => "made") []

end Recovery

end SiteScript

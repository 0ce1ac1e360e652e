import SiteScript.Proofs.Php.Literals
import SiteScript.Proofs.Php.Woven

/-!
# Reading written fields

Fields of a program are written one after the other, with text in between that has no
quotes in it.  Each of them is read back as it was written, whichever quotes are used and
whatever blanks stand around its arrow.
-/

namespace SiteScript.Php

/-! ## Recognising -/

theorem after?_append (text rest : List Char) : after? text (text ++ rest) = some rest := by
  induction text with
  | nil => rfl
  | cons c text inductionHypothesis =>
      rw [List.cons_append, after?, if_pos rfl, inductionHypothesis]

/-- What is found is where the input begins. -/
theorem eq_append_of_after? {text input rest : List Char} (found : after? text input = some rest) :
    input = text ++ rest := by
  induction text generalizing input with
  | nil => exact Option.some.inj found
  | cons c text inductionHypothesis =>
      cases input with
      | nil => cases found
      | cons first input =>
          rw [after?] at found
          split at found
          · rename_i same
            rw [same, List.cons_append, inductionHypothesis found]
          · cases found

/-- A text is not found where another one stands, if neither begins with the other. -/
theorem after?_append_eq_none {text other : List Char} (notPrefix : ¬ text <+: other)
    (notExtension : ¬ other <+: text) (rest : List Char) : after? text (other ++ rest) = none := by
  induction text generalizing other with
  | nil => exact absurd List.nil_prefix notPrefix
  | cons c text inductionHypothesis =>
      cases other with
      | nil => exact absurd List.nil_prefix notExtension
      | cons d other =>
          rw [List.cons_append, after?]
          split
          · rename_i same
            rw [same, List.cons_prefix_cons] at notPrefix notExtension
            exact inductionHypothesis (fun isPrefix => notPrefix ⟨rfl, isPrefix⟩)
              fun isPrefix => notExtension ⟨rfl, isPrefix⟩
          · rfl

theorem skipBlanks_cons_of_not {c : Char} (notBlank : ¬ Text.isBlank c) (rest : List Char) :
    skipBlanks (c :: rest) = c :: rest :=
  List.dropWhile_cons_of_neg notBlank

/-- Blanks are skipped up to what is not blank. -/
theorem skipBlanks_append {gap : List Char} (areBlank : ∀ c ∈ gap, Text.isBlank c = true) {c : Char}
    (notBlank : ¬ Text.isBlank c) (rest : List Char) :
    skipBlanks (gap ++ c :: rest) = c :: rest := by
  rw [skipBlanks, List.dropWhile_append_of_pos areBlank, List.dropWhile_cons_of_neg notBlank]

/-- A run of Base64 is read to its end. -/
theorem takeWhile_isPackedChar {symbols : List Char} (packed : ∀ c ∈ symbols, isPackedChar c)
    {c : Char} (notPacked : ¬ isPackedChar c) (rest : List Char) :
    (symbols ++ c :: rest).takeWhile isPackedChar = symbols := by
  rw [List.takeWhile_append_of_pos packed, List.takeWhile_cons_of_neg notPacked, List.append_nil]

theorem dropWhile_isPackedChar {symbols : List Char} (packed : ∀ c ∈ symbols, isPackedChar c)
    {c : Char} (notPacked : ¬ isPackedChar c) (rest : List Char) :
    (symbols ++ c :: rest).dropWhile isPackedChar = c :: rest := by
  rw [List.dropWhile_append_of_pos packed, List.dropWhile_cons_of_neg notPacked]

/-! ## Values -/

namespace Value

/-- What stands in front of a packed text and its quotes. -/
def packedOpening : String :=
  "base64_decode("

/-- How a value is written. -/
def written : Value → List Char
  | .packed symbols => packedOpening.toList ++ '"' :: (symbols ++ ['"', ')'])
  | .literal body => '"' :: body ++ ['"']

/-- How a value is written with quotes of either kind. -/
def writtenIn (mark : Mark) : Value → List Char
  | .packed symbols => packedOpening.toList ++ mark.char :: (symbols ++ [mark.char, ')'])
  | .literal body => mark.char :: body ++ [mark.char]

theorem writtenIn_double (value : Value) : value.writtenIn .double = value.written := by
  cases value <;> rfl

/-- A written value does not begin with a blank, nor, if it is packed, with a quote. -/
theorem exists_writtenIn_eq (mark : Mark) (value : Value) :
    ∃ c tail, value.writtenIn mark = c :: tail ∧ ¬ Text.isBlank c ∧
      (c = '"' ∨ c = '\'' → ∃ body, value = .literal body) := by
  cases value with
  | packed symbols =>
      have begins : packedOpening.toList = 'b' :: "ase64_decode(".toList := by decide
      refine ⟨'b', "ase64_decode(".toList ++ mark.char :: (symbols ++ [mark.char, ')']), ?_,
        by decide, fun quote => absurd quote (by decide)⟩
      rw [writtenIn, begins, List.cons_append]
  | literal body => exact ⟨mark.char, _, rfl, mark.not_isBlank_char, fun _ => ⟨body, rfl⟩⟩

/-- A value that can be written: what stands between its quotes does not end them. -/
def WellFormed (mark : Mark) : Value → Prop
  | .packed symbols => ∀ c ∈ symbols, isPackedChar c
  | .literal body => IsBody mark body

end Value

variable {mark : Mark}

theorem packed?_writtenIn {symbols : List Char} (packed : ∀ c ∈ symbols, isPackedChar c)
    (rest : List Char) :
    packed? ((Value.packed symbols).writtenIn mark ++ rest) = some (.packed symbols, rest) := by
  have opened : after? "base64_decode(".toList ((Value.packed symbols).writtenIn mark ++ rest) =
      some (mark.char :: (symbols ++ mark.char :: (')' :: rest))) := by
    rw [Value.writtenIn, List.append_assoc, List.cons_append, List.append_assoc]
    exact after?_append Value.packedOpening.toList _
  rw [packed?, opened]
  simp only [Option.bind_eq_bind, Option.bind_some]
  rw [skipBlanks_cons_of_not mark.not_isBlank_char, afterQuote?_mark, Option.bind_some,
    dropWhile_isPackedChar packed mark.not_isPackedChar_char, afterQuote?_mark, Option.bind_some,
    skipBlanks_cons_of_not (by decide),
    takeWhile_isPackedChar packed mark.not_isPackedChar_char]
  rfl

/-- Behind either quote the body of a literal is read. -/
theorem value?_mark (mark : Mark) (input : List Char) :
    value? (mark.char :: input) =
      (literalBody? mark.char [] input).map fun (body, rest) => (.literal body, rest) := by
  cases mark <;> rfl

/-- A written value is read back with what stands behind it. -/
theorem value?_writtenIn {value : Value} (wellFormed : value.WellFormed mark)
    (rest : List Char) : value? (value.writtenIn mark ++ rest) = some (value, rest) := by
  cases value with
  | packed symbols =>
      have isPacked : packed? ((Value.packed symbols).writtenIn mark ++ rest) = _ :=
        packed?_writtenIn wellFormed rest
      obtain ⟨c, tail, equal, -, quoted⟩ := (Value.packed symbols).exists_writtenIn_eq mark
      have notQuote : ¬ (c = '"' ∨ c = '\'') := fun quote => nomatch quoted quote
      obtain ⟨notDouble, notSingle⟩ := not_or.mp notQuote
      rw [equal, List.cons_append] at isPacked ⊢
      rw [value?]
      · exact isPacked
      · exact fun _ begins => absurd (List.cons.inj begins).1 notDouble
      · exact fun _ begins => absurd (List.cons.inj begins).1 notSingle
  | literal body =>
      rw [Value.writtenIn, List.append_assoc, List.cons_append, List.singleton_append, value?_mark,
        literalBody?_append wellFormed]
      rfl

/-! ## Fields -/

/-- The choices there are in writing a field. -/
structure Style where
  nameMark : Mark
  beforeArrow : List Char
  behindArrow : List Char
  valueMark : Mark
  deriving Repr, DecidableEq

namespace Style

/-- Double quotes, and a space on either side of the arrow. -/
def plain : Style :=
  { nameMark := .double, beforeArrow := [' '], behindArrow := [' '], valueMark := .double }

/-- Only blanks may stand around the arrow. -/
structure WellFormed (style : Style) : Prop where
  beforeArrow : ∀ c ∈ style.beforeArrow, Text.isBlank c = true
  behindArrow : ∀ c ∈ style.behindArrow, Text.isBlank c = true

theorem wellFormed_plain : plain.WellFormed :=
  ⟨List.forall_mem_singleton.mpr rfl, List.forall_mem_singleton.mpr rfl⟩

end Style

/-- How a field is written. -/
def Field.written (field : Field) : List Char :=
  '"' :: field.name.text.toList ++ ['"', ' ', '=', '>', ' '] ++ field.value.written

/-- How a field is written in a style. -/
def Field.writtenIn (style : Style) (field : Field) : List Char :=
  style.nameMark.char :: (field.name.text.toList ++ style.nameMark.char :: (style.beforeArrow ++
    '=' :: '>' :: (style.behindArrow ++ field.value.writtenIn style.valueMark)))

theorem Field.writtenIn_plain (field : Field) : field.writtenIn .plain = field.written := by
  rw [writtenIn, written, ← Value.writtenIn_double, List.append_assoc]
  rfl

theorem fieldName?_text (name : FieldName) (rest : List Char) :
    fieldName? (name.text.toList ++ rest) = some (name, rest) := by
  have notPrefix : ∀ other : FieldName, other ≠ name →
      ¬ other.text.toList <+: name.text.toList ∧ ¬ name.text.toList <+: other.text.toList := by
    intro other differs
    cases other <;> cases name <;> first | contradiction | decide
  have notOther : ∀ other : FieldName, other ≠ name →
      after? other.text.toList (name.text.toList ++ rest) = none := by
    intro other differs
    obtain ⟨notPrefix, notExtension⟩ := notPrefix other differs
    exact after?_append_eq_none notPrefix notExtension rest
  have itself := after?_append name.text.toList rest
  cases name <;>
    simp only [fieldName?, FieldName.all, List.findSome?_cons, notOther, itself, ne_eq,
      reduceCtorEq, not_false_eq_true, Option.map_none, Option.map_some]

/-- A written field is read back with what stands behind it. -/
theorem field?_writtenIn {style : Style} (styled : style.WellFormed) {field : Field}
    (wellFormed : field.value.WellFormed style.valueMark) (rest : List Char) :
    field? (field.writtenIn style ++ rest) = some (field, rest) := by
  obtain ⟨c, tail, equal, notBlank, -⟩ := field.value.exists_writtenIn_eq style.valueMark
  have reassociated : field.writtenIn style ++ rest =
      style.nameMark.char :: (field.name.text.toList ++ style.nameMark.char ::
        (style.beforeArrow ++ '=' :: ('>' :: (style.behindArrow ++
          (field.value.writtenIn style.valueMark ++ rest))))) := by
    simp only [Field.writtenIn, List.append_assoc, List.cons_append]
  rw [reassociated, field?]
  simp only [Option.bind_eq_bind, afterQuote?_mark, Option.bind_some, fieldName?_text]
  rw [skipBlanks_append styled.beforeArrow (by decide)]
  simp only [after?, if_true, Option.bind_some]
  rw [equal, List.cons_append, skipBlanks_append styled.behindArrow notBlank, ← List.cons_append,
    ← equal, value?_writtenIn wellFormed]
  rfl

/-! ## Fields of a text -/

theorem fieldsFrom_eq_drop (skipped : Nat) (input : List Char) :
    fieldsFrom skipped input = fieldsFrom 0 (input.drop skipped) := by
  induction input generalizing skipped with
  | nil => cases skipped <;> simp [fieldsFrom]
  | cons c rest inductionHypothesis =>
      cases skipped with
      | zero => rfl
      | succ skipped => rw [fieldsFrom, List.drop_succ_cons, inductionHypothesis]

/-- A text is read as some fields, whatever stands behind it. -/
def ReadsFields (text : List Char) (found : List Field) : Prop :=
  ∀ rest, fieldsFrom 0 (text ++ rest) = found ++ fieldsFrom 0 rest

namespace ReadsFields

/-- These are the fields of the text. -/
theorem fieldsFrom_eq {text : List Char} {found : List Field} (reads : ReadsFields text found) :
    fieldsFrom 0 text = found := by
  have behindText := reads []
  rw [List.append_nil, fieldsFrom, List.append_nil] at behindText
  exact behindText

theorem append {first second : List Char} {found more : List Field}
    (reads : ReadsFields first found) (readsMore : ReadsFields second more) :
    ReadsFields (first ++ second) (found ++ more) := by
  intro rest
  rw [List.append_assoc, reads, readsMore, List.append_assoc]

/-- Text without quotes has no fields in it. -/
theorem of_noQuotes {text : List Char} (noQuotes : ∀ c ∈ text, c ≠ '"' ∧ c ≠ '\'') :
    ReadsFields text [] := by
  intro rest
  induction text with
  | nil => rfl
  | cons c text inductionHypothesis =>
      obtain ⟨⟨notDouble, notSingle⟩, noQuotesRest⟩ := List.forall_mem_cons.mp noQuotes
      have noField : field? (c :: (text ++ rest)) = none := by
        rw [field?, afterQuote?, if_neg (not_or.mpr ⟨notDouble, notSingle⟩)]
        rfl
      rw [List.cons_append, fieldsFrom, noField]
      exact inductionHypothesis noQuotesRest

/-- A written field is read to its end, so nothing in it is taken for another one. -/
theorem writtenIn {style : Style} (styled : style.WellFormed) {field : Field}
    (wellFormed : field.value.WellFormed style.valueMark) :
    ReadsFields (field.writtenIn style) [field] := by
  intro rest
  have isField := field?_writtenIn styled wellFormed rest
  have begins : ∃ tail, field.writtenIn style = style.nameMark.char :: tail := ⟨_, rfl⟩
  obtain ⟨tail, equal⟩ := begins
  rw [equal, List.cons_append] at isField ⊢
  have behind : (tail ++ rest).length - rest.length = tail.length := by
    rw [List.length_append, Nat.add_sub_cancel]
  rw [fieldsFrom, isField]
  simp only [behind]
  rw [fieldsFrom_eq_drop, List.drop_left, List.singleton_append]

theorem written {field : Field} (wellFormed : field.value.WellFormed .double) :
    ReadsFields field.written [field] := by
  rw [← Field.writtenIn_plain]
  exact writtenIn Style.wellFormed_plain wellFormed

/-- Texts that are read as one field each, one behind the other. -/
theorem flatMap {α : Type} {list : List α} {text : α → List Char} {field : α → Field}
    (reads : ∀ a ∈ list, ReadsFields (text a) [field a]) :
    ReadsFields (list.flatMap text) (list.map field) := by
  induction list with
  | nil => exact fun _ => rfl
  | cons a list inductionHypothesis =>
      obtain ⟨readsFirst, readsRest⟩ := List.forall_mem_cons.mp reads
      exact readsFirst.append (inductionHypothesis readsRest)

end ReadsFields

/-! ## Fields of programs -/

/-- The symbols of a packed text. -/
def symbolsOf (text : String) : List Char :=
  (Link.pack (Link.packable text)).toList

theorem isPackedChar_of_mem_symbolsOf {text : String} : ∀ c ∈ symbolsOf text, isPackedChar c :=
  Link.forall_mem_pack isPackedChar (by decide) (by decide)

/-- The payloads of a program, from left to right. -/
theorem payloads_eq (program : Program) :
    program.woven.payloads =
      match program with
      | .insertPost _ status title body => [symbolsOf status, symbolsOf title, symbolsOf body]
      | .attachImage target => [symbolsOf target.title]
      | .addRole name capabilities =>
        [(slug name).toList, symbolsOf name, symbolsOf (",".intercalate capabilities)]
      | .setHomepage target => [symbolsOf target.title]
      | .setPostsPage target => [symbolsOf target.title]
      | .addMenuItem menu target => [symbolsOf menu, symbolsOf target.title] := by
  cases program <;>
    simp only [Program.woven, Program.parts, lookup, weave, List.cons_append, List.nil_append,
      List.foldr_cons, List.foldr_nil, Part.weave, Woven.payloads_addFixed,
      Woven.payloads_addPayload, symbolsOf] <;>
    rfl

/-- A field with a packed text as its value. -/
def packedField (name : FieldName) (text : String) : Field :=
  ⟨name, .packed (symbolsOf text)⟩

/-- The fields of a program that makes a page or post, each with the text in front of it. -/
def insertPostFields (type : PostType) (status title body : String) :
    List (List Char × Field) :=
  [("wp_insert_post(array(".toList, ⟨.type, .literal type.name.toList⟩),
    (", ".toList, packedField .status status), (", ".toList, packedField .title title),
    (", ".toList, packedField .body body)]

theorem source_insertPost (type : PostType) (status title body : String) :
    (Program.insertPost type status title body).source.toList =
      ((insertPostFields type status title body).flatMap fun piece =>
        piece.1 ++ piece.2.written) ++ "));".toList := by
  unfold insertPostFields
  simp only [Program.source, Program.parts, Part.source, textExpression_eq, packedField, symbolsOf,
    String.toList_append, List.flatMap_cons, List.flatMap_nil, Field.written, Value.written,
    FieldName.text, Value.packedOpening, String.toList_ofList]
  -- The literals are turned into lists before anything is reassociated.
  repeat rw [String.toList_ofList]
  simp only [List.cons_append, List.nil_append, List.append_assoc]

/-- The fields of a program that makes a page or post. -/
theorem fields_insertPost (type : PostType) (status title body : String) :
    fields (Program.insertPost type status title body).source =
      [⟨.type, .literal type.name.toList⟩, packedField .status status, packedField .title title,
        packedField .body body] := by
  have noQuotes : ∀ {chars : List Char}, chars.all (fun c => c ≠ '"' ∧ c ≠ '\'') = true →
      ReadsFields chars [] := fun all => .of_noQuotes (List.all_iff_forall_prop.mp all)
  have isPacked : ∀ name text, ReadsFields (packedField name text).written
      [packedField name text] := fun name text =>
    .written isPackedChar_of_mem_symbolsOf
  have isType : ReadsFields (Field.written ⟨.type, .literal type.name.toList⟩)
      [⟨.type, .literal type.name.toList⟩] :=
    .written (.of_plain (List.all_iff_forall_prop.mp (by cases type <;> decide)))
  have reads : ∀ piece ∈ insertPostFields type status title body,
      ReadsFields (piece.1 ++ piece.2.written) [piece.2] := by
    simp only [insertPostFields, List.forall_mem_cons]
    exact ⟨(noQuotes (by decide)).append isType, (noQuotes (by decide)).append (isPacked _ _),
      (noQuotes (by decide)).append (isPacked _ _), (noQuotes (by decide)).append (isPacked _ _),
      by simp⟩
  have endReads : ReadsFields "));".toList [] := noQuotes (by decide)
  have readsAll := (ReadsFields.flatMap reads).append endReads
  rw [fields, source_insertPost, readsAll.fieldsFrom_eq]
  rfl

/-! ## Texts without fields -/

theorem mem_of_afterQuote? {input rest : List Char} (quoted : afterQuote? input = some rest)
    {c : Char} (member : c ∈ rest) : c ∈ input := by
  cases input with
  | nil => cases quoted
  | cons mark behind =>
      rw [afterQuote?] at quoted
      split at quoted
      · cases quoted
        exact List.mem_cons_of_mem mark member
      · cases quoted

theorem mem_of_after? {text input rest : List Char} (found : after? text input = some rest)
    {c : Char} (member : c ∈ rest) : c ∈ input := by
  rw [eq_append_of_after? found]
  exact List.mem_append_right text member

theorem mem_of_fieldName? {input rest : List Char} {name : FieldName}
    (named : fieldName? input = some (name, rest)) {c : Char} (member : c ∈ rest) :
    c ∈ input := by
  obtain ⟨other, -, isName⟩ := List.exists_of_findSome?_eq_some named
  obtain ⟨behind, found, equal⟩ := Option.map_eq_some_iff.mp isName
  cases equal
  exact mem_of_after? found member

/-- A field has an arrow in it. -/
theorem arrow_mem_of_field? {input : List Char} {found : Field × List Char}
    (isField : field? input = some found) : '>' ∈ input := by
  obtain ⟨quoted, isQuote, isField⟩ := Option.bind_eq_some_iff.mp isField
  obtain ⟨⟨name, named⟩, isName, isField⟩ := Option.bind_eq_some_iff.mp isField
  obtain ⟨behind, isEnd, isField⟩ := Option.bind_eq_some_iff.mp isField
  obtain ⟨rest, isArrow, -⟩ := Option.bind_eq_some_iff.mp isField
  have inBlanks : '>' ∈ skipBlanks behind := by
    rw [eq_append_of_after? isArrow]
    simp
  exact mem_of_afterQuote? isQuote (mem_of_fieldName? isName (mem_of_afterQuote? isEnd
    ((List.dropWhile_sublist _).mem inBlanks)))

/-- Text without an arrow has no fields in it. -/
theorem fieldsFrom_eq_nil {input : List Char} (noArrow : '>' ∉ input) :
    fieldsFrom 0 input = [] := by
  induction input with
  | nil => rfl
  | cons c rest inductionHypothesis =>
      have noField : field? (c :: rest) = none := by
        rw [Option.eq_none_iff_forall_not_mem]
        exact fun found isField => noArrow (arrow_mem_of_field? isField)
      rw [fieldsFrom, noField]
      exact inductionHypothesis fun inRest => noArrow (List.mem_cons_of_mem c inRest)

/-- A program that adds a role has no fields, whatever its identifier is. -/
theorem fields_addRole (name : String) (capabilities : List String) :
    fields (Program.addRole name capabilities).source = [] := by
  have notFixed : ∀ chunk ∈ (Program.addRole name capabilities).woven.chunks, '>' ∉ chunk := by
    rw [← chunks_outline]
    simp only [Program.outline, Program.woven, Program.parts, weave, Part.weave, Woven.chunks,
      Woven.addFixed, Woven.addPayload, Woven.empty, List.foldr_cons, List.foldr_nil,
      List.map_cons, List.map_nil]
    repeat rw [String.toList_ofList]
    decide +kernel
  apply fieldsFrom_eq_nil
  rw [toList_source, Woven.mem_chars]
  rintro (⟨chunk, isChunk, inChunk⟩ | ⟨payload, isPayload, inPayload⟩)
  · exact notFixed chunk isChunk inChunk
  · have notArrow := of_isPayloadChar (fun c => c != '>') (by decide)
      (isPayloadChar_of_mem isPayload inPayload)
    exact absurd notArrow (by decide)

end SiteScript.Php

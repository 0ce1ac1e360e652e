import SiteScript.Proofs.Json.RoundTrip
import SiteScript.Proofs.Link.Publishing

/-!
# Published texts are read back

A printed value holds control characters inside its strings only, and none of them belongs
to an escape.  So escaping them in the printed text is the same as spelling them by their
digits when the value is printed, and a text that spells a value is read as that value.
-/

namespace SiteScript.Link

open Text Json

/-! ## Escaped characters -/

theorem not_isControl_of_mem_unitEscape {value : Nat} {c : Char} (member : c ∈ unitEscape value) :
    ¬ isControl c := by
  have ofDigit : ∀ n : Fin 16, ¬ isControl (Hex.digit n) := by decide
  have digit : ∀ n, ¬ isControl (Hex.digit (n % 0x10)) := fun n =>
    ofDigit ⟨n % 0x10, Nat.mod_lt n (by decide)⟩
  simp only [unitEscape, List.mem_cons, List.not_mem_nil, or_false] at member
  rcases member with rfl | rfl | rfl | rfl | rfl | rfl
  · decide
  · decide
  · exact digit _
  · exact digit _
  · exact digit _
  · exact digit _

theorem not_isControl_of_mem_escape {letter c d : Char} (escapes : Escapes letter c)
    (member : d ∈ ['\\', letter]) : ¬ isControl d := by
  rcases List.mem_pair.mp member with rfl | rfl
  · decide
  · exact escapes.visible

/-- The piece as which a character is published: by its digits if it is a control character
that no letter escapes. -/
def publishedPiece (c : Char) : Piece :=
  if isControl c ∧ escapeLetter? c = none then .unit c.toNat else .char c

theorem le_toNat_of_not_isControl {c : Char} (notControl : ¬ isControl c) : 0x20 ≤ c.toNat := by
  simp only [isControl, Bool.or_eq_true, Bool.and_eq_true, decide_eq_true_eq] at notControl
  omega

theorem toNat_le_of_isControl {c : Char} (control : isControl c) : c.toNat ≤ 0x9F := by
  simp only [isControl, Bool.or_eq_true, Bool.and_eq_true, decide_eq_true_eq] at control
  omega

theorem spells_publishedPiece (c : Char) : Spells c (publishedPiece c) := by
  rw [publishedPiece]
  split
  · rename_i escaped
    have small := toNat_le_of_isControl escaped.1
    exact .unit (by omega)
  · rename_i notEscaped
    refine .char ?_
    by_cases letter : escapeLetter? c = none
    · exact Or.inr (le_toNat_of_not_isControl fun control => notEscaped ⟨control, letter⟩)
    · exact Or.inl letter

/-- A control character is escaped as it is published. -/
theorem escapeControl_of_isControl {c : Char} (control : isControl c) :
    escapeControl c = (publishedPiece c).chars := by
  have notMark : ¬ (c = '"' ∨ c = '\\') := by
    rintro (rfl | rfl)
    · exact absurd control (by decide)
    · exact absurd control (by decide)
  rw [escapeControl]
  split
  · subst c
    rfl
  split
  · subst c
    rfl
  split
  · subst c
    rfl
  split
  · subst c
    rfl
  split
  · subst c
    rfl
  · have noLetter : escapeLetter? c = none := by
      rw [escapeLetter?, if_neg notMark, if_neg ‹_›, if_neg ‹_›, if_neg ‹_›, if_neg ‹_›, if_neg ‹_›]
    rw [publishedPiece, if_pos ⟨control, noLetter⟩, Piece.chars]

/-- Escaping leaves no control character. -/
theorem not_isControl_of_mem_escapeControl {c d : Char} (member : d ∈ escapeControl c) :
    ¬ isControl d := by
  by_cases control : isControl c
  · rw [escapeControl_of_isControl control, publishedPiece] at member
    split at member
    · exact not_isControl_of_mem_unitEscape member
    · rename_i notUnit
      rw [Piece.chars] at member
      cases escapes : escapeLetter? c with
      | none => exact absurd ⟨control, escapes⟩ notUnit
      | some letter =>
          rw [escapes] at member
          exact not_isControl_of_mem_escape (escapes_of_escapeLetter? escapes) member
  · rw [escapeControl_of_not_isControl control] at member
    rwa [List.mem_singleton.mp member]

/-- Escaping the characters of a printed character gives those of the published one. -/
theorem flatMap_escapeControl_ofChar (c : Char) :
    (Piece.ofChar c).chars.flatMap escapeControl = (publishedPiece c).chars := by
  cases escapes : escapeLetter? c with
  | some letter =>
      have printed : Piece.ofChar c = .char c := by simp [Piece.ofChar, escapes]
      have published : publishedPiece c = .char c := by simp [publishedPiece, escapes]
      have charsEq : Piece.chars (.char c) = ['\\', letter] := by simp [Piece.chars, escapes]
      rw [printed, published, charsEq]
      exact flatMap_escapeControl fun d member =>
        not_isControl_of_mem_escape (escapes_of_escapeLetter? escapes) member
  | none =>
      by_cases control : isControl c
      · have published : publishedPiece c = .unit c.toNat := if_pos ⟨control, escapes⟩
        rw [Piece.ofChar]
        split
        · rw [published, Piece.chars]
          exact flatMap_escapeControl fun d member => not_isControl_of_mem_unitEscape member
        · rw [← escapeControl_of_isControl control]
          simp [Piece.chars, escapes]
      · have above := le_toNat_of_not_isControl control
        have printed : Piece.ofChar c = .char c := if_neg fun below => by omega
        have published : publishedPiece c = .char c := if_neg fun both => control both.1
        rw [printed, published]
        simp [Piece.chars, escapes, escapeControl_of_not_isControl control]

/-! ## Escaped texts -/

theorem flatMap_escapeControl_pieces (text : List Char) :
    ((text.map Piece.ofChar).flatMap Piece.chars).flatMap escapeControl =
      (text.map publishedPiece).flatMap Piece.chars := by
  rw [List.flatMap_map, List.flatMap_map, List.flatMap_assoc]
  exact List.flatMap_congr fun c _ => flatMap_escapeControl_ofChar c

/-- Escaping a printed string spells it as it is published. -/
theorem flatMap_escapeControl_str (text : List Char) :
    (Token.chars (.str (text.map Piece.ofChar))).flatMap escapeControl =
      Token.chars (.str (text.map publishedPiece)) := by
  have quote : escapeControl '"' = ['"'] := escapeControl_of_not_isControl (by decide)
  rw [Token.chars, Token.chars, List.flatMap_append, List.flatMap_cons,
    flatMap_escapeControl_pieces, quote]
  simp [quote]

theorem not_isControl_of_isDigit {c : Char} (digit : Number.isDigit c) : ¬ isControl c := by
  simp only [Number.isDigit, Bool.and_eq_true, decide_eq_true_eq, Char.le_def,
    UInt32.le_iff_toNat_le] at digit
  have low : 0x30 ≤ c.toNat := digit.1
  have high : c.toNat ≤ 0x39 := digit.2
  simp only [isControl, Bool.or_eq_true, Bool.and_eq_true, decide_eq_true_eq]
  omega

/-- The literal of an integer holds nothing to escape. -/
theorem flatMap_escapeControl_num {number : Number} (integer : number.isKeptInteger) :
    (Token.chars (.num number.chars)).flatMap escapeControl = Token.chars (.num number.chars) := by
  cases number with
  | double value => cases integer
  | integer value =>
      apply flatMap_escapeControl
      intro c member
      rcases Number.mem_integerChars member with rfl | digit
      · decide
      · exact not_isControl_of_isDigit digit

/-- A token that is no string and no number holds nothing to escape. -/
theorem flatMap_escapeControl_mark {token : Token} (isMark : token.isMark) :
    token.chars.flatMap escapeControl = token.chars := by
  cases token <;> first | rfl | cases isMark

/-- Printed tokens and the tokens that escaping makes of their text. -/
def Escaped (printed published : List Token) : Prop :=
  (printed.flatMap Token.chars).flatMap escapeControl = published.flatMap Token.chars

namespace Escaped

theorem nil : Escaped [] [] :=
  rfl

theorem singleton {printed published : Token}
    (escaped : printed.chars.flatMap escapeControl = published.chars) :
    Escaped [printed] [published] := by
  rwa [Escaped, List.flatMap_singleton, List.flatMap_singleton]

theorem append {printed published laterPrinted laterPublished : List Token}
    (first : Escaped printed published) (later : Escaped laterPrinted laterPublished) :
    Escaped (printed ++ laterPrinted) (published ++ laterPublished) := by
  rw [Escaped] at first later ⊢
  rw [List.flatMap_append, List.flatMap_append, List.flatMap_append, first, later]

theorem mark {token : Token} {printed published : List Token} (isMark : token.isMark)
    (later : Escaped printed published) : Escaped (token :: printed) (token :: published) :=
  (singleton (flatMap_escapeControl_mark isMark)).append later

theorem enclosed {opening closing : Token} {printed published : List Token}
    (isOpening : opening.isMark) (isClosing : closing.isMark) (inner : Escaped printed published) :
    Escaped (opening :: printed ++ [closing]) (opening :: published ++ [closing]) :=
  (inner.mark isOpening).append (nil.mark isClosing)

theorem member (name : String) {printed published : List Token}
    (value : Escaped printed published) :
    Escaped (.str (name.toList.map Piece.ofChar) :: .colon :: printed)
      (.str (name.toList.map publishedPiece) :: .colon :: published) :=
  (singleton (flatMap_escapeControl_str name.toList)).append (value.mark rfl)

end Escaped

mutual
/-- Escaping the printed text of a value spells the value as it is published. -/
theorem escaped_spelled : ∀ value : Json, (∀ number ∈ value.numbers, number.isKeptInteger) →
    Escaped (value.spelled Piece.ofChar).tokens (value.spelled publishedPiece).tokens
  | .null, _ => .singleton rfl
  | .bool true, _ | .bool false, _ => .singleton rfl
  | .num value, integers =>
    .singleton (flatMap_escapeControl_num (integers value (by simp [numbers])))
  | .str text, _ => .singleton (flatMap_escapeControl_str text.toList)
  | .arr items, integers => by
      rw [numbers] at integers
      exact (escaped_spelledItems items integers).enclosed rfl rfl
  | .obj members, integers => by
      rw [numbers] at integers
      exact (escaped_spelledMembers members integers).enclosed rfl rfl
theorem escaped_spelledItems : ∀ items : List Json,
    (∀ number ∈ numbersOfItems items, number.isKeptInteger) →
      Escaped (Tree.tokensOfItems (spelledItems Piece.ofChar items))
        (Tree.tokensOfItems (spelledItems publishedPiece items))
  | [], _ => .nil
  | [item], integers => by
      simp only [numbersOfItems, List.append_nil] at integers
      exact escaped_spelled item integers
  | item :: next :: rest, integers => by
      rw [numbersOfItems, List.forall_mem_append] at integers
      have first := escaped_spelled item integers.1
      exact first.append ((escaped_spelledItems (next :: rest) integers.2).mark rfl)
theorem escaped_spelledMembers : ∀ members : List (String × Json),
    (∀ number ∈ numbersOfMembers members, number.isKeptInteger) →
      Escaped (Tree.tokensOfMembers (spelledMembers Piece.ofChar members))
        (Tree.tokensOfMembers (spelledMembers publishedPiece members))
  | [], _ => .nil
  | [(name, value)], integers => by
      simp only [numbersOfMembers, List.append_nil] at integers
      exact (escaped_spelled value integers).member name
  | (name, value) :: next :: rest, integers => by
      rw [numbersOfMembers, List.forall_mem_append] at integers
      have first := (escaped_spelled value integers.1).member name
      exact first.append ((escaped_spelledMembers (next :: rest) integers.2).mark rfl)
end

theorem flatMap_escapeControl_compactChars {value : Json}
    (integers : ∀ number ∈ value.numbers, number.isKeptInteger) :
    value.compactChars.flatMap escapeControl = spelledChars publishedPiece value := by
  rw [← spelledChars_ofChar]
  exact escaped_spelled value integers

/-! ## Publishing -/

section

variable {value : Json} (integers : ∀ number ∈ value.numbers, number.isKeptInteger)

/-- The text in which a value is published. -/
def publishedText (value : Json) : String :=
  .ofList (spelledChars publishedPiece value.deepClean)

include integers in
theorem flatMap_escapeControl_deepClean :
    value.deepClean.compactChars.flatMap escapeControl = (publishedText value).toList := by
  rw [publishedText, String.toList_ofList]
  apply flatMap_escapeControl_compactChars
  rw [numbers_deepClean]
  exact integers

include integers in
theorem not_isControl_of_mem_publishedText {c : Char} (member : c ∈ (publishedText value).toList) :
    ¬ isControl c := by
  rw [← flatMap_escapeControl_deepClean integers] at member
  obtain ⟨_, -, isEscaped⟩ := List.mem_flatMap.mp member
  exact not_isControl_of_mem_escapeControl isEscaped

include integers in
/-- The published text is JSON and says what the clean value says. -/
theorem parseWritten?_publishedText (shallow : value.depth ≤ depthLimit) :
    parseWritten? (publishedText value) = some value.deepClean := by
  rw [← numbers_deepClean] at integers
  rw [← depth_deepClean] at shallow
  rw [parseWritten?, publishedText, String.toList_ofList]
  exact parseWithin?_of_reads spells_publishedPiece
    (readsTokens_spelled spells_publishedPiece _ integers) integers shallow

include integers in
/-- Publishing never fails. -/
theorem publish_eq (shallow : value.depth ≤ depthLimit) :
    publish value = .ok (publishedText value) := by
  have escapedEq := flatMap_escapeControl_deepClean integers
  have ofEscaped : String.ofList (value.deepClean.compactChars.flatMap escapeControl) =
      publishedText value := by
    rw [escapedEq, String.ofList_toList]
  have readable := parseWritten?_publishedText integers shallow
  rw [parseWritten?, ← escapedEq] at readable
  have accepted : checkControls (publishedText value) = .ok () :=
    checkControls_eq_ok fun c member forbidden =>
      not_isControl_of_mem_publishedText integers member (isControl_of_isForbidden forbidden)
  simp only [publish]
  split
  · simp only [readable, ofEscaped, accepted]
    rfl
  · rename_i noControls
    rw [← ofEscaped, flatMap_escapeControl]
    · rfl
    · exact fun c member control => noControls (List.any_eq_true.mpr ⟨c, member, control⟩)

end

/-! ## Exactness -/

/-- A text in which a value is published, from which the clean value is read back. -/
structure IsPublishedExactly (value : Json) (text : String) : Prop where
  /-- The value is published, and the text is what it is published as. -/
  published : publish value = .ok text
  /-- No control character is left in the text. -/
  noControls : ∀ c ∈ text.toList, ¬ isControl c
  /-- The text is JSON, and its value with the members as they are written is the clean one. -/
  written : parseWritten? text = some value.deepClean
  /-- It is read as the clean value if every object names each member once, as the objects of
  any value that has been read do. -/
  parsed : value.isDistinct → parse? text = some value.deepClean
  /-- The clean value has the same names in it, in the same order. -/
  namesKept : value.deepClean.memberNames = value.memberNames
  /-- What has been read from the text is published as the same text again. -/
  republished : ∀ read, parseWritten? text = some read → publish read = .ok text

/-- A value whose numbers are kept exactly and that is not nested too deeply is published, free of
control characters and without loss. -/
theorem exists_isPublishedExactly {value : Json}
    (integers : ∀ number ∈ value.numbers, number.isKeptInteger)
    (shallow : value.depth ≤ depthLimit) : ∃ text, IsPublishedExactly value text := by
  have written := parseWritten?_publishedText integers shallow
  refine ⟨publishedText value, publish_eq integers shallow, fun c =>
    not_isControl_of_mem_publishedText integers, written, fun distinct => ?_,
    memberNames_deepClean value, fun read isRead => ?_⟩
  · rw [parse?, written, Option.map_some, merged_eq_self (isDistinct_deepClean distinct)]
  · obtain rfl := Option.some.inj (written.symm.trans isRead)
    have cleanIntegers := integers
    have cleanShallow := shallow
    rw [← numbers_deepClean] at cleanIntegers
    rw [← depth_deepClean] at cleanShallow
    rw [publish_eq cleanIntegers cleanShallow, publishedText, publishedText, deepClean_deepClean]

/-- A value with control characters, a quote and a backslash in its names and its texts. -/
def untidyValue : Json :=
  .obj [("tab\t\x7f", .arr [.str " two\t words\u0085", .num (.integer (-5))]),
    ("\"\\\u009f", .obj [("\x00", .bool true), ("", .null)])]

theorem exists_isPublishedExactly_untidyValue :
    (∀ number ∈ untidyValue.numbers, number.isKeptInteger) ∧ untidyValue.depth ≤ depthLimit ∧
      ∃ text, IsPublishedExactly untidyValue text :=
  ⟨by decide, by decide, exists_isPublishedExactly (by decide) (by decide)⟩

end SiteScript.Link

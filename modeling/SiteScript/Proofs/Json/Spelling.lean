import SiteScript.Json.Tree
import SiteScript.Text.Blank

/-!
# Spelled texts

A character of a string may be written as itself, by a letter or by its digits.  Any of
these pieces stands for the character again, and a scanner that reads the characters of
a piece collects the piece.
-/

namespace SiteScript.Json

open Text

/-- The pieces as which a character may be written in a string. -/
inductive Spells (c : Char) : Piece → Prop
  /-- A character that is escaped by a letter or need not be escaped. -/
  | char (writable : escapeLetter? c ≠ none ∨ 0x20 ≤ c.toNat) : Spells c (.char c)
  /-- The digits of a character that takes one unit. -/
  | unit (small : c.toNat < 0xD800) : Spells c (.unit c.toNat)

/-- The pieces as which characters are written spell them. -/
theorem spells_ofChar (c : Char) : Spells c (Piece.ofChar c) := by
  rw [Piece.ofChar]
  split
  · rename_i escaped
    exact .unit (by omega)
  · rename_i notEscaped
    refine .char ?_
    by_cases letter : escapeLetter? c = none
    · exact Or.inr (Nat.le_of_not_lt fun below => notEscaped ⟨below, letter⟩)
    · exact Or.inl letter

/-! ## What pieces stand for -/

theorem charsFrom?_unit {unit : Nat} (small : unit < 0xD800) (read : List Char)
    (rest : List Piece) :
    charsFrom? read (.unit unit :: rest) = charsFrom? (Char.ofNat unit :: read) rest := by
  have notHigh : isHighHalf unit = false := by
    simp only [isHighHalf, Bool.and_eq_false_iff, decide_eq_false_iff_not]
    omega
  have notLow : isLowHalf unit = false := by
    simp only [isLowHalf, Bool.and_eq_false_iff, decide_eq_false_iff_not]
    omega
  rcases rest with _ | ⟨_ | _, rest⟩ <;> simp [charsFrom?, notHigh, notLow]

variable {spell : Char → Piece}

theorem charsFrom?_map (spells : ∀ c, Spells c (spell c)) (read text : List Char) :
    charsFrom? read (text.map spell) = some (read.reverse ++ text) := by
  induction text generalizing read with
  | nil => simp [charsFrom?]
  | cons c rest inductionHypothesis =>
      have head : charsFrom? read (spell c :: rest.map spell) =
          charsFrom? (c :: read) (rest.map spell) := by
        have spelled := spells c
        generalize spell c = piece at spelled
        cases spelled with
        | char => rw [charsFrom?]
        | unit small => rw [charsFrom?_unit small, Char.ofNat_toNat]
      rw [List.map_cons, head, inductionHypothesis]
      simp

/-- A spelled text stands for itself. -/
theorem text?_map (spells : ∀ c, Spells c (spell c)) (text : String) :
    text? (text.toList.map spell) = some text := by
  rw [text?, charsFrom?_map spells]
  simp

/-! ## Scanning pieces -/

variable {done : List Token} {read : List Piece}

/-- A letter by which a character is escaped, as a reader meets it. -/
structure Escapes (letter c : Char) : Prop where
  notUnit : letter ≠ 'u'
  escapedBy : escapedBy? letter = some c
  visible : ¬ isControl letter

instance (letter c : Char) : Decidable (Escapes letter c) :=
  decidable_of_iff (letter ≠ 'u' ∧ escapedBy? letter = some c ∧ ¬ isControl letter)
    ⟨fun ⟨notUnit, escapedBy, visible⟩ => ⟨notUnit, escapedBy, visible⟩,
      fun ⟨notUnit, escapedBy, visible⟩ => ⟨notUnit, escapedBy, visible⟩⟩

/-- The letter that escapes a character is read as that character. -/
theorem escapes_of_escapeLetter? {c letter : Char} (escapes : escapeLetter? c = some letter) :
    Escapes letter c := by
  have readsBack : ∀ {meant sign : Char}, c = meant → some sign = some letter →
      Escapes sign meant → Escapes letter c := by
    rintro meant sign rfl equal reads
    rwa [← Option.some.inj equal]
  rw [escapeLetter?] at escapes
  split at escapes
  · rename_i mark
    rcases mark with quote | backslash
    · subst quote
      exact readsBack rfl escapes (by decide)
    · subst backslash
      exact readsBack rfl escapes (by decide)
  split at escapes
  · exact readsBack ‹_› escapes (by decide)
  split at escapes
  · exact readsBack ‹_› escapes (by decide)
  split at escapes
  · exact readsBack ‹_› escapes (by decide)
  split at escapes
  · exact readsBack ‹_› escapes (by decide)
  split at escapes
  · exact readsBack ‹_› escapes (by decide)
  · cases escapes

theorem foldlM_char {c : Char} (writable : escapeLetter? c ≠ none ∨ 0x20 ≤ c.toNat) :
    (Piece.chars (.char c)).foldlM Scan.step? ⟨.string read, done⟩ =
      some ⟨.string (.char c :: read), done⟩ := by
  rw [Piece.chars]
  cases escapes : escapeLetter? c with
  | some letter =>
      obtain ⟨notUnit, escapedBy, -⟩ := escapes_of_escapeLetter? escapes
      simp [Scan.step?, notUnit, escapedBy]
  | none =>
      have notMark : ¬ (c = '"' ∨ c = '\\') := by
        intro mark
        rw [escapeLetter?, if_pos mark] at escapes
        cases escapes
      obtain ⟨notQuote, notBackslash⟩ := not_or.mp notMark
      have visible : ¬ c.toNat < 0x20 :=
        Nat.not_lt.mpr (writable.resolve_left fun escaped => escaped escapes)
      simp [Scan.step?, notQuote, notBackslash, visible]

theorem foldlM_unit {value : Nat} (small : value < 0x10000) :
    (Piece.chars (.unit value)).foldlM Scan.step? ⟨.string read, done⟩ =
      some ⟨.string (.unit value :: read), done⟩ := by
  have digit : ∀ n, Hex.value? (Hex.digit (n % 0x10)) = some (n % 0x10) := fun n =>
    Hex.value?_digit ⟨n % 0x10, Nat.mod_lt n (by decide)⟩
  have together : ((value / 0x1000 % 0x10 * 0x10 + value / 0x100 % 0x10) * 0x10 +
      value / 0x10 % 0x10) * 0x10 + value % 0x10 = value := by
    omega
  simp [Piece.chars, unitEscape, Scan.step?, digit, together]

/-- The characters of a piece are read as that piece. -/
theorem foldlM_piece {c : Char} {piece : Piece} (spells : Spells c piece) :
    piece.chars.foldlM Scan.step? ⟨.string read, done⟩ =
      some ⟨.string (piece :: read), done⟩ := by
  cases spells with
  | char writable => exact foldlM_char writable
  | unit small => exact foldlM_unit (by omega)

theorem foldlM_pieces (spells : ∀ c, Spells c (spell c)) (text : List Char) :
    ((text.map spell).flatMap Piece.chars).foldlM Scan.step? ⟨.string read, done⟩ =
      some ⟨.string ((text.map spell).reverse ++ read), done⟩ := by
  induction text generalizing read with
  | nil => rfl
  | cons c rest inductionHypothesis =>
      rw [List.map_cons, List.flatMap_cons, List.foldlM_append, foldlM_piece (spells c)]
      simp [inductionHypothesis]

/-- A spelled string is read as its pieces. -/
theorem foldlM_string (spells : ∀ c, Spells c (spell c)) (text : List Char) :
    (Token.chars (.str (text.map spell))).foldlM Scan.step? ⟨.between, done⟩ =
      some ⟨.between, .str (text.map spell) :: done⟩ := by
  have opened : Scan.step? ⟨.between, done⟩ '"' = some ⟨.string [], done⟩ := by
    simp [Scan.step?, Scan.begin?, isSpace]
  rw [Token.chars, List.cons_append, List.foldlM_cons, opened, Option.bind_eq_bind,
    Option.bind_some, List.foldlM_append, foldlM_pieces spells]
  simp [Scan.step?]

end SiteScript.Json

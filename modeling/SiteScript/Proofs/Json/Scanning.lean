import SiteScript.Json.Printer
import SiteScript.Proofs.Json.Trees

/-!
# Texts are scanned back

A text is put together from the texts of tokens and from blanks.  Only a number or a word
may go on with the next character, and neither goes on with a mark, a quote or a blank.
So where two texts meet, it is enough to know whether the first one may still go on and
whether the second one may begin there; texts that fit are scanned one after the other.
-/

namespace SiteScript.Json

/-! ## Edges of texts -/

/-- Where the text of some tokens ends. -/
inductive Edge where
  /-- Behind a token that is over. -/
  | closed
  /-- Possibly behind a number or a word, which may go on. -/
  | loose
  deriving DecidableEq

/-- Whether a character is no part of a number or a word. -/
def separates (c : Char) : Bool :=
  !isNumberChar c && !isLetter c

/-- The scan stands behind tokens, of which the last one may be loose. -/
def Behind (done : List Token) : Edge → Scan → Prop
  | .closed, scan => scan = ⟨.between, done⟩
  | .loose, scan => scan.close? = some ⟨.between, done⟩ ∧
      ∀ c, separates c → scan.step? c = Scan.begin? ⟨.between, done⟩ c

theorem Behind.loose {done : List Token} {edge : Edge} {scan : Scan}
    (behind : Behind done edge scan) : Behind done .loose scan := by
  cases edge with
  | closed =>
      rw [Behind] at behind
      subst behind
      exact ⟨rfl, fun _ _ => rfl⟩
  | loose => exact behind

/-- Reading a text behind one edge adds tokens and leads behind another edge. -/
def Reads (before : Edge) (text : List Char) (tokens : List Token) (after : Edge) : Prop :=
  ∀ done scan, Behind done before scan → ∃ next, text.foldlM Scan.step? scan = some next ∧
    Behind (tokens.reverse ++ done) after next

namespace Reads

variable {before between after : Edge} {text more : List Char} {tokens later : List Token}

/-- Texts that fit are read one after the other. -/
theorem append (first : Reads before text tokens between) (second : Reads between more later after) :
    Reads before (text ++ more) (tokens ++ later) after := by
  intro done scan behind
  obtain ⟨middle, readFirst, behindFirst⟩ := first done scan behind
  obtain ⟨next, readSecond, behindSecond⟩ := second _ middle behindFirst
  refine ⟨next, ?_, ?_⟩
  · rw [List.foldlM_append, readFirst]
    exact readSecond
  · simpa using behindSecond

theorem nil (edge : Edge) : Reads edge [] [] edge :=
  fun _ scan behind => ⟨scan, rfl, behind⟩

/-- A text that may begin behind anything may begin behind a token that is over. -/
theorem ofLoose (reads : Reads .loose text tokens after) : Reads before text tokens after :=
  fun done scan behind => reads done scan behind.loose

/-- A text that ends with a token that is over ends in any case. -/
theorem toLoose (reads : Reads before text tokens after) : Reads before text tokens .loose := by
  intro done scan behind
  obtain ⟨next, read, behindNext⟩ := reads done scan behind
  exact ⟨next, read, behindNext.loose⟩

/-- A blank may stand anywhere. -/
theorem space {c : Char} (isBlank : isSpace c) (isSeparator : separates c) :
    Reads .loose [c] [] .closed := by
  intro done scan behind
  refine ⟨⟨.between, done⟩, ?_, rfl⟩
  simp [behind.2 c isSeparator, Scan.begin?, isBlank]

end Reads

/-- A text that is read gives its tokens. -/
theorem scan?_of_reads {text : List Char} {tokens : List Token}
    (reads : Reads .closed text tokens .loose) : scan? text = some tokens := by
  obtain ⟨next, read, closes, -⟩ := reads [] ⟨.between, []⟩ rfl
  rw [scan?, read, Option.bind_some, Scan.finish?, closes]
  simp

/-! ## Marks, words and blanks -/

/-- Whether a token is a single character that goes on with nothing. -/
def Token.isMark : Token → Bool
  | .openList | .closeList | .openObject | .closeObject | .comma | .colon => true
  | .null | .bool _ | .num _ | .str _ => false

/-- A mark may stand anywhere. -/
theorem reads_mark {token : Token} (isMark : token.isMark) :
    Reads .loose token.chars [token] .closed := by
  have begins : ∃ c, token.chars = [c] ∧ separates c ∧
      ∀ done, Scan.begin? ⟨.between, done⟩ c = some ⟨.between, token :: done⟩ := by
    cases token <;> first | exact ⟨_, rfl, by decide, fun _ => rfl⟩ | cases isMark
  obtain ⟨c, charsEq, isSeparator, begins⟩ := begins
  intro done scan behind
  refine ⟨⟨.between, token :: done⟩, ?_, rfl⟩
  simp [charsEq, behind.2 c isSeparator, begins]

/-- A word that has been read to its end. -/
theorem behind_word {read : List Char} {token : Token} (isWord : wordToken? read = some token)
    (done : List Token) : Behind (token :: done) .loose ⟨.word read, done⟩ := by
  have closes : Scan.close? ⟨.word read, done⟩ = some ⟨.between, token :: done⟩ := by
    simp [Scan.close?, isWord]
  refine ⟨closes, fun c isSeparator => ?_⟩
  simp only [separates, Bool.and_eq_true, Bool.not_eq_true'] at isSeparator
  simp [Scan.step?, isSeparator.2, closes]

theorem reads_null : Reads .closed (Token.chars .null) [.null] .loose := by
  rintro done scan rfl
  exact ⟨⟨.word ['l', 'l', 'u', 'n'], done⟩, rfl, behind_word rfl done⟩

theorem reads_bool (value : Bool) : Reads .closed (Token.chars (.bool value)) [.bool value] .loose := by
  rintro done scan rfl
  cases value with
  | true => exact ⟨⟨.word ['e', 'u', 'r', 't'], done⟩, rfl, behind_word rfl done⟩
  | false => exact ⟨⟨.word ['e', 's', 'l', 'a', 'f'], done⟩, rfl, behind_word rfl done⟩

/-- The end of a line and the indentation of the next one. -/
theorem reads_newLine (level : Nat) : Reads .loose (newLine level) [] .closed := by
  have indentation : ∀ count, Reads .closed (List.replicate count ' ') [] .closed := by
    intro count
    induction count with
    | zero => exact .nil .closed
    | succ count inductionHypothesis =>
        exact (Reads.space (by decide) (by decide)).ofLoose.append inductionHypothesis
  exact (Reads.space (by decide) (by decide)).append (indentation (2 * level))

/-! ## Strings and numbers -/

variable {spell : Char → Piece}

/-- A spelled string. -/
theorem reads_str (spells : ∀ c, Spells c (spell c)) (text : List Char) :
    Reads .closed (Token.chars (.str (text.map spell))) [.str (text.map spell)] .closed := by
  rintro done scan rfl
  exact ⟨_, foldlM_string spells text, rfl⟩

/-- A number that has been read to its end. -/
theorem behind_number {read : List Char} (isLiteral : (Number.literal? read.reverse).isSome)
    (done : List Token) : Behind (.num read.reverse :: done) .loose ⟨.number read, done⟩ := by
  obtain ⟨literal, literalEq⟩ := Option.isSome_iff_exists.mp isLiteral
  have closes : Scan.close? ⟨.number read, done⟩ = some ⟨.between, .num read.reverse :: done⟩ := by
    simp [Scan.close?, literalEq]
  refine ⟨closes, fun c isSeparator => ?_⟩
  simp only [separates, Bool.and_eq_true, Bool.not_eq_true'] at isSeparator
  simp [Scan.step?, isSeparator.1, closes]

theorem foldlM_numberChars {text : List Char} (areNumberChars : ∀ c ∈ text, isNumberChar c)
    (read : List Char) (done : List Token) :
    text.foldlM Scan.step? ⟨.number read, done⟩ = some ⟨.number (text.reverse ++ read), done⟩ := by
  induction text generalizing read with
  | nil => rfl
  | cons c rest inductionHypothesis =>
      obtain ⟨isNumberChar, areNumberCharsRest⟩ := List.forall_mem_cons.mp areNumberChars
      rw [List.foldlM_cons, Scan.step?]
      simp [isNumberChar, inductionHypothesis areNumberCharsRest]

/-- A literal that begins with a digit or a minus. -/
theorem reads_literal {first : Char} {rest : List Char}
    (begins : first = '-' ∨ Number.isDigit first) (areNumberChars : ∀ c ∈ rest, isNumberChar c)
    (isLiteral : (Number.literal? (first :: rest)).isSome) :
    Reads .closed (Token.chars (.num (first :: rest))) [.num (first :: rest)] .loose := by
  rintro done scan rfl
  have differs : ∀ c, c ≠ '-' → ¬ Number.isDigit c → first ≠ c := by
    rintro c notMinus notDigit rfl
    exact begins.elim notMinus notDigit
  have started : Scan.step? ⟨.between, done⟩ first = some ⟨.number [first], done⟩ := by
    have notSpace : isSpace first = false := by
      simp [isSpace, differs ' ' (by decide) (by decide), differs '\t' (by decide) (by decide),
        differs '\n' (by decide) (by decide), differs '\r' (by decide) (by decide)]
    simp [Scan.step?, Scan.begin?, notSpace, differs '"' (by decide) (by decide), begins]
  have isLiteralRead : (Number.literal? (rest.reverse ++ [first]).reverse).isSome := by
    simpa using isLiteral
  have ends := behind_number isLiteralRead done
  refine ⟨_, ?_, by simpa using ends⟩
  rw [Token.chars, List.foldlM_cons, started]
  exact foldlM_numberChars areNumberChars [first] done

/-- The literal of an integer. -/
theorem reads_num {number : Number} (integer : number.isKeptInteger) :
    Reads .closed (Token.chars (.num number.chars)) [.num number.chars] .loose := by
  cases number with
  | double value => cases integer
  | integer value =>
      have isNumberChar_of_isDigit : ∀ c ∈ Number.digitChars value.natAbs, isNumberChar c :=
        fun c member => by simp [isNumberChar, Number.isDigit_of_mem_digitChars member]
      have isLiteral := Option.isSome_of_eq_some (Number.literal?_integerChars value)
      rw [Number.chars]
      rw [Number.integerChars] at isLiteral ⊢
      split
      · rename_i negative
        rw [if_pos negative] at isLiteral
        exact reads_literal (Or.inl rfl) isNumberChar_of_isDigit isLiteral
      · rename_i notNegative
        rw [if_neg notNegative] at isLiteral
        obtain ⟨first, rest, digitsEq⟩ :=
          List.exists_cons_of_ne_nil (Number.isWhole_digitChars value.natAbs).notEmpty
        have firstIsDigit : Number.isDigit first :=
          Number.isDigit_of_mem_digitChars (digitsEq ▸ List.mem_cons_self)
        rw [digitsEq] at isLiteral isNumberChar_of_isDigit ⊢
        exact reads_literal (Or.inr firstIsDigit)
          (fun c member => isNumberChar_of_isDigit c (List.mem_cons_of_mem first member)) isLiteral

/-! ## Compact texts -/

/-- The compact text of a value if characters are written as the pieces that `spell` gives. -/
def spelledChars (spell : Char → Piece) (value : Json) : List Char :=
  (value.spelled spell).tokens.flatMap Token.chars

/-- The text of tokens with nothing between them is read as these tokens. -/
def ReadsTokens (before : Edge) (tokens : List Token) (after : Edge) : Prop :=
  Reads before (tokens.flatMap Token.chars) tokens after

theorem ReadsTokens.singleton {before after : Edge} {token : Token}
    (reads : Reads before token.chars [token] after) : ReadsTokens before [token] after := by
  rwa [ReadsTokens, List.flatMap_singleton]

theorem ReadsTokens.append {before between after : Edge} {first second : List Token}
    (readsFirst : ReadsTokens before first between) (readsSecond : ReadsTokens between second after) :
    ReadsTokens before (first ++ second) after := by
  rw [ReadsTokens, List.flatMap_append]
  exact Reads.append readsFirst readsSecond

theorem ReadsTokens.mark {before after : Edge} {token : Token} {rest : List Token}
    (isMark : token.isMark) (readsRest : ReadsTokens .closed rest after) :
    ReadsTokens before (token :: rest) after :=
  (reads_mark isMark).ofLoose.append readsRest

/-- Tokens between two marks. -/
theorem ReadsTokens.enclosed {opening closing : Token} {inner : List Token}
    (isOpening : opening.isMark) (isClosing : closing.isMark)
    (readsInner : ReadsTokens .closed inner .loose) :
    ReadsTokens .closed (opening :: inner ++ [closing]) .loose :=
  (ReadsTokens.mark isOpening readsInner).append
    (Reads.toLoose (ReadsTokens.mark isClosing (Reads.nil .closed)))

/-- A member whose value is read. -/
theorem ReadsTokens.member (spells : ∀ c, Spells c (spell c)) (name : String) {value : List Token}
    (readsValue : ReadsTokens .closed value .loose) :
    ReadsTokens .closed (.str (name.toList.map spell) :: .colon :: value) .loose :=
  (ReadsTokens.singleton (reads_str spells name.toList)).append (ReadsTokens.mark rfl readsValue)

mutual
/-- The compact text of a value is read as the tokens of the value. -/
theorem readsTokens_spelled (spells : ∀ c, Spells c (spell c)) : ∀ value : Json,
    (∀ number ∈ value.numbers, number.isKeptInteger) →
      ReadsTokens .closed (value.spelled spell).tokens .loose
  | .null, _ => .singleton reads_null
  | .bool value, _ => .singleton (reads_bool value)
  | .num value, integers => .singleton (reads_num (integers value (by simp [numbers])))
  | .str text, _ => .singleton (reads_str spells text.toList).toLoose
  | .arr items, integers => by
      rw [numbers] at integers
      exact (readsTokens_spelledItems spells items integers).enclosed rfl rfl
  | .obj members, integers => by
      rw [numbers] at integers
      exact (readsTokens_spelledMembers spells members integers).enclosed rfl rfl
theorem readsTokens_spelledItems (spells : ∀ c, Spells c (spell c)) : ∀ items : List Json,
    (∀ number ∈ numbersOfItems items, number.isKeptInteger) →
      ReadsTokens .closed (Tree.tokensOfItems (spelledItems spell items)) .loose
  | [], _ => (Reads.nil .closed).toLoose
  | [item], integers => by
      simp only [numbersOfItems, List.append_nil] at integers
      exact readsTokens_spelled spells item integers
  | item :: next :: rest, integers => by
      rw [numbersOfItems, List.forall_mem_append] at integers
      have first := readsTokens_spelled spells item integers.1
      have later := readsTokens_spelledItems spells (next :: rest) integers.2
      exact first.append (ReadsTokens.mark rfl later)
theorem readsTokens_spelledMembers (spells : ∀ c, Spells c (spell c)) :
    ∀ members : List (String × Json),
      (∀ number ∈ numbersOfMembers members, number.isKeptInteger) →
        ReadsTokens .closed (Tree.tokensOfMembers (spelledMembers spell members)) .loose
  | [], _ => (Reads.nil .closed).toLoose
  | [(name, value)], integers => by
      simp only [numbersOfMembers, List.append_nil] at integers
      exact (readsTokens_spelled spells value integers).member spells name
  | (name, value) :: next :: rest, integers => by
      rw [numbersOfMembers, List.forall_mem_append] at integers
      have first := (readsTokens_spelled spells value integers.1).member spells name
      have later := readsTokens_spelledMembers spells (next :: rest) integers.2
      exact first.append (ReadsTokens.mark rfl later)
end

/-! ## Indented texts -/

theorem tokensOfItems_cons (item : Json) (rest : List Json) :
    tokensOfItems (item :: rest) =
      item.tokens ++ rest.flatMap fun later => .comma :: later.tokens := by
  induction rest generalizing item with
  | nil => simp [tokensOfItems]
  | cons next rest inductionHypothesis =>
      rw [tokensOfItems, inductionHypothesis next, List.flatMap_cons]
      · rfl
      · simp

theorem tokensOfMembers_cons (name : String) (value : Json) (rest : List (String × Json)) :
    tokensOfMembers ((name, value) :: rest) =
      .ofText name :: .colon :: value.tokens ++
        rest.flatMap fun later => .comma :: .ofText later.1 :: .colon :: later.2.tokens := by
  induction rest generalizing name value with
  | nil => simp [tokensOfMembers]
  | cons next rest inductionHypothesis =>
      rw [tokensOfMembers, inductionHypothesis next.1 next.2, List.flatMap_cons]
      · rfl
      · simp

/-- Nothing between two marks. -/
theorem reads_empty (opening closing : Token) (isOpening : opening.isMark)
    (isClosing : closing.isMark) :
    Reads .closed (opening.chars ++ closing.chars) [opening, closing] .loose :=
  (reads_mark isOpening).ofLoose.append (reads_mark isClosing).ofLoose.toLoose

/-- Lines between two marks, a level deeper than the marks. -/
theorem reads_block (opening closing : Token) (isOpening : opening.isMark)
    (isClosing : closing.isMark) (level : Nat) {text : List Char} {tokens : List Token}
    (reads : Reads .closed text tokens .loose) :
    Reads .closed
      (opening.chars ++ (newLine (level + 1) ++ (text ++ (newLine level ++ closing.chars))))
      (opening :: (tokens ++ [closing])) .loose := by
  have ending : Reads .loose (newLine level ++ closing.chars) [closing] .loose :=
    (reads_newLine level).append (reads_mark isClosing).ofLoose.toLoose
  have lines := (reads_newLine (level + 1)).append (reads.append ending)
  exact (reads_mark isOpening).ofLoose.append lines.ofLoose

theorem reads_comma_newLine (level : Nat) : Reads .loose (',' :: newLine level) [.comma] .closed :=
  Reads.append (reads_mark (show Token.comma.isMark from rfl)) (reads_newLine level).ofLoose

/-- A member with a space behind its colon. -/
theorem reads_indentedMember (name : String) {text : List Char} {tokens : List Token}
    (reads : Reads .closed text tokens .loose) :
    Reads .closed ((Token.ofText name).chars ++ (':' :: ' ' :: text))
      (.ofText name :: .colon :: tokens) .loose := by
  have colon : Reads .closed [':'] [.colon] .closed :=
    (reads_mark (show Token.colon.isMark from rfl)).ofLoose
  have space : Reads .closed [' '] [] .closed :=
    (Reads.space (by decide) (by decide)).ofLoose
  exact (reads_str spells_ofChar name.toList).append (colon.append (space.append reads))

mutual
/-- The indented text of a value is read as the tokens of the value. -/
theorem reads_indentedChars : ∀ (value : Json) (level : Nat),
    (∀ number ∈ value.numbers, number.isKeptInteger) →
      Reads .closed (indentedChars level value) value.tokens .loose
  | .null, _, _ => reads_null
  | .bool value, _, _ => reads_bool value
  | .num value, _, integers => reads_num (integers value (by simp [numbers]))
  | .str text, _, _ => (reads_str spells_ofChar text.toList).toLoose
  | .arr [], _, _ => reads_empty .openList .closeList rfl rfl
  | .arr (item :: rest), level, integers => by
      rw [numbers, numbersOfItems, List.forall_mem_append] at integers
      have items := (reads_indentedChars item (level + 1) integers.1).append
        (reads_indentedItems rest (level + 1) integers.2)
      rw [tokens, tokensOfItems_cons]
      simpa [indentedChars, Token.chars] using reads_block .openList .closeList rfl rfl level items
  | .obj [], _, _ => reads_empty .openObject .closeObject rfl rfl
  | .obj ((name, value) :: rest), level, integers => by
      rw [numbers, numbersOfMembers, List.forall_mem_append] at integers
      have member := reads_indentedMember name (reads_indentedChars value (level + 1) integers.1)
      have members := member.append (reads_indentedMembers rest (level + 1) integers.2)
      rw [tokens, tokensOfMembers_cons]
      simpa [indentedChars, Token.chars] using reads_block .openObject .closeObject rfl rfl level members
/-- The items behind the first one. -/
theorem reads_indentedItems : ∀ (items : List Json) (level : Nat),
    (∀ number ∈ numbersOfItems items, number.isKeptInteger) →
      Reads .loose (indentedItems level items)
        (items.flatMap fun later => .comma :: later.tokens) .loose
  | [], _, _ => .nil .loose
  | item :: rest, level, integers => by
      rw [numbersOfItems, List.forall_mem_append] at integers
      have first := reads_comma_newLine level |>.append (reads_indentedChars item level integers.1)
      have later := first.append (reads_indentedItems rest level integers.2)
      simpa [indentedItems] using later
/-- The members behind the first one. -/
theorem reads_indentedMembers : ∀ (members : List (String × Json)) (level : Nat),
    (∀ number ∈ numbersOfMembers members, number.isKeptInteger) →
      Reads .loose (indentedMembers level members)
        (members.flatMap fun later => .comma :: .ofText later.1 :: .colon :: later.2.tokens) .loose
  | [], _, _ => .nil .loose
  | (name, value) :: rest, level, integers => by
      rw [numbersOfMembers, List.forall_mem_append] at integers
      have first := reads_comma_newLine level |>.append
        (reads_indentedMember name (reads_indentedChars value level integers.1))
      have later := first.append (reads_indentedMembers rest level integers.2)
      simpa [indentedMembers] using later
end

end SiteScript.Json

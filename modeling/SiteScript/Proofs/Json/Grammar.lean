import Mathlib.Data.List.Chain
import SiteScript.Proofs.Json.Numerals
import SiteScript.Proofs.Json.Scanning

/-!
# The grammar of JSON

A text says what a tree says if it is written with the tokens of the tree, between which blanks may
stand.  A token may be written in several ways only if it is a string, in which a character stands
for itself or is escaped.  Scanning and reading a text undo this: the text of a scan is always
that of the tokens read so far, and the tokens read so far are always those of the lists and
objects that are open.  So exactly the texts of a tree are read as that tree.
-/

namespace SiteScript.Json

open Text

/-! ## Strings -/

/-- The value of hexadecimal digits. -/
def hexValue? (digits : List Char) : Option Nat :=
  digits.foldlM (fun value c => (Hex.value? c).map fun digit => value * 0x10 + digit) 0

/-- How a piece of a string may be written. -/
inductive Piece.Writes : Piece → List Char → Prop
  /-- A character that stands for itself. -/
  | plain {c : Char} (notQuote : c ≠ '"') (notBackslash : c ≠ '\\') (visible : 0x20 ≤ c.toNat) :
    Writes (.char c) [c]
  /-- A character that is escaped by a letter. -/
  | letter {letter c : Char} (escapes : escapedBy? letter = some c) :
    Writes (.char c) ['\\', letter]
  /-- A unit that is escaped by its four digits. -/
  | unit {digits : List Char} {value : Nat} (four : digits.length = 4)
    (isValue : hexValue? digits = some value) : Writes (.unit value) ('\\' :: 'u' :: digits)

/-- How the pieces of a string may be written, one behind the other. -/
inductive Piece.WriteAll : List Piece → List Char → Prop
  | nil : WriteAll [] []
  | cons {piece : Piece} {pieces : List Piece} {text rest : List Char} (writes : piece.Writes text)
    (writeAll : WriteAll pieces rest) : WriteAll (piece :: pieces) (text ++ rest)

theorem Piece.WriteAll.append {first second : List Piece} {text rest : List Char}
    (writeAll : WriteAll first text) (writeRest : WriteAll second rest) :
    WriteAll (first ++ second) (text ++ rest) := by
  induction writeAll with
  | nil => exact writeRest
  | cons writes _ inductionHypothesis =>
      rw [List.append_assoc]
      exact .cons writes inductionHypothesis

theorem Piece.Writes.writeAll {piece : Piece} {text : List Char} (writes : piece.Writes text) :
    WriteAll [piece] text := by
  rw [← List.append_nil text]
  exact .cons writes .nil

/-! ## Tokens -/

/-- How a token may be written. -/
inductive Token.Writes : Token → List Char → Prop
  | mark {token : Token} (isMark : token.isMark) : Writes token token.chars
  | null : Writes .null (Token.chars .null)
  | bool (value : Bool) : Writes (.bool value) (Token.chars (.bool value))
  | num {literal : List Char} (isNumeral : Number.IsNumeral literal) : Writes (.num literal) literal
  | str {pieces : List Piece} {body : List Char} (writeAll : Piece.WriteAll pieces body) :
    Writes (.str pieces) ('"' :: body ++ ['"'])

/-- The texts of some tokens, in which blanks may stand in front of every token and at the end. -/
inductive Spaced : List Token → List Char → Prop
  | nil : Spaced [] []
  | blank {c : Char} {tokens : List Token} {rest : List Char} (isBlank : isSpace c)
    (spaced : Spaced tokens rest) : Spaced tokens (c :: rest)
  | token {token : Token} {tokens : List Token} {text rest : List Char}
    (writes : token.Writes text) (spaced : Spaced tokens rest) :
    Spaced (token :: tokens) (text ++ rest)

theorem Spaced.append {first second : List Token} {text rest : List Char}
    (spaced : Spaced first text) (spacedRest : Spaced second rest) :
    Spaced (first ++ second) (text ++ rest) := by
  induction spaced with
  | nil => exact spacedRest
  | blank isBlank _ inductionHypothesis => exact .blank isBlank inductionHypothesis
  | token writes _ inductionHypothesis =>
      rw [List.append_assoc]
      exact .token writes inductionHypothesis

theorem Token.Writes.spaced {token : Token} {text : List Char} (writes : token.Writes text) :
    Spaced [token] text := by
  rw [← List.append_nil text]
  exact .token writes .nil

/-! ## What has been scanned -/

/-- A scan stands behind a text. -/
inductive Scan.IsBehind : Scan → List Char → Prop
  | between {done : List Token} {text : List Char} (spaced : Spaced done.reverse text) :
    IsBehind ⟨.between, done⟩ text
  | number {done : List Token} {text read : List Char} (spaced : Spaced done.reverse text) :
    IsBehind ⟨.number read, done⟩ (text ++ read.reverse)
  | word {done : List Token} {text read : List Char} (spaced : Spaced done.reverse text) :
    IsBehind ⟨.word read, done⟩ (text ++ read.reverse)
  | string {done : List Token} {text body : List Char} {read : List Piece}
    (spaced : Spaced done.reverse text) (writeAll : Piece.WriteAll read.reverse body) :
    IsBehind ⟨.string read, done⟩ (text ++ '"' :: body)
  | escape {done : List Token} {text body : List Char} {read : List Piece}
    (spaced : Spaced done.reverse text) (writeAll : Piece.WriteAll read.reverse body) :
    IsBehind ⟨.escape read, done⟩ (text ++ '"' :: (body ++ ['\\']))
  | unit {done : List Token} {text body digits : List Char} {read : List Piece} {owed value : Nat}
    (spaced : Spaced done.reverse text) (writeAll : Piece.WriteAll read.reverse body)
    (four : digits.length + owed = 4) (positive : 0 < owed)
    (isValue : hexValue? digits = some value) :
    IsBehind ⟨.unit read owed value, done⟩ (text ++ '"' :: (body ++ '\\' :: 'u' :: digits))

namespace Scan

/-- The scan behind one more token. -/
theorem IsBehind.push {done : List Token} {token : Token} {text chars : List Char}
    (spaced : Spaced done.reverse text) (writes : token.Writes chars) :
    IsBehind ⟨.between, token :: done⟩ (text ++ chars) := by
  have spacedToken := spaced.append writes.spaced
  rw [← List.reverse_cons] at spacedToken
  exact .between spacedToken

theorem writes_of_markToken? {c : Char} {token : Token} (isMark : markToken? c = some token) :
    token.Writes [c] := by
  have ofEqual : ∀ {mark : Char} {other : Token}, c = mark → some other = some token →
      other.isMark → other.chars = [mark] → token.Writes [c] := by
    rintro mark other rfl equal isMark chars
    rw [← Option.some.inj equal, ← chars]
    exact .mark isMark
  rw [markToken?] at isMark
  split at isMark
  · exact ofEqual ‹_› isMark rfl rfl
  split at isMark
  · exact ofEqual ‹_› isMark rfl rfl
  split at isMark
  · exact ofEqual ‹_› isMark rfl rfl
  split at isMark
  · exact ofEqual ‹_› isMark rfl rfl
  split at isMark
  · exact ofEqual ‹_› isMark rfl rfl
  split at isMark
  · exact ofEqual ‹_› isMark rfl rfl
  · cases isMark

theorem isBehind_of_begin? {done : List Token} {text : List Char}
    (spaced : Spaced done.reverse text) {c : Char} {next : Scan}
    (begins : begin? ⟨.between, done⟩ c = some next) : next.IsBehind (text ++ [c]) := by
  rw [begin?] at begins
  split at begins
  · rename_i isBlank
    cases begins
    have spacedBlank := spaced.append (.blank isBlank .nil)
    rw [List.append_nil] at spacedBlank
    exact .between spacedBlank
  split at begins
  · rename_i isQuote
    cases begins
    rw [isQuote]
    exact .string spaced .nil
  split at begins
  · cases begins
    exact .number spaced
  split at begins
  · cases begins
    exact .word spaced
  · obtain ⟨token, isMark, equal⟩ := Option.map_eq_some_iff.mp begins
    cases equal
    exact .push spaced (writes_of_markToken? isMark)

theorem writes_of_wordToken? {read : List Char} {token : Token}
    (isWord : wordToken? read = some token) : token.Writes read.reverse := by
  rw [wordToken?] at isWord
  split at isWord
  · rename_i isNull
    cases isWord
    rw [isNull]
    exact .null
  split at isWord
  · rename_i isTrue
    cases isWord
    rw [isTrue]
    exact .bool true
  split at isWord
  · rename_i isFalse
    cases isWord
    rw [isFalse]
    exact .bool false
  · cases isWord

/-- A number or a word that is over is a token. -/
theorem IsBehind.close {scan next : Scan} {text : List Char} (isBehind : scan.IsBehind text)
    (closes : scan.close? = some next) : next.IsBehind text := by
  cases isBehind with
  | number spaced =>
      obtain ⟨literal, isLiteral, equal⟩ := Option.map_eq_some_iff.mp closes
      cases equal
      exact .push spaced (.num (Number.isSome_literal?_iff.mp (Option.isSome_of_eq_some isLiteral)))
  | word spaced =>
      obtain ⟨token, isWord, equal⟩ := Option.map_eq_some_iff.mp closes
      cases equal
      exact .push spaced (writes_of_wordToken? isWord)
  | between spaced =>
      cases closes
      exact .between spaced
  | string spaced writeAll =>
      cases closes
      exact .string spaced writeAll
  | escape spaced writeAll =>
      cases closes
      exact .escape spaced writeAll
  | unit spaced writeAll four positive isValue =>
      cases closes
      exact .unit spaced writeAll four positive isValue

theorem hexValue?_append_singleton {digits : List Char} {value : Nat}
    (isValue : hexValue? digits = some value) {c : Char} {digit : Nat}
    (isDigit : Hex.value? c = some digit) :
    hexValue? (digits ++ [c]) = some (value * 0x10 + digit) := by
  rw [hexValue?] at isValue ⊢
  rw [List.foldlM_append, isValue]
  simp [isDigit]

/-- Reading a character keeps a scan behind what has been read. -/
theorem IsBehind.step {scan next : Scan} {text : List Char} (isBehind : scan.IsBehind text)
    {c : Char} (steps : scan.step? c = some next) : next.IsBehind (text ++ [c]) := by
  cases isBehind with
  | between spaced => exact isBehind_of_begin? spaced steps
  | @number done text read spaced =>
      simp only [step?] at steps
      split at steps
      · cases steps
        rw [List.append_assoc, ← List.reverse_cons]
        exact .number spaced
      · obtain ⟨closed, closes, begins⟩ := Option.bind_eq_some_iff.mp steps
        have isClosed := (IsBehind.number spaced).close closes
        obtain ⟨literal, -, rfl⟩ := Option.map_eq_some_iff.mp closes
        cases isClosed with
        | between spaced => exact isBehind_of_begin? spaced begins
  | @word done text read spaced =>
      simp only [step?] at steps
      split at steps
      · cases steps
        rw [List.append_assoc, ← List.reverse_cons]
        exact .word spaced
      · obtain ⟨closed, closes, begins⟩ := Option.bind_eq_some_iff.mp steps
        have isClosed := (IsBehind.word spaced).close closes
        obtain ⟨token, -, rfl⟩ := Option.map_eq_some_iff.mp closes
        cases isClosed with
        | between spaced => exact isBehind_of_begin? spaced begins
  | @string done text body read spaced writeAll =>
      simp only [step?] at steps
      rw [List.append_assoc, List.cons_append]
      split at steps
      · rename_i isQuote
        cases steps
        rw [isQuote]
        exact .push spaced (.str writeAll)
      split at steps
      · rename_i isBackslash
        cases steps
        rw [isBackslash]
        exact .escape spaced writeAll
      split at steps
      · cases steps
      · rename_i notQuote notBackslash visible
        cases steps
        have writesChar := Piece.Writes.plain notQuote notBackslash (Nat.le_of_not_lt visible)
        exact .string spaced (by simpa using writeAll.append writesChar.writeAll)
  | @escape done text body read spaced writeAll =>
      simp only [step?] at steps
      rw [List.append_assoc, List.cons_append, List.append_assoc]
      split at steps
      · rename_i isUnit
        cases steps
        rw [isUnit]
        exact .unit spaced writeAll rfl (by decide) rfl
      · obtain ⟨meant, escapes, rfl⟩ := Option.map_eq_some_iff.mp steps
        have writesChar := Piece.Writes.letter escapes
        exact .string spaced (by simpa using writeAll.append writesChar.writeAll)
  | @unit done text body digits read owed value spaced writeAll four positive isValue =>
      simp only [step?] at steps
      rw [List.append_assoc, List.cons_append, List.append_assoc, List.cons_append,
        List.cons_append]
      obtain ⟨digit, isDigit, equal⟩ := Option.map_eq_some_iff.mp steps
      have isLonger := hexValue?_append_singleton isValue isDigit
      split at equal
      · rename_i last
        cases equal
        have fourDigits : (digits ++ [c]).length = 4 := by
          rw [List.length_append, List.length_singleton]
          omega
        have writesUnit := Piece.Writes.unit fourDigits isLonger
        exact .string spaced (by simpa using writeAll.append writesUnit.writeAll)
      · rename_i notLast
        cases equal
        refine .unit spaced writeAll ?_ (by omega) isLonger
        rw [List.length_append, List.length_singleton]
        omega

/-- A scan stands behind the text that it has read. -/
theorem IsBehind.foldlM {scan next : Scan} {text : List Char} (isBehind : scan.IsBehind text)
    {more : List Char} (steps : more.foldlM step? scan = some next) :
    next.IsBehind (text ++ more) := by
  induction more generalizing scan text with
  | nil =>
      cases steps
      rwa [List.append_nil]
  | cons c rest inductionHypothesis =>
      rw [List.foldlM_cons] at steps
      obtain ⟨middle, step, steps⟩ := Option.bind_eq_some_iff.mp steps
      have isBehindRest := inductionHypothesis (isBehind.step step) steps
      rwa [List.append_assoc] at isBehindRest

theorem IsBehind.finish {scan : Scan} {text : List Char} (isBehind : scan.IsBehind text)
    {tokens : List Token} (finishes : scan.finish? = some tokens) : Spaced tokens text := by
  obtain ⟨closed, closes, ends⟩ := Option.bind_eq_some_iff.mp finishes
  have isClosed := isBehind.close closes
  cases isClosed with
  | between spaced =>
      cases ends
      exact spaced
  | _ => cases ends

end Scan

/-- A text is that of the tokens that are scanned in it. -/
theorem spaced_of_scan? {text : List Char} {tokens : List Token}
    (isScanned : scan? text = some tokens) : Spaced tokens text := by
  obtain ⟨scan, steps, finishes⟩ := Option.bind_eq_some_iff.mp isScanned
  have started : Scan.IsBehind ⟨.between, []⟩ [] := .between .nil
  exact (started.foldlM steps).finish finishes

/-! ## Texts are scanned -/

/-- Digits of a unit are read to the last one. -/
theorem foldlM_hexDigits {digits : List Char} {read : List Piece} {done : List Token}
    {owed value result : Nat} (isResult : digits.foldlM
      (fun value c => (Hex.value? c).map fun digit => value * 0x10 + digit) value = some result)
    (length : digits.length = owed) (positive : 0 < owed) :
    digits.foldlM Scan.step? ⟨.unit read owed value, done⟩ =
      some ⟨.string (.unit result :: read), done⟩ := by
  induction digits generalizing owed value with
  | nil => exact absurd length (Nat.ne_of_lt positive)
  | cons c rest inductionHypothesis =>
      rw [List.foldlM_cons] at isResult ⊢
      obtain ⟨next, isNext, isResult⟩ := Option.bind_eq_some_iff.mp isResult
      obtain ⟨digit, isDigit, rfl⟩ := Option.map_eq_some_iff.mp isNext
      rw [List.length_cons] at length
      by_cases isLast : owed ≤ 1
      · have noneLeft : rest = [] := List.eq_nil_of_length_eq_zero (by omega)
        subst noneLeft
        cases isResult
        simp [Scan.step?, isDigit, isLast]
      · have restRead := inductionHypothesis isResult
          (show rest.length = owed - 1 by omega) (by omega)
        simpa [Scan.step?, isDigit, isLast] using restRead

/-- A piece is read, however it is written. -/
theorem Piece.Writes.foldlM {piece : Piece} {text : List Char} (writes : piece.Writes text)
    (read : List Piece) (done : List Token) :
    text.foldlM Scan.step? ⟨.string read, done⟩ = some ⟨.string (piece :: read), done⟩ := by
  cases writes with
  | plain notQuote notBackslash visible =>
      simp [Scan.step?, notQuote, notBackslash, Nat.not_lt.mpr visible]
  | @letter letter c escapes =>
      have notUnit : letter ≠ 'u' := by
        rintro rfl
        cases escapes
      simp [Scan.step?, notUnit, escapes]
  | unit four isValue => exact foldlM_hexDigits isValue four (by decide)

theorem Piece.WriteAll.foldlM {pieces : List Piece} {text : List Char}
    (writeAll : WriteAll pieces text) (read : List Piece) (done : List Token) :
    text.foldlM Scan.step? ⟨.string read, done⟩ =
      some ⟨.string (pieces.reverse ++ read), done⟩ := by
  induction writeAll generalizing read with
  | nil => rfl
  | cons writes _ inductionHypothesis =>
      rw [List.foldlM_append, writes.foldlM, Option.bind_eq_bind, Option.bind_some,
        inductionHypothesis]
      simp

/-- A token is read, however it is written. -/
theorem Token.Writes.reads {token : Token} {text : List Char} (writes : token.Writes text) :
    Reads .closed text [token] .loose := by
  cases writes with
  | mark isMark => exact (reads_mark isMark).ofLoose.toLoose
  | null => exact reads_null
  | bool value => exact reads_bool value
  | num isNumeral =>
      have isLiteral := Number.isSome_literal?_iff.mpr isNumeral
      obtain ⟨first, rest, rfl, begins, areNumberChars⟩ := isNumeral.exists_eq_cons
      exact reads_literal begins areNumberChars isLiteral
  | @str pieces body writeAll =>
      rintro done scan rfl
      have opened : Scan.step? ⟨.between, done⟩ '"' = some ⟨.string [], done⟩ := by
        simp [Scan.step?, Scan.begin?, isSpace]
      have ended : Scan.step? ⟨.string (pieces.reverse ++ []), done⟩ '"' =
          some ⟨.between, .str pieces :: done⟩ := by
        simp [Scan.step?]
      refine ⟨⟨.between, .str pieces :: done⟩, ?_, @Behind.loose _ .closed _ rfl⟩
      rw [List.cons_append, List.foldlM_cons, opened, Option.bind_eq_bind, Option.bind_some,
        List.foldlM_append, writeAll.foldlM, Option.bind_eq_bind, Option.bind_some,
        List.foldlM_cons, ended]
      rfl

theorem separates_of_isSpace {c : Char} (isBlank : isSpace c) : separates c := by
  simp only [isSpace, Bool.or_eq_true, beq_iff_eq] at isBlank
  rcases isBlank with ((rfl | rfl) | rfl) | rfl <;> decide

/-- Of two neighbouring tokens one is a mark, so that they need no blank between them. -/
def AreApart (tokens : List Token) : Prop :=
  tokens.IsChain fun token next => token.isMark ∨ next.isMark

/-- Tokens are read one after the other.  Behind a number or a word, which may go on, a blank or a
mark comes next. -/
theorem Spaced.reads {tokens : List Token} {text : List Char} (spaced : Spaced tokens text)
    (apart : AreApart tokens) :
    Reads .closed text tokens .loose ∧
      ((∀ first ∈ tokens.head?, first.isMark) → Reads .loose text tokens .loose) := by
  induction spaced with
  | nil => exact ⟨(Reads.nil .closed).toLoose, fun _ => .nil .loose⟩
  | blank isBlank _ inductionHypothesis =>
      have reads := (Reads.space isBlank (separates_of_isSpace isBlank)).append
        (inductionHypothesis apart).1
      exact ⟨reads.ofLoose, fun _ => reads⟩
  | @token token tokens text rest writes _ inductionHypothesis =>
      obtain ⟨nextApart, restApart⟩ := List.isChain_cons.mp apart
      obtain ⟨readsClosed, readsLoose⟩ := inductionHypothesis restApart
      cases isMark : token.isMark with
      | true =>
          have textEq : text = token.chars := by
            cases writes with
            | mark => rfl
            | _ => cases isMark
          have reads : Reads .loose (text ++ rest) (token :: tokens) .loose := by
            rw [textEq]
            exact (reads_mark isMark).append readsClosed
          exact ⟨reads.ofLoose, fun _ => reads⟩
      | false =>
          have restReads := readsLoose fun next isNext =>
            (nextApart next isNext).resolve_left (by simp [isMark])
          refine ⟨writes.reads.append restReads, fun firstIsMark => ?_⟩
          exact absurd (firstIsMark token rfl) (by simp [isMark])

/-! ## Tokens of trees -/

theorem AreApart.mark_cons {token : Token} {rest : List Token} (isMark : token.isMark)
    (apart : AreApart rest) : AreApart (token :: rest) :=
  List.isChain_cons.mpr ⟨fun _ _ => Or.inl isMark, apart⟩

theorem AreApart.append_mark {first rest : List Token} (apart : AreApart first) {token : Token}
    (isMark : token.isMark) (restApart : AreApart rest) : AreApart (first ++ token :: rest) := by
  refine List.isChain_append.mpr ⟨apart, restApart.mark_cons isMark, fun _ _ next isNext => ?_⟩
  rw [← Option.mem_some.mp isNext]
  exact Or.inr isMark

theorem AreApart.member {tokens : List Token} (apart : AreApart tokens) (name : List Piece) :
    AreApart (.str name :: .colon :: tokens) :=
  AreApart.append_mark (List.isChain_singleton _) rfl apart

mutual
/-- The tokens of a tree need no blanks between them. -/
theorem Tree.areApart_tokens : ∀ tree : Tree, AreApart tree.tokens
  | .null | .bool _ | .num _ | .str _ => List.isChain_singleton _
  | .arr items => ((areApart_tokensOfItems items).append_mark rfl .nil).mark_cons rfl
  | .obj members => ((areApart_tokensOfMembers members).append_mark rfl .nil).mark_cons rfl
theorem Tree.areApart_tokensOfItems : ∀ items : List Tree, AreApart (tokensOfItems items)
  | [] => .nil
  | [item] => item.areApart_tokens
  | item :: next :: rest =>
    item.areApart_tokens.append_mark rfl (areApart_tokensOfItems (next :: rest))
theorem Tree.areApart_tokensOfMembers : ∀ members : List (List Piece × Tree),
    AreApart (tokensOfMembers members)
  | [] => .nil
  | [(name, tree)] => tree.areApart_tokens.member name
  | (name, tree) :: next :: rest =>
    (tree.areApart_tokens.member name).append_mark rfl (areApart_tokensOfMembers (next :: rest))
end

/-! ## What has been read -/

/-- The tokens of items, each with a comma behind it. -/
def itemTokens (items : List Tree) : List Token :=
  items.flatMap fun item => item.tokens ++ [.comma]

/-- The tokens of members, each with a comma behind it. -/
def memberTokens (members : List (List Piece × Tree)) : List Token :=
  members.flatMap fun member => .str member.1 :: .colon :: member.2.tokens ++ [.comma]

/-- The tokens that have been read of an open list or object. -/
def Frame.tokens : Frame → List Token
  | .list items => .openList :: itemTokens items.reverse
  | .object members name => .openObject :: memberTokens members.reverse ++ [.str name, .colon]

/-- The tokens that have been read of the open lists and objects, of which the innermost one is
first. -/
def openTokens (openFrames : List Frame) : List Token :=
  openFrames.reverse.flatMap Frame.tokens

/-- The tokens behind which something is expected. -/
def Expectation.tokens : Expectation → List Token
  | .value openFrames => openTokens openFrames
  | .firstItem openFrames => openTokens openFrames ++ [.openList]
  | .firstMember openFrames => openTokens openFrames ++ [.openObject]
  | .name members openFrames =>
    openTokens openFrames ++ .openObject :: memberTokens members.reverse
  | .colon members label openFrames =>
    openTokens openFrames ++ .openObject :: memberTokens members.reverse ++ [.str label]
  | .after tree openFrames => openTokens openFrames ++ tree.tokens

theorem openTokens_cons (frame : Frame) (outer : List Frame) :
    openTokens (frame :: outer) = openTokens outer ++ frame.tokens := by
  simp [openTokens]

/-- The tokens of a list are those of its items, with a comma behind each one but the last. -/
theorem tokensOfItems_append (items : List Tree) (tree : Tree) :
    Tree.tokensOfItems (items ++ [tree]) = itemTokens items ++ tree.tokens := by
  induction items with
  | nil => rfl
  | cons item rest inductionHypothesis =>
      have notEmpty : rest ++ [tree] ≠ [] := by simp
      rw [List.cons_append, Tree.tokensOfItems, inductionHypothesis, itemTokens, itemTokens]
      · simp
      · exact notEmpty

theorem tokensOfMembers_append (members : List (List Piece × Tree)) (name : List Piece)
    (tree : Tree) :
    Tree.tokensOfMembers (members ++ [(name, tree)]) =
      memberTokens members ++ .str name :: .colon :: tree.tokens := by
  induction members with
  | nil => rfl
  | cons member rest inductionHypothesis =>
      obtain ⟨other, otherTree⟩ := member
      have notEmpty : rest ++ [(name, tree)] ≠ [] := by simp
      rw [List.cons_append, Tree.tokensOfMembers, inductionHypothesis, memberTokens, memberTokens]
      · simp
      · exact notEmpty

theorem tokens_of_beginValue? {openFrames : List Frame} {token : Token} {next : Expectation}
    (begins : beginValue? openFrames token = some next) :
    next.tokens = openTokens openFrames ++ [token] := by
  cases token <;> cases begins <;> rfl

/-- Reading a token adds it to the tokens that have been read. -/
theorem tokens_of_expectNext? {expected next : Expectation} {token : Token}
    (reads : expectNext? expected token = some next) :
    next.tokens = expected.tokens ++ [token] := by
  unfold expectNext? at reads
  split at reads
  case h_1 => exact tokens_of_beginValue? reads
  case h_3 =>
    rw [tokens_of_beginValue? reads, openTokens_cons]
    rfl
  case h_12 => cases reads
  all_goals
    cases reads
    simp [Expectation.tokens, Tree.tokens, Tree.tokensOfItems, Tree.tokensOfMembers, Frame.tokens,
      openTokens_cons, itemTokens, memberTokens, tokensOfItems_append, tokensOfMembers_append]

theorem tokens_of_foldlM {expected next : Expectation} {tokens : List Token}
    (reads : tokens.foldlM expectNext? expected = some next) :
    next.tokens = expected.tokens ++ tokens := by
  induction tokens generalizing expected with
  | nil =>
      cases reads
      exact (List.append_nil _).symm
  | cons token rest inductionHypothesis =>
      rw [List.foldlM_cons] at reads
      obtain ⟨middle, readsToken, reads⟩ := Option.bind_eq_some_iff.mp reads
      rw [inductionHypothesis reads, tokens_of_expectNext? readsToken, List.append_assoc,
        List.singleton_append]

/-- Exactly the tokens of a tree are read as that tree. -/
theorem ofTokens?_eq_some_iff {tokens : List Token} {tree : Tree} :
    ofTokens? tokens = some tree ↔ tokens = tree.tokens := by
  constructor
  · intro isRead
    obtain ⟨expected, reads, completes⟩ := Option.bind_eq_some_iff.mp isRead
    have tokensEq := tokens_of_foldlM reads
    unfold complete? at completes
    split at completes
    · cases completes
      exact tokensEq.symm
    · cases completes
  · rintro rfl
    exact ofTokens?_tokens tree

/-! ## Texts of trees and values -/

/-- The texts that say what a tree says. -/
def Tree.IsTextOf (tree : Tree) (text : List Char) : Prop :=
  Spaced tree.tokens text

/-- Exactly the texts of a tree are read as that tree. -/
theorem tree?_eq_some_iff {text : List Char} {tree : Tree} :
    tree? text = some tree ↔ tree.IsTextOf text := by
  constructor
  · intro isRead
    obtain ⟨tokens, isScanned, isTree⟩ := Option.bind_eq_some_iff.mp isRead
    obtain rfl := ofTokens?_eq_some_iff.mp isTree
    exact spaced_of_scan? isScanned
  · intro isText
    rw [tree?, scan?_of_reads (isText.reads tree.areApart_tokens).1, Option.bind_some,
      ofTokens?_tokens]

/-- The strict JSON texts of a value.  What such a text says has numbers within their range,
strings of whole characters, and at most so many lists and objects nested as the limit allows; of
members with the same name the last value counts, in the first place. -/
def IsTextOf (value : Json) (text : String) : Prop :=
  ∃ tree written, Tree.IsTextOf tree text.toList ∧ tree.value? depthLimit = some written ∧
    value = written.merged

/-- A value that has a text names each member once. -/
theorem IsTextOf.isDistinct {value : Json} {text : String} (isText : value.IsTextOf text) :
    value.isDistinct := by
  obtain ⟨tree, written, -, -, rfl⟩ := isText
  exact written.isDistinct_merged

/-- Exactly the strict JSON texts of a value are read as that value. -/
theorem parse?_eq_some_iff {text : String} {value : Json} :
    parse? text = some value ↔ value.IsTextOf text := by
  constructor
  · intro isRead
    obtain ⟨written, isWritten, rfl⟩ := Option.map_eq_some_iff.mp isRead
    obtain ⟨tree, isTree, isValue⟩ := Option.bind_eq_some_iff.mp isWritten
    exact ⟨tree, written, tree?_eq_some_iff.mp isTree, isValue, rfl⟩
  · rintro ⟨tree, written, isText, isValue, rfl⟩
    rw [parse?, parseWritten?, parseWithin?, tree?_eq_some_iff.mpr isText, Option.bind_some, isValue,
      Option.map_some]

end SiteScript.Json

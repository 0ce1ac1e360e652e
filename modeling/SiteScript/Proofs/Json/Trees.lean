import SiteScript.Json.Parser
import SiteScript.Proofs.Json.Exact
import SiteScript.Proofs.Json.Spelling

/-!
# Trees are read back

The tokens of a tree are read as that tree: behind the tokens of a part the reader stands
where it stood before them, with the part as the tree that is complete.  The tree as which
a value is written has that value, however the characters in it are spelled.
-/

namespace SiteScript.Json

/-! ## Written trees -/

mutual
/-- The tree as which a value is written if characters are written as the pieces that `spell`
gives. -/
def spelled (spell : Char → Piece) : Json → Tree
  | .null => .null
  | .bool value => .bool value
  | .num value => .num value.chars
  | .str text => .str (text.toList.map spell)
  | .arr items => .arr (spelledItems spell items)
  | .obj members => .obj (spelledMembers spell members)
/-- The written items of a list. -/
def spelledItems (spell : Char → Piece) : List Json → List Tree
  | [] => []
  | item :: rest => item.spelled spell :: spelledItems spell rest
/-- The written members of an object. -/
def spelledMembers (spell : Char → Piece) : List (String × Json) → List (List Piece × Tree)
  | [] => []
  | (name, value) :: rest =>
    (name.toList.map spell, value.spelled spell) :: spelledMembers spell rest
end

namespace Tree

mutual
/-- The tokens of a tree. -/
def tokens : Tree → List Token
  | .null => [.null]
  | .bool value => [.bool value]
  | .num literal => [.num literal]
  | .str pieces => [.str pieces]
  | .arr items => .openList :: tokensOfItems items ++ [.closeList]
  | .obj members => .openObject :: tokensOfMembers members ++ [.closeObject]
/-- The tokens of the items of a list, with commas between them. -/
def tokensOfItems : List Tree → List Token
  | [] => []
  | [item] => item.tokens
  | item :: rest => item.tokens ++ .comma :: tokensOfItems rest
/-- The tokens of the members of an object, with commas between them. -/
def tokensOfMembers : List (List Piece × Tree) → List Token
  | [] => []
  | [(name, tree)] => .str name :: .colon :: tree.tokens
  | (name, tree) :: rest => .str name :: .colon :: tree.tokens ++ .comma :: tokensOfMembers rest
end

end Tree

mutual
/-- The tokens of a value are those of the tree in which its characters are spelled as usual. -/
theorem tokens_spelled : ∀ value : Json, (value.spelled Piece.ofChar).tokens = value.tokens
  | .null | .bool _ | .num _ | .str _ => rfl
  | .arr items => by
      rw [spelled, Tree.tokens, tokens, tokensOfItems_spelledItems items]
  | .obj members => by
      rw [spelled, Tree.tokens, tokens, tokensOfMembers_spelledMembers members]
theorem tokensOfItems_spelledItems : ∀ items : List Json,
    Tree.tokensOfItems (spelledItems Piece.ofChar items) = tokensOfItems items
  | [] => rfl
  | [item] => tokens_spelled item
  | item :: next :: rest => by
      have later := tokensOfItems_spelledItems (next :: rest)
      rw [spelledItems] at later
      rw [spelledItems, spelledItems, Tree.tokensOfItems, tokensOfItems, tokens_spelled item, later]
      · simp
      · simp
theorem tokensOfMembers_spelledMembers : ∀ members : List (String × Json),
    Tree.tokensOfMembers (spelledMembers Piece.ofChar members) = tokensOfMembers members
  | [] => rfl
  | [(_, value)] => by
      rw [spelledMembers, spelledMembers, Tree.tokensOfMembers, tokensOfMembers, tokens_spelled value]
      rfl
  | (name, value) :: next :: rest => by
      have later := tokensOfMembers_spelledMembers (next :: rest)
      rw [spelledMembers] at later
      rw [spelledMembers, spelledMembers, Tree.tokensOfMembers, tokensOfMembers,
        tokens_spelled value, later]
      · rfl
      · simp
      · simp
end

/-! ## Reading tokens -/

/-- The tokens of a tree do not begin with the end of a list. -/
theorem Tree.exists_tokens_eq_cons (tree : Tree) :
    ∃ first more, tree.tokens = first :: more ∧ first ≠ .closeList := by
  cases tree <;> exact ⟨_, _, rfl, by simp⟩

theorem Tree.exists_tokensOfItems_eq_cons (item : Tree) (rest : List Tree) :
    ∃ first more, tokensOfItems (item :: rest) = first :: more ∧ first ≠ .closeList := by
  obtain ⟨first, more, tokensEq, isItem⟩ := item.exists_tokens_eq_cons
  cases rest with
  | nil => exact ⟨first, more, tokensEq, isItem⟩
  | cons next rest =>
      refine ⟨first, more ++ .comma :: tokensOfItems (next :: rest), ?_, isItem⟩
      rw [tokensOfItems, tokensEq, List.cons_append]
      simp

theorem Tree.exists_tokensOfMembers_eq_cons (name : List Piece) (tree : Tree)
    (rest : List (List Piece × Tree)) :
    ∃ more, tokensOfMembers ((name, tree) :: rest) = .str name :: .colon :: tree.tokens ++ more := by
  cases rest with
  | nil => exact ⟨[], by simp [tokensOfMembers]⟩
  | cons next rest =>
      refine ⟨.comma :: tokensOfMembers (next :: rest), ?_⟩
      rw [tokensOfMembers]
      simp

/-- An item that begins a list is read like any other item. -/
theorem expectNext?_firstItem {first : Token} (isItem : first ≠ .closeList) (outer : List Frame) :
    expectNext? (.firstItem outer) first = expectNext? (.value (.list [] :: outer)) first := by
  cases first <;> first | rfl | exact absurd rfl isItem

/-- A member is read if its value is. -/
theorem foldlM_member {tree : Tree}
    (value : ∀ outer, tree.tokens.foldlM expectNext? (.value outer) = some (.after tree outer))
    (name : List Piece) (read : List (List Piece × Tree)) (outer : List Frame) :
    (Token.str name :: .colon :: tree.tokens).foldlM expectNext? (.name read outer) =
      some (.after tree (.object read name :: outer)) :=
  value (.object read name :: outer)

mutual
/-- The tokens of a tree are read as that tree, whatever is open around it. -/
theorem foldlM_tokens : ∀ (tree : Tree) (outer : List Frame),
    tree.tokens.foldlM expectNext? (.value outer) = some (.after tree outer)
  | .null, _ | .bool _, _ | .num _, _ | .str _, _ => rfl
  | .arr [], _ | .obj [], _ => rfl
  | .arr (item :: rest), outer => by
      obtain ⟨first, more, tokensEq, isItem⟩ := Tree.exists_tokensOfItems_eq_cons item rest
      have items := foldlM_tokensOfItems (item :: rest) (by simp) [] outer
      rw [tokensEq, List.cons_append, List.foldlM_cons, ← expectNext?_firstItem isItem,
        ← List.foldlM_cons, ← List.cons_append, ← tokensEq] at items
      rw [Tree.tokens, List.cons_append, List.foldlM_cons]
      exact items
  | .obj ((name, tree) :: rest), outer => by
      have members := foldlM_tokensOfMembers ((name, tree) :: rest) (by simp) [] outer
      obtain ⟨more, tokensEq⟩ := Tree.exists_tokensOfMembers_eq_cons name tree rest
      rw [tokensEq] at members
      rw [Tree.tokens, tokensEq]
      exact members
/-- Items behind those that have been read, and the end of their list. -/
theorem foldlM_tokensOfItems : ∀ (items : List Tree), items ≠ [] →
    ∀ (read : List Tree) (outer : List Frame),
      (Tree.tokensOfItems items ++ [Token.closeList]).foldlM expectNext? (.value (.list read :: outer)) =
        some (.after (.arr (read.reverse ++ items)) outer)
  | [], notEmpty, _, _ => absurd rfl notEmpty
  | [item], _, read, outer => by
      rw [Tree.tokensOfItems, List.foldlM_append, foldlM_tokens item]
      simp [expectNext?]
  | item :: next :: rest, _, read, outer => by
      have later := foldlM_tokensOfItems (next :: rest) (by simp) (item :: read) outer
      rw [Tree.tokensOfItems, List.append_assoc, List.foldlM_append, foldlM_tokens item]
      · simpa [expectNext?] using later
      · simp
/-- Members behind those that have been read, and the end of their object. -/
theorem foldlM_tokensOfMembers : ∀ (members : List (List Piece × Tree)), members ≠ [] →
    ∀ (read : List (List Piece × Tree)) (outer : List Frame),
      (Tree.tokensOfMembers members ++ [Token.closeObject]).foldlM expectNext? (.name read outer) =
        some (.after (.obj (read.reverse ++ members)) outer)
  | [], notEmpty, _, _ => absurd rfl notEmpty
  | [(name, tree)], _, read, outer => by
      have member := foldlM_member (foldlM_tokens tree) name read outer
      rw [Tree.tokensOfMembers, List.foldlM_append, member]
      simp [expectNext?]
  | (name, tree) :: next :: rest, _, read, outer => by
      have member := foldlM_member (foldlM_tokens tree) name read outer
      have later := foldlM_tokensOfMembers (next :: rest) (by simp) ((name, tree) :: read) outer
      rw [Tree.tokensOfMembers, List.append_assoc, List.foldlM_append, member]
      · simpa [expectNext?] using later
      · simp
end

/-- A tree is read back from its tokens. -/
theorem ofTokens?_tokens (tree : Tree) : ofTokens? tree.tokens = some tree := by
  rw [ofTokens?, foldlM_tokens]
  rfl

/-! ## Values of written trees -/

section Values

variable {spell : Char → Piece}

mutual
/-- The tree as which a value is written has that value. -/
theorem value?_spelled (spells : ∀ c, Spells c (spell c)) : ∀ (value : Json) {limit : Nat},
    (∀ number ∈ value.numbers, number.isKeptInteger) → value.depth ≤ limit →
      (value.spelled spell).value? limit = some value
  | .null, _, _, _ | .bool _, _, _, _ => rfl
  | .num value, _, integers, _ => by
      rw [spelled, Tree.value?, Number.ofChars?_chars (integers value (by simp [numbers]))]
      rfl
  | .str text, _, _, _ => by
      rw [spelled, Tree.value?, text?_map spells]
      rfl
  | .arr items, limit, integers, shallow => by
      rw [numbers] at integers
      rw [depth] at shallow
      rw [spelled, Tree.value?, if_neg (by omega),
        itemValues?_spelledItems spells items integers (by omega)]
      rfl
  | .obj members, limit, integers, shallow => by
      rw [numbers] at integers
      rw [depth] at shallow
      rw [spelled, Tree.value?, if_neg (by omega),
        memberValues?_spelledMembers spells members integers (by omega)]
      rfl
theorem itemValues?_spelledItems (spells : ∀ c, Spells c (spell c)) :
    ∀ (items : List Json) {limit : Nat},
      (∀ number ∈ numbersOfItems items, number.isKeptInteger) → depthOfItems items ≤ limit →
        Tree.itemValues? limit (spelledItems spell items) = some items
  | [], _, _, _ => rfl
  | item :: rest, limit, integers, shallow => by
      rw [numbersOfItems, List.forall_mem_append] at integers
      rw [depthOfItems, Nat.max_le] at shallow
      rw [spelledItems, Tree.itemValues?, value?_spelled spells item integers.1 shallow.1,
        itemValues?_spelledItems spells rest integers.2 shallow.2]
      rfl
theorem memberValues?_spelledMembers (spells : ∀ c, Spells c (spell c)) :
    ∀ (members : List (String × Json)) {limit : Nat},
      (∀ number ∈ numbersOfMembers members, number.isKeptInteger) →
        depthOfMembers members ≤ limit →
          Tree.memberValues? limit (spelledMembers spell members) = some members
  | [], _, _, _ => rfl
  | (name, value) :: rest, limit, integers, shallow => by
      rw [numbersOfMembers, List.forall_mem_append] at integers
      rw [depthOfMembers, Nat.max_le] at shallow
      rw [spelledMembers, Tree.memberValues?, text?_map spells,
        value?_spelled spells value integers.1 shallow.1,
        memberValues?_spelledMembers spells rest integers.2 shallow.2]
      rfl
end

end Values

end SiteScript.Json

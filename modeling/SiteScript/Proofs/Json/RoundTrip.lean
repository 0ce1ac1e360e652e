import SiteScript.Proofs.Json.Scanning

/-!
# Values are read back

An exact value is read back from its compact text, from its indented text, and from any
other text in which its characters are spelled.
-/

namespace SiteScript.Json

variable {value : Json}

/-- A text that is read as the tokens of a written value has that value. -/
theorem parseWithin?_of_reads {spell : Char → Piece} (spells : ∀ c, Spells c (spell c))
    {text : List Char} (reads : Reads .closed text (value.spelled spell).tokens .loose)
    (integers : ∀ number ∈ value.numbers, number.isKeptInteger) {limit : Nat}
    (shallow : value.depth ≤ limit) : parseWithin? limit text = some value := by
  rw [parseWithin?, tree?, scan?_of_reads reads, Option.bind_some, ofTokens?_tokens,
    Option.bind_some, value?_spelled spells value integers shallow]

/-- An exact value is what the text with its tokens says. -/
theorem IsExact.parse?_of_reads (exact : value.IsExact) {spell : Char → Piece}
    (spells : ∀ c, Spells c (spell c)) {text : String}
    (reads : Reads .closed text.toList (value.spelled spell).tokens .loose) :
    parse? text = some value := by
  rw [parse?, parseWritten?, parseWithin?_of_reads spells reads exact.integers exact.shallow,
    Option.map_some, merged_eq_self exact.distinct]

/-- A text in which characters are spelled in any way is read back. -/
theorem IsExact.parse?_spelled (exact : value.IsExact) {spell : Char → Piece}
    (spells : ∀ c, Spells c (spell c)) : parse? (.ofList (spelledChars spell value)) = some value := by
  apply exact.parse?_of_reads spells
  rw [String.toList_ofList]
  exact readsTokens_spelled spells value exact.integers

/-- The compact text of a value is the one in which characters are spelled as usual. -/
theorem spelledChars_ofChar (value : Json) : spelledChars Piece.ofChar value = value.compactChars := by
  rw [spelledChars, tokens_spelled, compactChars]

/-- The compact text of an exact value is read back. -/
theorem IsExact.parse?_compact (exact : value.IsExact) : parse? value.compact = some value := by
  rw [compact, ← spelledChars_ofChar]
  exact exact.parse?_spelled spells_ofChar

/-- The indented text of an exact value is read back. -/
theorem IsExact.parse?_indented (exact : value.IsExact) : parse? value.indented = some value := by
  apply exact.parse?_of_reads spells_ofChar
  rw [indented, String.toList_ofList, tokens_spelled]
  exact reads_indentedChars value 0 exact.integers

end SiteScript.Json

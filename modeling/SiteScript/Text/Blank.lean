/-!
# Blank and control characters

The character classes on which everything textual in this library rests: the
blanks, which separate words, and the control characters, which no published
text may contain.  The two classes overlap only partly: U+0085 is both, U+001C
is only a control character, and U+00A0 is only a blank.
-/

namespace SiteScript.Text

/-- The blank characters: exactly those with the Unicode property `White_Space`. -/
def isBlank (c : Char) : Bool :=
  let code := c.toNat
  (0x09 ≤ code && code ≤ 0x0D) || code == 0x20 || code == 0x85 || code == 0xA0 ||
    code == 0x1680 || (0x2000 ≤ code && code ≤ 0x200A) || code == 0x2028 || code == 0x2029 ||
    code == 0x202F || code == 0x205F || code == 0x3000

/-- The control characters of the two blocks 0x00–0x1F and 0x7F–0x9F. -/
def isControl (c : Char) : Bool :=
  c.toNat ≤ 0x1F || (0x7F ≤ c.toNat && c.toNat ≤ 0x9F)

/-- The control characters that may not even be escaped: those below a space and
DEL, without the tab and the two line ends. -/
def isForbidden (c : Char) : Bool :=
  c.toNat ≤ 0x08 || c.toNat == 0x0B || c.toNat == 0x0C ||
    (0x0E ≤ c.toNat && c.toNat ≤ 0x1F) || c.toNat == 0x7F

/-- Every forbidden character is a control character. -/
theorem isControl_of_isForbidden {c : Char} (forbidden : isForbidden c) : isControl c := by
  simp only [isForbidden, isControl, Bool.or_eq_true, Bool.and_eq_true, decide_eq_true_eq,
    beq_iff_eq] at forbidden ⊢
  omega

/-- The characters of a text without the blanks at its end. -/
def trimEnd (text : List Char) : List Char :=
  (text.reverse.dropWhile isBlank).reverse

/-- The characters of a text without the blanks at either end. -/
def trimChars (text : List Char) : List Char :=
  trimEnd (text.dropWhile isBlank)

/-- A text without the blanks at either end. -/
def trim (text : String) : String :=
  .ofList (trimChars text.toList)

@[simp]
theorem toList_trim (text : String) : (trim text).toList = trimChars text.toList := by
  simp [trim]

end SiteScript.Text

import Mathlib.Data.List.TakeDrop
import Mathlib.Data.List.TakeWhile
import Mathlib.Data.Option.Basic
import SiteScript.Json.Number

/-!
# Literals of integers are read back

The literal of an integer consists of its decimal digits, which do not begin with a
zero that could be left out, behind a sign if it is negative.  So it has no fraction
and no exponent, and an integer that is kept exactly is what it denotes.
-/

namespace SiteScript.Number

/-- Whether a number is an integer that is kept exactly. -/
def isKeptInteger : Number → Bool
  | .integer value => isKept value
  | .double _ => false

/-! ## Decimal digits -/

theorem isDigit_of_mem_digitChars {n : Nat} {c : Char} (member : c ∈ digitChars n) : isDigit c :=
  Nat.isDigit_of_mem_toDigits (by decide) (by decide) member

theorem ofDigits_digitChars (n : Nat) : ofDigits (digitChars n) = n := by
  have read := Nat.ofDigitChars_ten_toDigits (n := n)
  rw [Nat.ofDigitChars_eq_foldl] at read
  simpa [ofDigits, digitChars, digitValue, Nat.mul_comm] using read

/-- Digits do not begin with a zero unless it is the only one. -/
theorem head?_digitChars {n : Nat} (positive : 0 < n) : (digitChars n).head? ≠ some '0' := by
  induction n using Nat.strongRecOn with
  | _ n inductionHypothesis =>
    rw [digitChars, Nat.toDigits_eq_if (by decide)]
    split
    · intro begins
      have zero : n.digitChar = '0' := by simpa using begins
      rw [Nat.digitChar_eq_zero] at zero
      omega
    · have shorter := inductionHypothesis (n / 10) (by omega) (by omega)
      rw [digitChars] at shorter
      rw [List.head?_append]
      cases begins : (Nat.toDigits 10 (n / 10)).head? with
      | none => exact absurd (List.head?_eq_none_iff.mp begins) Nat.toDigits_ne_nil
      | some first => simpa [begins] using shorter

/-! ## Literals -/

theorem span_isDigit {digits : List Char} (areDigits : ∀ c ∈ digits, isDigit c) :
    digits.span isDigit = (digits, []) := by
  rw [List.span_eq_takeWhile_dropWhile, List.takeWhile_eq_self_iff.mpr areDigits,
    List.dropWhile_eq_nil_iff.mpr areDigits]

/-- Digits that may stand in front of a point. -/
structure IsWhole (digits : List Char) : Prop where
  areDigits : ∀ c ∈ digits, isDigit c
  notEmpty : digits ≠ []
  noLeadingZero : digits.length = 1 ∨ digits.head? ≠ some '0'

theorem isWhole_digitChars (n : Nat) : IsWhole (digitChars n) where
  areDigits := fun _ member => isDigit_of_mem_digitChars member
  notEmpty := Nat.toDigits_ne_nil
  noLeadingZero := by
    by_cases zero : n = 0
    · left
      rw [zero]
      rfl
    · exact Or.inr (head?_digitChars (Nat.pos_of_ne_zero zero))

theorem IsWhole.accepted {digits : List Char} (isWhole : IsWhole digits) :
    (!digits.isEmpty && (digits.length == 1 || digits.head? != some '0')) = true := by
  simpa [isWhole.notEmpty] using isWhole.noLeadingZero

/-- Digits alone are a literal without fraction and exponent. -/
theorem literal?_digits {digits : List Char} (isWhole : IsWhole digits) :
    literal? digits = some ⟨false, digits, none, none⟩ := by
  have noSign : ∀ rest, digits ≠ '-' :: rest := by
    rintro rest rfl
    have minusIsDigit := isWhole.areDigits '-' List.mem_cons_self
    exact absurd minusIsDigit (by decide)
  unfold literal?
  split
  rename_i negative text split
  split at split
  · rename_i rest
    exact absurd rfl (noSign rest)
  · cases split
    simp only [span_isDigit isWhole.areDigits, isWhole.accepted]
    rfl

theorem literal?_minus {digits : List Char} (isWhole : IsWhole digits) :
    literal? ('-' :: digits) = some ⟨true, digits, none, none⟩ := by
  simp only [literal?, span_isDigit isWhole.areDigits, isWhole.accepted]
  rfl

/-! ## Integers -/

/-- The literal of an integer. -/
theorem literal?_integerChars (value : Int) :
    literal? (integerChars value) =
      some ⟨decide (value < 0), digitChars value.natAbs, none, none⟩ := by
  have isWhole := isWhole_digitChars value.natAbs
  rw [integerChars]
  split
  · rename_i negative
    rw [literal?_minus isWhole, decide_eq_true negative]
  · rename_i notNegative
    rw [literal?_digits isWhole, decide_eq_false notNegative]

/-- The characters of the literal of an integer. -/
theorem mem_integerChars {value : Int} {c : Char} (member : c ∈ integerChars value) :
    c = '-' ∨ isDigit c := by
  rw [integerChars] at member
  split at member
  · exact (List.mem_cons.mp member).imp_right isDigit_of_mem_digitChars
  · exact Or.inr (isDigit_of_mem_digitChars member)

/-- An integer that is kept exactly is read back. -/
theorem ofChars?_integerChars {value : Int} (kept : isKept value) :
    ofChars? (integerChars value) = some (.integer value) := by
  have magnitude :
      (if decide (value < 0) then -(value.natAbs : Int) else value.natAbs) = value := by
    split
    · rename_i negative
      have below := of_decide_eq_true negative
      omega
    · rename_i notNegative
      have above := of_decide_eq_false (eq_false_of_ne_true notNegative)
      omega
  have notMinusZero : (decide (value < 0) && value.natAbs == 0) = false := by
    rw [Bool.and_eq_false_iff, decide_eq_false_iff_not, beq_eq_false_iff_ne]
    omega
  rw [ofChars?, literal?_integerChars, Option.bind_some, ofLiteral?]
  simp only [ofDigits_digitChars, magnitude, notMinusZero, kept]
  rfl

/-- The literal of an integer that is kept exactly is read back. -/
theorem ofChars?_chars {number : Number} (integer : number.isKeptInteger) :
    ofChars? number.chars = some number := by
  cases number with
  | integer value => exact ofChars?_integerChars integer
  | double value => cases integer

end SiteScript.Number

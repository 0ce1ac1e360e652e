/-!
# Binary64 numbers

The finite numbers of the binary64 format, held exactly as a sign, a significand
and a power of two, with the roundings that reading a decimal literal needs.  All
arithmetic is on natural numbers, so every result is decided by computation.
-/

namespace SiteScript

/-- The number `± significand · 2 ^ exponent`.  In the numbers built here the
significand is below `2 ^ 53`, the exponent is at least `-1074`, and the
significand is as large as that allows. -/
structure Binary64 where
  negative : Bool
  significand : Nat
  exponent : Int
  deriving Repr, DecidableEq

namespace Binary64

/-- The smallest exponent of the format. -/
def minExponent : Int := -1074

/-- The largest exponent of the format. -/
def maxExponent : Int := 971

/-- The smallest number beyond all significands: `2 ^ 53`. -/
def beyond : Nat := 0x20000000000000

/-- The number zero. -/
def zero : Binary64 := ⟨false, 0, minExponent⟩

/-- Whether a number is a zero of either sign. -/
def isZero (number : Binary64) : Bool :=
  number.significand == 0

/-- A number with the opposite sign. -/
def negate (number : Binary64) : Binary64 :=
  { number with negative := !number.negative }

/-- The integer quotient nearest to `numerator / denominator`; of two equally near
ones, the even one. -/
def nearestQuotient (numerator denominator : Nat) : Nat :=
  let quotient := numerator / denominator
  let twice := 2 * (numerator % denominator)
  if denominator < twice ∨ (twice = denominator ∧ quotient % 2 = 1) then quotient + 1
  else quotient

/-- The exponent at which a positive ratio has a significand of 53 bits, or the
smallest exponent if that is larger. -/
def exponentOfRatio (numerator denominator : Nat) : Int :=
  let estimate : Int := (Nat.log2 numerator : Int) - (Nat.log2 denominator : Int)
  let reaches :=
    if 0 ≤ estimate then denominator * Nat.pow 2 estimate.toNat ≤ numerator
    else denominator ≤ numerator * Nat.pow 2 (-estimate).toNat
  max minExponent (if reaches then estimate - 52 else estimate - 53)

/-- The number nearest to a ratio of natural numbers, or nothing if that is beyond
the largest number of the format. -/
def ofRatio? (numerator denominator : Nat) : Option Binary64 :=
  if numerator = 0 then some zero
  else
    let exponent := exponentOfRatio numerator denominator
    let significand :=
      if 0 ≤ exponent then nearestQuotient numerator (denominator * Nat.pow 2 exponent.toNat)
      else nearestQuotient (numerator * Nat.pow 2 (-exponent).toNat) denominator
    let (significand, exponent) :=
      if significand = beyond then (beyond / 2, exponent + 1) else (significand, exponent)
    if maxExponent < exponent then none else some ⟨false, significand, exponent⟩

/-- The magnitude of a number as a ratio of natural numbers. -/
def ratio (number : Binary64) : Nat × Nat :=
  if 0 ≤ number.exponent then (number.significand * Nat.pow 2 number.exponent.toNat, 1)
  else (number.significand, Nat.pow 2 (-number.exponent).toNat)

/-- The number nearest to a natural number; natural numbers of this library's
literals are never too large. -/
def ofNat (n : Nat) : Binary64 :=
  (ofRatio? n 1).getD zero

/-- The rounded product of two magnitudes. -/
def mul? (left right : Binary64) : Option Binary64 :=
  ofRatio? (left.ratio.1 * right.ratio.1) (left.ratio.2 * right.ratio.2)

/-- The rounded quotient of two magnitudes. -/
def div? (left right : Binary64) : Option Binary64 :=
  ofRatio? (left.ratio.1 * right.ratio.2) (left.ratio.2 * right.ratio.1)

end Binary64

end SiteScript

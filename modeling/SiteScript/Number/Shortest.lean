import SiteScript.Number.Binary64

/-!
# Shortest decimals

The decimal with the fewest digits that still lies closer to a given binary64
number than to any other.  The candidates on a decimal grid are the two
neighbours of the number; the coarsest grid on which a neighbour lies in the
rounding interval wins, and of two such neighbours the nearer one.
-/

namespace SiteScript

/-- The number `digits · 10 ^ exponent`. -/
structure Decimal where
  digits : Nat
  exponent : Int
  deriving Repr, DecidableEq

namespace Binary64

/-- The interval of numbers that round to a positive number: its ends and the
number itself, as numerators over one denominator, and whether the ends belong
to it. -/
structure RoundingInterval where
  low : Nat
  value : Nat
  high : Nat
  denominator : Nat
  closed : Bool
  deriving Repr, DecidableEq

/-- The rounding interval of a magnitude.  The lower neighbour of a power of two
is only half as far away as the upper one. -/
def roundingInterval (number : Binary64) : RoundingInterval :=
  let quarter := number.exponent - 2
  let scale := if 0 ≤ quarter then Nat.pow 2 quarter.toNat else 1
  let below :=
    if number.significand = beyond / 2 ∧ number.exponent ≠ minExponent then 1 else 2
  { low := (4 * number.significand - below) * scale
    value := 4 * number.significand * scale
    high := (4 * number.significand + 2) * scale
    denominator := if 0 ≤ quarter then 1 else Nat.pow 2 (-quarter).toNat
    closed := number.significand % 2 = 0 }

/-- Whether `numerator / denominator`, over the interval's denominator, lies in the
interval; both are scaled by `scale`. -/
def RoundingInterval.contains (interval : RoundingInterval) (scale numerator : Nat) : Bool :=
  let low := interval.low * scale
  let high := interval.high * scale
  if interval.closed then low ≤ numerator && numerator ≤ high
  else low < numerator && numerator < high

/-- The neighbour of the number on the grid of multiples of `10 ^ exponent` that
lies in the rounding interval; of two, the nearer, and of two equally near ones
the even one. -/
def RoundingInterval.onGrid? (interval : RoundingInterval) (exponent : Int) : Option Decimal :=
  let scale := if 0 ≤ exponent then 1 else Nat.pow 10 (-exponent).toNat
  let unit := interval.denominator * (if 0 ≤ exponent then Nat.pow 10 exponent.toNat else 1)
  let value := interval.value * scale
  let lower := value / unit
  let lowerFits := interval.contains scale (lower * unit)
  let upperFits := interval.contains scale ((lower + 1) * unit)
  let rest := value % unit
  let upperNearer := unit < 2 * rest || (2 * rest == unit && lower % 2 == 1)
  match lowerFits, upperFits with
  | true, true => some ⟨if upperNearer then lower + 1 else lower, exponent⟩
  | true, false => some ⟨lower, exponent⟩
  | false, true => some ⟨lower + 1, exponent⟩
  | false, false => none

/-- Tries ever finer grids, at most `fuel` of them. -/
def RoundingInterval.search (interval : RoundingInterval) (exponent : Int) : Nat → Decimal
  | 0 => ⟨0, 0⟩
  | fuel + 1 =>
    match interval.onGrid? exponent with
    | some decimal => decimal
    | none => interval.search (exponent - 1) fuel

/-- The shortest decimal of a magnitude.  The search begins above the leading digit;
seventeen digits always suffice. -/
def shortest (number : Binary64) : Decimal :=
  if number.significand = 0 then ⟨0, 0⟩
  else
    let magnitude : Int := (Nat.log2 number.significand : Int) + number.exponent + 1
    number.roundingInterval.search (magnitude * 30103 / 100000 + 1) 24

end Binary64

end SiteScript

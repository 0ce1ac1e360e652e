/-!
# Hexadecimal digits

The digits of base sixteen.  They are read in either case; in which case they are
written is decided where they are written.
-/

namespace SiteScript.Text.Hex

/-- The digit of a number below sixteen, in lower case. -/
def digit (n : Nat) : Char :=
  if n < 10 then Char.ofNat (0x30 + n) else Char.ofNat (0x57 + n)

/-- The digit of a number below sixteen, in upper case. -/
def upperDigit (n : Nat) : Char :=
  if n < 10 then Char.ofNat (0x30 + n) else Char.ofNat (0x37 + n)

/-- The digits of a number, in lower case and without leading zeros. -/
def digits (n : Nat) : List Char :=
  Nat.toDigits 16 n

/-- The value of a digit of either case. -/
def value? (c : Char) : Option Nat :=
  if '0' ≤ c ∧ c ≤ '9' then some (c.toNat - 0x30)
  else if 'a' ≤ c ∧ c ≤ 'f' then some (c.toNat - 0x57)
  else if 'A' ≤ c ∧ c ≤ 'F' then some (c.toNat - 0x37)
  else none

@[simp]
theorem value?_digit : ∀ n : Fin 16, value? (digit n) = some n.val := by
  decide

end SiteScript.Text.Hex

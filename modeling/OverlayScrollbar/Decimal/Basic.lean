import OverlayScrollbar.Binary.Double

/-!
# Decimal numbers

- `Decimal`            : a sign, a coefficient and a power of ten
- `Decimal.double?`    : the nearest double-precision size
- `digitValue?`        : the value of a digit in a base up to sixteen
- `digitsValue`        : the number that a list of digits writes
-/

namespace OverlayScrollbar

/-! ## Digits -/

/-- The value of a digit of base sixteen, in either case. -/
def digitValue? (c : Char) : Option Nat :=
  if '0' ≤ c ∧ c ≤ '9' then some (c.toNat - '0'.toNat)
  else if 'a' ≤ c ∧ c ≤ 'f' then some (c.toNat - 'a'.toNat + 10)
  else if 'A' ≤ c ∧ c ≤ 'F' then some (c.toNat - 'A'.toNat + 10)
  else none

/-- Whether a character is a digit of the given base. -/
def isDigitOf (base : Nat) (c : Char) : Bool :=
  match digitValue? c with
  | some d => decide (d < base)
  | none => false

/-- The number written by digits of the given base, most significant first. -/
def digitsValue (base : Nat) (digits : List Char) : Nat :=
  digits.foldl (fun n c => n * base + (digitValue? c).getD 0) 0

/-! ## Decimals -/

/-- The number `coefficient * 10 ^ exponent` with a sign. -/
structure Decimal where
  /-- Whether the number is below zero, or the negative zero. -/
  negative : Bool
  /-- The digits, read as a whole number. -/
  coefficient : Nat
  /-- The power of ten that the coefficient is multiplied by. -/
  exponent : Int
  deriving DecidableEq, Repr

namespace Decimal

/-- The double-precision size nearest to a decimal, unless it is out of range.

Exponents beyond four hundred places are settled without computing the power: a coefficient other
than zero is then out of range on the one side, and rounds to zero on the other. -/
def double? (d : Decimal) : Option DoubleSize :=
  if d.coefficient = 0 then some ⟨0⟩
  else if 400 < d.exponent then none
  else if d.exponent + 400 + (d.coefficient.log2 + 1) < 0 then some ⟨0⟩
  else
    DoubleSize.ofRatio? (d.coefficient * 10 ^ d.exponent.toNat) (10 ^ (-d.exponent).toNat)

end Decimal

end OverlayScrollbar

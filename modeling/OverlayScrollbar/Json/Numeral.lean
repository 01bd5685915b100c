import OverlayScrollbar.Decimal.Basic

/-!
# JSON numerals

A numeral keeps its digits, so that it can be read as a whole number or as a floating-point one.

- `Numeral`          : the parts of a number's text
- `Numeral.natural?` : the whole number that a numeral writes, if it has neither sign nor fraction
- `Numeral.single?`  : the single-precision number that a numeral stands for

A numeral that is a whole number of 64 bits is rounded once. Any other is read in double precision
from as many leading digits as fit a 64-bit word and one multiplication or division by a power of
ten, and then rounded to single precision.
-/

namespace OverlayScrollbar

/-- The text of a number, in parts. -/
structure Numeral where
  negative : Bool
  /-- The digits before the point. -/
  whole : List Char
  /-- The digits after the point; without a point there are none. -/
  fraction : List Char
  /-- The exponent's sign and digits. -/
  exponent? : Option (Bool × List Char)
  deriving DecidableEq, Repr

namespace Numeral

/-! ## Whole numbers -/

/-- The numeral has neither a fraction nor an exponent. -/
def isWhole (n : Numeral) : Bool :=
  n.fraction.isEmpty && n.exponent?.isNone

/-- The whole number that a numeral without sign, fraction and exponent writes. -/
def natural? (n : Numeral) : Option Nat :=
  if n.isWhole && !n.negative then some (digitsValue 10 n.whole) else none

/-- The whole number that a numeral without fraction and exponent writes. -/
def integer? (n : Numeral) : Option Int :=
  if n.isWhole then
    let size : Int := digitsValue 10 n.whole
    some (if n.negative then -size else size)
  else none

/-- The exponent as a number. -/
def exponentValue (n : Numeral) : Int :=
  match n.exponent? with
  | none => 0
  | some (negative, digits) =>
      let size : Int := digitsValue 10 digits
      if negative then -size else size

/-! ## Floating-point numbers -/

/-- Appends digits to a significand as long as it fits a 64-bit word; gives the number of digits that
were left. -/
def absorb (significand : Nat) : List Char → Nat × Nat
  | [] => (significand, 0)
  | c :: rest =>
      let next := significand * 10 + (digitValue? c).getD 0
      if next < 2 ^ 64 then absorb next rest else (significand, rest.length + 1)

/-- The significand of a numeral and the power of ten that belongs to it. Digits before the point
that do not fit raise the power; digits after the point that do fit lower it. -/
def parts (n : Numeral) : Nat × Int :=
  let (significand, left) := absorb 0 n.whole
  let (significand, unread) := absorb significand n.fraction
  (significand, (left : Int) - ((n.fraction.length - unread : Nat) : Int) + n.exponentValue)

/-- A power of ten in double precision. -/
def powerOfTen? (exponent : Nat) : Option DoubleSize :=
  DoubleSize.ofRatio? (10 ^ exponent) 1

/-- Multiplies a size by a power of ten, or divides it by one, unless the product is out of range.
A division by a power that is out of range itself is done in steps; after `fuel` of them, any size is
zero. -/
def scale? : Nat → DoubleSize → Int → Option DoubleSize
  | 0, _, _ => some ⟨0⟩
  | fuel + 1, size, exponent =>
      if exponent.natAbs ≤ 308 then do
        let power ← powerOfTen? exponent.natAbs
        if 0 ≤ exponent then size.mul? power else size.div? power
      else if size.units = 0 then some size
      else if 0 ≤ exponent then none
      else do
        let power ← powerOfTen? 308
        scale? fuel (← size.div? power) (exponent + 308)

/-- The double-precision size that a numeral stands for, unless it is out of range. -/
def double? (n : Numeral) : Option DoubleSize :=
  let (significand, exponent) := n.parts
  (DoubleSize.ofRatio? significand 1).bind fun size => scale? 4 size exponent

/-- The single-precision number that a numeral stands for, unless it is out of double precision's
range. -/
def single? (n : Numeral) : Option Single :=
  let size := digitsValue 10 n.whole
  if n.isWhole && !n.negative && decide (size < 2 ^ 64) then some (Single.ofNat size)
  else if n.isWhole && n.negative && decide (0 < size) && decide (size ≤ 2 ^ 63) then
    some (Single.ofRatio true size 1)
  else n.double?.map (Single.ofDouble n.negative)

end Numeral

end OverlayScrollbar

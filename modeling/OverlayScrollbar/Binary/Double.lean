import OverlayScrollbar.Single.Basic

/-!
# Double-precision sizes

Text formats hold numbers in double precision. A double-precision size is a whole number of units of
`2 ^ -1074` with at most 53 significant bits.

- `DoubleSize.ofRatio?` : the size nearest to a quotient, if it is in range
- `DoubleSize.mul?`, `DoubleSize.div?` : product and quotient, rounded once
- `Single.ofDouble`     : the single-precision number nearest to a double-precision one
- `Single.doubleSize`   : the size of a finite single-precision number, which is the same
- `Double`              : the numbers, with `Double.toSingle` and `Single.toDouble`
-/

namespace OverlayScrollbar

/-- A double-precision size, in units of `2 ^ -1074`. -/
structure DoubleSize where
  /-- How many units. -/
  units : Nat
  deriving DecidableEq, Repr

namespace DoubleSize

/-- The number of units in the number one. -/
def unitsPerOne : Nat :=
  2 ^ 1074

/-- Sizes are below this many units, which stand for `2 ^ 1024`. -/
def unitLimit : Nat :=
  2 ^ 1024 * unitsPerOne

/-- The size nearest to `num / den` units, unless it is out of range. -/
def round? (num den : Nat) : Option DoubleSize :=
  let n := roundBits 53 num den
  if n < unitLimit then some ⟨n⟩ else none

/-- The size nearest to `num / den`, unless it is out of range. -/
def ofRatio? (num den : Nat) : Option DoubleSize :=
  round? (num * unitsPerOne) den

/-- The product, unless it is out of range. -/
def mul? (a b : DoubleSize) : Option DoubleSize :=
  round? (a.units * b.units) unitsPerOne

/-- The quotient, unless it is out of range. -/
def div? (a b : DoubleSize) : Option DoubleSize :=
  round? (a.units * unitsPerOne) b.units

end DoubleSize

namespace Single

/-- The single-precision number nearest to a double-precision one. -/
def ofDouble (negative : Bool) (size : DoubleSize) : Single :=
  round negative size.units (2 ^ 925)

/-- The size of a finite number in double precision, which is exact. -/
def doubleSize (size : Magnitude) : DoubleSize :=
  ⟨size.units * 2 ^ 925⟩

end Single

/-- Double-precision numbers. -/
inductive Double
  | nan
  | infinity (negative : Bool)
  | finite (negative : Bool) (size : DoubleSize)
  deriving DecidableEq, Repr

/-- The nearest single-precision number. -/
def Double.toSingle : Double → Single
  | .nan => .nan
  | .infinity negative => .infinity negative
  | .finite negative size => Single.ofDouble negative size

/-- The same number in double precision. -/
def Single.toDouble : Single → Double
  | .nan => .nan
  | .infinity negative => .infinity negative
  | .finite negative size => .finite negative (doubleSize size)

end OverlayScrollbar

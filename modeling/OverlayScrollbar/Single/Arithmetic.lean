import OverlayScrollbar.Single.Basic

/-!
# Arithmetic of single-precision numbers

Each operation is computed exactly on whole numbers of units and rounded once to the nearest
number, ties to even.

- `+`, `-`, `*`, `/` and negation
- `Single.abs`   : a number without its sign
- `Single.hypot` : the length of the diagonal of a rectangle
-/

namespace OverlayScrollbar

namespace Single

/-! ## Signs -/

/-- The number with the opposite sign. -/
protected def neg : Single → Single
  | .nan => .nan
  | .infinity negative => .infinity !negative
  | .finite negative size => .finite (!negative) size

instance : Neg Single where
  neg := Single.neg

/-- The number without its sign. -/
def abs : Single → Single
  | .nan => .nan
  | .infinity _ => .infinity false
  | .finite _ size => .finite false size

/-! ## Sums -/

/-- The sum. A sum of zero is negative only if both parts are. -/
protected def add : Single → Single → Single
  | .nan, _ => .nan
  | _, .nan => .nan
  | .infinity a, .infinity b => if a = b then .infinity a else .nan
  | .infinity a, .finite _ _ => .infinity a
  | .finite _ _, .infinity b => .infinity b
  | .finite a x, .finite b y =>
      let sum := signedUnits a x + signedUnits b y
      if sum = 0 then zero (a && b) else round (decide (sum < 0)) sum.natAbs 1

instance : Add Single where
  add := Single.add

/-- The difference. -/
protected def sub (a b : Single) : Single :=
  a + -b

instance : Sub Single where
  sub := Single.sub

/-! ## Products and quotients -/

/-- The product. -/
protected def mul : Single → Single → Single
  | .nan, _ => .nan
  | _, .nan => .nan
  | .infinity a, .infinity b => .infinity (a != b)
  | .infinity a, .finite b y => if y.units = 0 then .nan else .infinity (a != b)
  | .finite a x, .infinity b => if x.units = 0 then .nan else .infinity (a != b)
  | .finite a x, .finite b y => round (a != b) (x.units * y.units) unitsPerOne

instance : Mul Single where
  mul := Single.mul

/-- The quotient. -/
protected def div : Single → Single → Single
  | .nan, _ => .nan
  | _, .nan => .nan
  | .infinity _, .infinity _ => .nan
  | .infinity a, .finite b _ => .infinity (a != b)
  | .finite a _, .infinity b => zero (a != b)
  | .finite a x, .finite b y =>
      if y.units = 0 then
        if x.units = 0 then .nan else .infinity (a != b)
      else round (a != b) (x.units * unitsPerOne) y.units

instance : Div Single where
  div := Single.div

/-! ## Lengths -/

/-- The length of the vector `(x, y)`: the squares are added, and the root is taken, to 53 bits. -/
def hypot : Single → Single → Single
  | .infinity _, _ => .infinity false
  | _, .infinity _ => .infinity false
  | .nan, _ => .nan
  | _, .nan => .nan
  | .finite _ x, .finite _ y =>
      let square := roundBits 53 (x.units * x.units + y.units * y.units) 1
      round false (roundSquareRoot 53 64 square) (2 ^ 64)

end Single

end OverlayScrollbar
